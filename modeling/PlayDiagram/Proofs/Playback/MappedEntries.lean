import PlayDiagram.Playback.Frame

/-!
# Schedules with other entries

A track looks at who performs an entry, where the entry leads, and when.  So a map of the entries that
keeps the performers and the targets keeps the tracks of a transition (`tracksBetween_of_map`), and one
that keeps the moves of the entries keeps where a track leads (`Track.positionAt_of_map`).
-/

namespace PlayDiagram

variable {α : Type} {f : ScheduledAction α → ScheduledAction α} {s s' : Schedule α}

section Tracks

variable (hs : s'.actions = s.actions.map f)

include hs

theorem Schedule.getElem?_of_map (i : Nat) : s'.actions[i]? = s.actions[i]?.map f := by
  rw [hs, List.getElem?_map]

/-- The same entries are performed by an object, if need be under another name. -/
theorem Schedule.performedBy_of_map {id id' : ObjectId}
    (hperformer : ∀ a, (f a).performer = some id' ↔ a.performer = some id) :
    s'.performedBy id' = s.performedBy id := by
  unfold performedBy
  rw [hs, List.zipIdx_map, List.filter_map, List.map_map]
  simp only [Function.comp_def, Prod.map_fst, hperformer]
  rfl

theorem arrivalOf_of_map (htarget : ∀ a, (f a).target = a.target) (arriving : Phase α)
    (o : CourtObject α) (actions : List Nat) :
    arrivalOf arriving s' o actions = arrivalOf arriving s o actions := by
  unfold arrivalOf
  cases arriving.object? o.id with
  | some there => rfl
  | none =>
      cases actions.getLast? with
      | none => rfl
      | some i =>
          simp only [Option.bind_some, Schedule.getElem?_of_map hs]
          cases s.actions[i]? with
          | none => rfl
          | some last => exact htarget last

variable (htarget : ∀ a, (f a).target = a.target) (hperformer : ∀ a, (f a).performer = a.performer)

include htarget hperformer

theorem departingTracks_of_map (arriving : Phase α) (seen : List ObjectId)
    (objects : List (CourtObject α)) :
    departingTracks arriving s' seen objects = departingTracks arriving s seen objects := by
  induction objects generalizing seen with
  | nil => rfl
  | cons o rest ih =>
      have hperformed : s'.performedBy o.id = s.performedBy o.id :=
        Schedule.performedBy_of_map hs fun a => by rw [hperformer]
      simp only [departingTracks, hperformed, arrivalOf_of_map hs htarget, ih]

theorem tracksBetween_of_map (departing arriving : Phase α) :
    tracksBetween departing arriving s' = tracksBetween departing arriving s := by
  unfold tracksBetween
  rw [departingTracks_of_map hs htarget hperformer]

end Tracks

theorem Track.entries_of_map (hs : s'.actions = s.actions.map f) (track : Track α) :
    track.entries s' = (track.entries s).map f := by
  unfold entries
  rw [List.map_filterMap]
  simp only [Schedule.getElem?_of_map hs]

/-- The entries are changed in nothing that moves their objects. -/
structure KeepsMoves (f : ScheduledAction α → ScheduledAction α) : Prop where
  startMs_eq : ∀ a, (f a).startMs = a.startMs
  endMs_eq : ∀ a, (f a).endMs = a.endMs
  origin_eq : ∀ a, (f a).origin = a.origin
  target_eq : ∀ a, (f a).target = a.target

variable [Scalar α]

namespace KeepsMoves

variable (hf : KeepsMoves f)

include hf

theorem contains_eq (a : ScheduledAction α) (t : α) : (f a).contains t = a.contains t := by
  simp only [ScheduledAction.contains, hf.startMs_eq, hf.endMs_eq]

theorem positionAt_eq (a : ScheduledAction α) (t : α) : (f a).positionAt t = a.positionAt t := by
  have hprogress : (f a).progress t = a.progress t := by
    unfold ScheduledAction.progress ScheduledAction.durationMs
    rw [hf.startMs_eq, hf.endMs_eq]
  unfold ScheduledAction.positionAt
  rw [hprogress, hf.origin_eq, hf.target_eq]

theorem lastEnded?_map (actions : List (ScheduledAction α)) (t : α) :
    lastEnded? (actions.map f) t = (lastEnded? actions t).map f := by
  unfold lastEnded?
  rw [List.filter_map, List.foldl_map]
  simp only [Function.comp_def, hf.endMs_eq]
  show List.foldl _ (none.map f) _ = _
  apply List.foldl_hom
  intro latest? a
  cases latest? with
  | none => rfl
  | some latest => simp only [Option.map_some, hf.endMs_eq, apply_ite (Option.map f)]

end KeepsMoves

theorem Track.positionAt_of_map (hs : s'.actions = s.actions.map f) (htotal : s'.totalMs = s.totalMs)
    (hf : KeepsMoves f) (track : Track α) (t : α) :
    track.positionAt s' t = track.positionAt s t := by
  unfold positionAt
  rw [Track.entries_of_map hs, htotal]
  generalize track.entries s = entries
  simp only [List.isEmpty_map, List.any_map, Function.comp_def, hf.startMs_eq, hf.endMs_eq,
    ← List.map_reverse, List.find?_map, hf.contains_eq, hf.lastEnded?_map]
  cases entries.reverse.find? (·.contains t) with
  | some active => simp only [Option.map_some, hf.positionAt_eq]
  | none =>
      cases lastEnded? entries t with
      | none => rfl
      | some ended => simp only [Option.map_none, Option.map_some, hf.target_eq]

end PlayDiagram
