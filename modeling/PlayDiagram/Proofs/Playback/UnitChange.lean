import PlayDiagram.Proofs.Playback.ClockMap
import PlayDiagram.Proofs.Playback.Compilation
import PlayDiagram.Proofs.Playback.MappedEntries

/-!
# Measuring time in another unit

If the durations of all actions are measured in another unit, so is every time of a compiled play,
and nothing else about it changes (`IsTimeMap.compile_transitions`).  A frame does not show the unit
in which its time was given (`IsUnitChange.frameAt_mapTimes`).
-/

namespace PlayDiagram

variable {α : Type}

def ScheduledAction.mapTimes (φ : α → α) (a : ScheduledAction α) : ScheduledAction α :=
  { a with startMs := φ a.startMs, endMs := φ a.endMs }

def Schedule.mapTimes (φ : α → α) (s : Schedule α) : Schedule α :=
  { actions := s.actions.map (·.mapTimes φ), totalMs := φ s.totalMs }

def Flip.mapTimes (φ : α → α) (flip : Flip α) : Flip α :=
  { flip with atMs := φ flip.atMs }

/-- The transition with all its times mapped, and everything else as it is. -/
def Transition.mapTimes (φ : α → α) (t : Transition α) : Transition α :=
  { t with schedule := t.schedule.mapTimes φ, flip? := t.flip?.map (·.mapTimes φ) }

@[simp] theorem tracksBetween_mapTimes (φ : α → α) (departing arriving : Phase α) (s : Schedule α) :
    tracksBetween departing arriving (s.mapTimes φ) = tracksBetween departing arriving s := by
  have hmapped : (s.mapTimes φ).actions = s.actions.map (·.mapTimes φ) := rfl
  exact tracksBetween_of_map hmapped (fun _ => rfl) (fun _ => rfl) departing arriving

@[simp] theorem ScheduledAction.flip?_mapTimes (φ : α → α) (a : ScheduledAction α) :
    (a.mapTimes φ).flip? = a.flip?.map (·.mapTimes φ) := by
  show a.possessionChange?.map _ = (a.possessionChange?.map _).map _
  rw [Option.map_map]
  rfl

@[simp] theorem Schedule.flip?_mapTimes (φ : α → α) (s : Schedule α) :
    (s.mapTimes φ).flip? = s.flip?.map (·.mapTimes φ) := by
  unfold flip? mapTimes
  rw [List.findSome?_map, List.map_findSome?]
  congr 1
  funext a
  exact a.flip?_mapTimes φ

@[simp] theorem Transition.endOwner_mapTimes (φ : α → α) (t : Transition α) :
    (t.mapTimes φ).endOwner = t.endOwner := by
  unfold endOwner mapTimes
  cases t.flip? <;> rfl

variable [Scalar α]

/-! ## Compiling -/

namespace IsTimeMap

variable {φ : α → α} (hφ : IsTimeMap φ)

include hφ

variable {tempo tempo' : Tempo α}
  (hlength : ∀ timing, tempo'.lengthMs timing = φ (tempo.lengthMs timing))

include hlength

theorem layOut_mapTimes (c : Cursor α) (actions : List (Action α)) :
    Schedule.layOut tempo' ⟨φ c.freeMs, φ c.anchorMs⟩ actions =
      (Schedule.layOut tempo c actions).mapTimes φ := by
  induction actions generalizing c with
  | nil => rfl
  | cons a rest ih =>
      simp only [Schedule.layOut, hlength, hφ.place_map, ih, ← hφ.map_add]
      rfl

theorem ofActions_mapTimes (actions : List (Action α)) :
    Schedule.ofActions tempo' actions = (Schedule.ofActions tempo actions).mapTimes φ := by
  cases actions with
  | nil => simp only [Schedule.ofActions, Schedule.mapTimes, List.map_nil, hφ.map_zero]
  | cons a rest =>
      have hlaidOut := hφ.layOut_mapTimes hlength ⟨0, 0⟩ (a.triggered .afterPrevious :: rest)
      rw [hφ.map_zero] at hlaidOut
      exact hlaidOut

theorem between_mapTimes (index : ℕ) (departing arriving : Phase α) (owner : Option ObjectId) :
    Transition.between tempo' index departing arriving owner =
      (Transition.between tempo index departing arriving owner).mapTimes φ := by
  simp only [Transition.between, Transition.mapTimes, hφ.ofActions_mapTimes hlength,
    tracksBetween_mapTimes, Schedule.flip?_mapTimes]

theorem compileFrom_mapTimes (n : ℕ) (carried : Option ObjectId) (phases : List (Phase α)) :
    compileFrom tempo' n carried phases =
      ((compileFrom tempo n carried phases).1.map (·.mapTimes φ),
        (compileFrom tempo n carried phases).2) := by
  have hcompiled := compileFrom_map id (·.mapTimes φ) id (fun _ _ _ => rfl)
    (hφ.between_mapTimes hlength) (Transition.endOwner_mapTimes φ) n carried phases
  rwa [List.map_id, List.map_id] at hcompiled

theorem compile_transitions (d : Document α) :
    (d.compile tempo').transitions = (d.compile tempo).transitions.map (·.mapTimes φ) := by
  unfold Document.compile
  rw [hφ.compileFrom_mapTimes hlength]

theorem compile_startOwners (d : Document α) :
    (d.compile tempo').startOwners = (d.compile tempo).startOwners := by
  unfold Document.compile
  rw [hφ.compileFrom_mapTimes hlength]

/-- The clock of the play starts with the durations mapped. -/
theorem start_compile (d : Document α) :
    Clock.start (d.compile tempo') = (Clock.start (d.compile tempo)).mapTimes φ := by
  unfold Clock.start Clock.mapTimes
  rw [hφ.compile_transitions hlength, List.map_map, List.map_map, hφ.map_zero]
  rfl

end IsTimeMap

/-! ## Frames -/

/-- The map measures times in another unit: ratios of times stay what they are. -/
structure IsUnitChange (φ : α → α) : Prop extends IsTimeMap φ where
  div_map : ∀ x y, φ x / φ y = x / y
  totalLE_map : ∀ x y, Scalar.totalLE (φ x) (φ y) = Scalar.totalLE x y

namespace IsUnitChange

variable {φ : α → α} (hφ : IsUnitChange φ)

include hφ

theorem nonpos_iff (x : α) : φ x ≤ 0 ↔ x ≤ 0 := by
  rw [← hφ.map_zero, hφ.le_iff, hφ.map_zero]

theorem durationMs_mapTimes (a : ScheduledAction α) :
    (a.mapTimes φ).durationMs = φ a.durationMs :=
  (hφ.map_sub a.endMs a.startMs).symm

theorem progress_mapTimes (a : ScheduledAction α) (t : α) :
    (a.mapTimes φ).progress (φ t) = a.progress t := by
  have hsince : φ t - (a.mapTimes φ).startMs = φ (t - a.startMs) := (hφ.map_sub t a.startMs).symm
  simp only [ScheduledAction.progress, hφ.durationMs_mapTimes, hsince, hφ.nonpos_iff, hφ.div_map]

theorem contains_mapTimes (a : ScheduledAction α) (t : α) :
    (a.mapTimes φ).contains (φ t) = a.contains t := by
  simp only [ScheduledAction.contains, ScheduledAction.mapTimes, hφ.le_iff]

theorem action_positionAt_mapTimes (a : ScheduledAction α) (t : α) :
    (a.mapTimes φ).positionAt (φ t) = a.positionAt t := by
  unfold ScheduledAction.positionAt
  rw [hφ.progress_mapTimes]
  rfl

theorem any_startMs_mapTimes (actions : List (ScheduledAction α)) (t : α) :
    (actions.map (·.mapTimes φ)).any (fun a => a.startMs < φ t) =
      actions.any fun a => a.startMs < t := by
  rw [List.any_map]
  simp only [Function.comp_def, ScheduledAction.mapTimes, hφ.lt_iff]

theorem any_endMs_mapTimes (actions : List (ScheduledAction α)) (t : α) :
    (actions.map (·.mapTimes φ)).any (fun a => φ t < a.endMs) =
      actions.any fun a => t < a.endMs := by
  rw [List.any_map]
  simp only [Function.comp_def, ScheduledAction.mapTimes, hφ.lt_iff]

theorem find?_contains_mapTimes (actions : List (ScheduledAction α)) (t : α) :
    (actions.map (·.mapTimes φ)).reverse.find? (·.contains (φ t)) =
      (actions.reverse.find? (·.contains t)).map (·.mapTimes φ) := by
  rw [← List.map_reverse, List.find?_map]
  simp only [Function.comp_def, hφ.contains_mapTimes]

theorem lastEnded?_mapTimes (actions : List (ScheduledAction α)) (t : α) :
    lastEnded? (actions.map (·.mapTimes φ)) (φ t) =
      (lastEnded? actions t).map (·.mapTimes φ) := by
  unfold lastEnded?
  rw [List.filter_map, List.foldl_map]
  simp only [Function.comp_def, ScheduledAction.mapTimes, hφ.lt_iff]
  show List.foldl _ (none.map (ScheduledAction.mapTimes φ)) _ = _
  apply List.foldl_hom
  intro latest? a
  cases latest? with
  | none => rfl
  | some latest =>
      simp only [Option.map_some, ScheduledAction.mapTimes, hφ.totalLE_map, apply_ite (Option.map _)]

theorem track_positionAt_mapTimes (track : Track α) (s : Schedule α) (t : α) :
    track.positionAt (s.mapTimes φ) (φ t) = track.positionAt s t := by
  have hmapped : (s.mapTimes φ).actions = s.actions.map (·.mapTimes φ) := rfl
  have hentries := track.entries_of_map hmapped
  have htotal : (s.mapTimes φ).totalMs = φ s.totalMs := rfl
  simp only [Track.positionAt, hentries, htotal, List.isEmpty_map, hφ.any_startMs_mapTimes,
    hφ.any_endMs_mapTimes, hφ.find?_contains_mapTimes, hφ.lastEnded?_mapTimes, hφ.nonpos_iff,
    hφ.div_map]
  generalize track.entries s = actions
  cases actions.reverse.find? (·.contains t) with
  | some active => simp only [Option.map_some, hφ.action_positionAt_mapTimes]
  | none => cases lastEnded? actions t <;> rfl

theorem instant_mapTimes (transition : Transition α) (t : α) :
    (transition.mapTimes φ).instant (φ t) = φ (transition.instant t) := by
  have htotal : (transition.mapTimes φ).schedule.totalMs = φ transition.schedule.totalMs := rfl
  have hclamp := hφ.clamp_map 0 transition.schedule.totalMs t
  rw [hφ.map_zero] at hclamp
  simp only [Transition.instant, hφ.isNaN_eq, htotal, hclamp, apply_ite φ, hφ.map_zero]

theorem ownerAt_mapTimes (owner : Option ObjectId) (flip? : Option (Flip α)) (t : α) :
    ownerAt owner (flip?.map (·.mapTimes φ)).toList (φ t) = ownerAt owner flip?.toList t := by
  cases flip? with
  | none => rfl
  | some flip =>
      simp only [ownerAt, Option.map_some, Option.toList_some, List.foldl_cons, List.foldl_nil,
        Flip.mapTimes, hφ.le_iff]

/-- A frame does not show the unit of time. -/
theorem frameAt_mapTimes (transition : Transition α) (t : α) :
    (transition.mapTimes φ).frameAt (φ t) = transition.frameAt t := by
  have hposition : ∀ track : Track α,
      track.positionAt (transition.mapTimes φ).schedule (φ (transition.instant t)) =
        track.positionAt transition.schedule (transition.instant t) := fun track =>
    hφ.track_positionAt_mapTimes track transition.schedule _
  have howner := hφ.ownerAt_mapTimes transition.startOwner transition.flip? (transition.instant t)
  simp only [Transition.frameAt, hφ.instant_mapTimes, hposition]
  exact congrArg (Frame.mk _) howner

/-- Clocks in different units show the same frames, each of its own play. -/
theorem frame?_mapTimes {play play' : CompiledPlay α}
    (hplay : play'.transitions = play.transitions.map (·.mapTimes φ)) (c : Clock α) :
    (c.mapTimes φ).frame? play' = c.frame? play := by
  unfold Clock.frame?
  rw [hplay, List.getElem?_map, Option.map_map]
  exact congrArg (Option.map · _) (funext fun transition =>
    hφ.frameAt_mapTimes transition c.elapsedMs)

end IsUnitChange

end PlayDiagram
