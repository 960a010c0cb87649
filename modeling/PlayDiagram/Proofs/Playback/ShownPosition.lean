import PlayDiagram.Proofs.Playback.TrackPosition
import PlayDiagram.Proofs.Playback.Tracks

/-!
# What decides where an object is shown

Where a frame shows an object is decided by the records of that object in the two phases, by the
entries of its own actions in the schedule, and by the length of the schedule.  Two transitions that
agree in these show the object at the same place (`Transition.frameAt_position?_congr`), whatever
else they hold.
-/

namespace PlayDiagram

variable {α : Type}

/-- The track of an object that is in either phase. -/
def trackOf? (departing arriving : Phase α) (s : Schedule α) (id : ObjectId) : Option (Track α) :=
  match departing.object? id with
  | some o => some (departingTrack arriving s o)
  | none => (arriving.object? id).map fun o => ⟨o.id, o.position, o.position, []⟩

/-- An object ends where the next phase records it, or else where its last entry takes it. -/
theorem departingTrack_arriving_congr {arriving arriving' : Phase α} {s s' : Schedule α}
    {o : CourtObject α} (hthere : arriving'.object? o.id = arriving.object? o.id)
    (hentries : s'.entriesOf o.id = s.entriesOf o.id) :
    (departingTrack arriving' s' o).arriving = (departingTrack arriving s o).arriving := by
  simp only [departingTrack, arrivalOf, Schedule.getLast?_performedBy, hthere, hentries]

theorem departingTrack_entries (arriving : Phase α) (s : Schedule α) (o : CourtObject α) :
    (departingTrack arriving s o).entries s = s.entriesOf o.id :=
  Track.entries_eq_entriesOf rfl

variable [Scalar α]

/-- Nothing but the ends of the track, its entries and the length of the schedule is looked at. -/
theorem Track.positionAt_congr {track track' : Track α} {s s' : Schedule α}
    (hdeparting : track'.departing = track.departing) (harriving : track'.arriving = track.arriving)
    (hentries : track'.entries s' = track.entries s) (htotal : s'.totalMs = s.totalMs) (t : α) :
    track'.positionAt s' t = track.positionAt s t := by
  simp only [positionAt, hdeparting, harriving, hentries, htotal]

section Frames

variable {tempo tempo' : Tempo α} {departing arriving departing' arriving' : Phase α}
  {index index' : ℕ} {owner owner' : Option ObjectId} {transition transition' : Transition α}
  (hdeparting : departing.WellFormed) (harriving : arriving.WellFormed)
  (htransition : transition = Transition.between tempo index departing arriving owner)

include hdeparting harriving htransition

/-- A frame shows the objects of either phase where their tracks lead. -/
theorem Transition.frameAt_position?_eq (t : α) (id : ObjectId) :
    (transition.frameAt t).position? id =
      (trackOf? departing arriving transition.schedule id).map
        (·.positionAt transition.schedule (transition.instant t)) := by
  unfold trackOf?
  cases hhere : departing.object? id with
  | some o =>
      obtain ⟨ho, rfl⟩ := hdeparting.object?_eq_some_iff.mp hhere
      exact Transition.frameAt_position?_departing hdeparting harriving htransition t ho
  | none =>
      have habsent := Phase.containsObject_eq_false_iff.mpr hhere
      cases hthere : arriving.object? id with
      | some o =>
          obtain ⟨ho, rfl⟩ := harriving.object?_eq_some_iff.mp hthere
          exact Transition.frameAt_position?_arriving hdeparting harriving htransition t ho habsent
      | none =>
          apply lookup_eq_none_of_notMem
          rw [Transition.mem_keys_frameAt hdeparting htransition, habsent,
            Phase.containsObject_eq_false_iff.mpr hthere]
          simp

/-- Transitions that agree in the records of an object, in its entries and in their length show it at
the same place. -/
theorem Transition.frameAt_position?_congr (hdeparting' : departing'.WellFormed)
    (harriving' : arriving'.WellFormed)
    (htransition' : transition' = Transition.between tempo' index' departing' arriving' owner')
    {id : ObjectId} (hhere : departing'.object? id = departing.object? id)
    (hthere : arriving'.object? id = arriving.object? id)
    (hentries : transition'.schedule.entriesOf id = transition.schedule.entriesOf id)
    (htotal : transition'.schedule.totalMs = transition.schedule.totalMs) (t : α) :
    (transition'.frameAt t).position? id = (transition.frameAt t).position? id := by
  have hinstant : transition'.instant t = transition.instant t := by
    simp only [instant, htotal]
  rw [frameAt_position?_eq hdeparting harriving htransition,
    frameAt_position?_eq hdeparting' harriving' htransition', hinstant]
  unfold trackOf?
  rw [hhere, hthere]
  cases hfound : departing.object? id with
  | none =>
      cases arriving.object? id with
      | none => rfl
      | some o =>
          simp only [Option.map_some, Option.some.injEq]
          refine Track.positionAt_congr ?_ ?_ ?_ htotal _ <;> rfl
  | some o =>
      obtain ⟨-, rfl⟩ := hdeparting.object?_eq_some_iff.mp hfound
      simp only [Option.map_some, Option.some.injEq]
      refine Track.positionAt_congr ?_ ?_ ?_ htotal _
      · rfl
      · exact departingTrack_arriving_congr hthere hentries
      · rw [departingTrack_entries, departingTrack_entries, hentries]

end Frames

end PlayDiagram
