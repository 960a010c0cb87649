import PlayDiagram.Proofs.Play.Soundness
import PlayDiagram.Proofs.Playback.FrameOrder

/-!
# Tracks and frames

Between well-formed phases there is one track for each object of either phase.  A frame shows these
objects, and each of them where its track leads (`Transition.frameAt_position?`).
-/

namespace PlayDiagram

variable {α : Type}

/-- The track of an object of the departing phase. -/
def departingTrack (arriving : Phase α) (s : Schedule α) (o : CourtObject α) : Track α :=
  { object := o.id
    departing := o.position
    arriving := arrivalOf arriving s o (s.performedBy o.id)
    actions := s.performedBy o.id }

theorem departingTrack_arriving_of_there {arriving : Phase α} (s : Schedule α)
    {o there : CourtObject α} (hthere : arriving.object? o.id = some there) :
    (departingTrack arriving s o).arriving = there.position := by
  simp only [departingTrack, arrivalOf, hthere]

variable {departing arriving : Phase α} {s : Schedule α}

/-- Among objects of different names each performs its own actions. -/
theorem departingTracks_eq_map {objects : List (CourtObject α)} {seen : List ObjectId}
    (hnodup : (objects.map (·.id)).Nodup) (hseen : ∀ o ∈ objects, o.id ∉ seen) :
    departingTracks arriving s seen objects = objects.map (departingTrack arriving s) := by
  induction objects generalizing seen with
  | nil => rfl
  | cons o rest ih =>
      have hrest := List.nodup_cons.mp hnodup
      have hfirst : o.id ∉ seen := hseen o List.mem_cons_self
      have htail : ∀ o' ∈ rest, o'.id ∉ o.id :: seen := by
        intro o' ho'
        rw [List.mem_cons, not_or]
        constructor
        · intro heq
          exact hrest.1 (List.mem_map.mpr ⟨o', ho', heq⟩)
        · exact hseen o' (List.mem_cons_of_mem o ho')
      rw [departingTracks, List.map_cons, ih hrest.2 htail, if_neg hfirst]
      rfl

theorem mem_arrivingTracks {track : Track α} :
    track ∈ arrivingTracks departing arriving ↔
      ∃ o ∈ arriving.objects, departing.containsObject o.id = false ∧
        track = ⟨o.id, o.position, o.position, []⟩ := by
  unfold arrivingTracks
  rw [List.mem_map]
  constructor
  · rintro ⟨o, ho, rfl⟩
    obtain ⟨hmem, habsent⟩ := List.mem_filter.mp ho
    exact ⟨o, hmem, by simpa using habsent, rfl⟩
  · rintro ⟨o, hmem, habsent, rfl⟩
    exact ⟨o, List.mem_filter.mpr ⟨hmem, by simpa using habsent⟩, rfl⟩

theorem departingTracks_actions {seen : List ObjectId} {objects : List (CourtObject α)}
    {track : Track α} (htrack : track ∈ departingTracks arriving s seen objects) :
    track.actions = [] ∨ track.actions = s.performedBy track.object := by
  induction objects generalizing seen with
  | nil => cases htrack
  | cons o rest ih =>
      rcases List.mem_cons.mp htrack with rfl | htrack
      · by_cases hseen : o.id ∈ seen
        · exact Or.inl (if_pos hseen)
        · exact Or.inr (if_neg hseen)
      · exact ih htrack

/-- Whatever the document, a track follows all entries of its object or none. -/
theorem tracksBetween_actions {track : Track α}
    (htrack : track ∈ tracksBetween departing arriving s) :
    track.actions = [] ∨ track.actions = s.performedBy track.object := by
  rcases List.mem_append.mp htrack with htrack | htrack
  · exact departingTracks_actions htrack
  · obtain ⟨o, -, -, rfl⟩ := mem_arrivingTracks.mp htrack
    exact Or.inl rfl

theorem tracksBetween_eq (hdeparting : departing.WellFormed) :
    tracksBetween departing arriving s =
      departing.objects.map (departingTrack arriving s) ++ arrivingTracks departing arriving := by
  unfold tracksBetween
  rw [departingTracks_eq_map hdeparting.objects_nodup]
  intro o _
  exact List.not_mem_nil

theorem mem_arrivingTracks_objects {id : ObjectId} :
    id ∈ (arrivingTracks departing arriving).map (·.object) ↔
      departing.containsObject id = false ∧ arriving.containsObject id = true := by
  rw [Phase.containsObject_iff, List.mem_map, List.mem_map]
  constructor
  · rintro ⟨track, htrack, rfl⟩
    obtain ⟨o, ho, hdeparting, rfl⟩ := mem_arrivingTracks.mp htrack
    exact ⟨hdeparting, o, ho, rfl⟩
  · rintro ⟨hdeparting, o, ho, rfl⟩
    exact ⟨_, mem_arrivingTracks.mpr ⟨o, ho, hdeparting, rfl⟩, rfl⟩

theorem tracksBetween_objects (hdeparting : departing.WellFormed) :
    (tracksBetween departing arriving s).map (·.object) =
      departing.objects.map (·.id) ++ (arrivingTracks departing arriving).map (·.object) := by
  rw [tracksBetween_eq hdeparting, List.map_append, List.map_map]
  rfl

/-- The tracks are those of the objects of either phase. -/
theorem mem_tracksBetween_objects (hdeparting : departing.WellFormed) {id : ObjectId} :
    id ∈ (tracksBetween departing arriving s).map (·.object) ↔
      departing.containsObject id = true ∨ arriving.containsObject id = true := by
  rw [tracksBetween_objects hdeparting, List.mem_append, mem_arrivingTracks_objects,
    ← Phase.containsObject_iff]
  cases departing.containsObject id <;> simp

theorem tracksBetween_objects_nodup (hdeparting : departing.WellFormed)
    (harriving : arriving.WellFormed) :
    ((tracksBetween departing arriving s).map (·.object)).Nodup := by
  rw [tracksBetween_objects hdeparting]
  refine List.nodup_append.mpr ⟨hdeparting.objects_nodup, ?_, ?_⟩
  · unfold arrivingTracks
    rw [List.map_map]
    exact harriving.objects_nodup.sublist (List.filter_sublist.map _)
  · intro id hid id' hid'
    have habsent := (mem_arrivingTracks_objects.mp hid').1
    rintro rfl
    rw [Phase.containsObject_iff.mpr hid] at habsent
    cases habsent

variable [Scalar α]

theorem Transition.frameAt_keys (transition : Transition α) (t : α) :
    ((transition.tracks.map fun track =>
        (track.object, track.positionAt transition.schedule (transition.instant t))).map Prod.fst) =
      transition.tracks.map (·.object) := by
  rw [List.map_map]
  rfl

section Frames

variable {tempo : Tempo α} {departing arriving : Phase α} {index : ℕ} {owner : Option ObjectId}
  {transition : Transition α} (hdeparting : departing.WellFormed) (harriving : arriving.WellFormed)
  (htransition : transition = Transition.between tempo index departing arriving owner) (t : α)

include htransition

theorem Transition.schedule_eq :
    transition.schedule = Schedule.ofActions tempo departing.actions := by
  rw [htransition]
  rfl

theorem Transition.flip?_eq :
    transition.flip? = (Schedule.ofActions tempo departing.actions).flip? := by
  rw [htransition]
  rfl

include hdeparting

theorem Transition.tracks_eq :
    transition.tracks =
      departing.objects.map
          (departingTrack arriving (Schedule.ofActions tempo departing.actions)) ++
        arrivingTracks departing arriving := by
  rw [htransition]
  exact tracksBetween_eq hdeparting

/-- A frame shows the objects of either phase. -/
theorem Transition.mem_keys_frameAt (id : ObjectId) :
    id ∈ (transition.frameAt t).positions.map Prod.fst ↔
      departing.containsObject id = true ∨ arriving.containsObject id = true := by
  unfold Transition.frameAt
  rw [mem_keys_orderByObject, Transition.frameAt_keys, htransition]
  exact mem_tracksBetween_objects hdeparting

include harriving

/-- A frame shows an object where its track leads. -/
theorem Transition.frameAt_position? {track : Track α} (htrack : track ∈ transition.tracks) :
    (transition.frameAt t).position? track.object =
      some (track.positionAt transition.schedule (transition.instant t)) := by
  have hnodup : (transition.tracks.map (·.object)).Nodup := by
    rw [htransition]
    exact tracksBetween_objects_nodup hdeparting harriving
  rw [← Transition.frameAt_keys transition t] at hnodup
  unfold Frame.position? Transition.frameAt
  rw [lookup_orderByObject hnodup]
  exact lookup_eq_some_of_mem hnodup (List.mem_map.mpr ⟨track, htrack, rfl⟩)

theorem Transition.frameAt_position?_departing {o : CourtObject α} (ho : o ∈ departing.objects) :
    (transition.frameAt t).position? o.id =
      some ((departingTrack arriving transition.schedule o).positionAt transition.schedule
        (transition.instant t)) := by
  have hschedule := Transition.schedule_eq htransition
  have htrack : departingTrack arriving transition.schedule o ∈ transition.tracks := by
    rw [Transition.tracks_eq hdeparting htransition, hschedule]
    exact List.mem_append_left _ (List.mem_map_of_mem ho)
  exact Transition.frameAt_position? hdeparting harriving htransition t htrack

theorem Transition.frameAt_position?_arriving {o : CourtObject α} (ho : o ∈ arriving.objects)
    (habsent : departing.containsObject o.id = false) :
    (transition.frameAt t).position? o.id =
      some (Track.positionAt ⟨o.id, o.position, o.position, []⟩ transition.schedule
        (transition.instant t)) := by
  have htrack : ⟨o.id, o.position, o.position, []⟩ ∈ transition.tracks := by
    rw [Transition.tracks_eq hdeparting htransition]
    exact List.mem_append_right _ (mem_arrivingTracks.mpr ⟨o, ho, habsent, rfl⟩)
  exact Transition.frameAt_position? hdeparting harriving htransition t htrack

end Frames

end PlayDiagram
