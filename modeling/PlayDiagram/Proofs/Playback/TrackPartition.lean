import PlayDiagram.Proofs.Playback.LookBack
import PlayDiagram.Proofs.Playback.Tracks

/-!
# Tracks divide the actions

The tracks of a transition are those of the objects of either phase, and they share the actions of the
departing phase out: each action that somebody performs is in the track of its performer, once, and in no
other (`Document.compile_tracks_partition`).
-/

namespace PlayDiagram

variable {α : Type}

namespace Schedule

variable (s : Schedule α) (id : ObjectId)

/-- The actions of an object are listed in the order of the schedule, each once. -/
theorem performedBy_pairwise_lt : (s.performedBy id).Pairwise (· < ·) := by
  have hall : (s.actions.zipIdx.map Prod.snd).Pairwise (· < ·) := by
    rw [List.zipIdx_map_snd]
    exact List.pairwise_lt_range'
  exact hall.sublist (List.filter_sublist.map Prod.snd)

@[simp] theorem mem_performedBy {s : Schedule α} {id : ObjectId} {k : ℕ} :
    k ∈ s.performedBy id ↔ ∃ a, s.actions[k]? = some a ∧ a.performer = some id := by
  unfold performedBy
  rw [List.mem_map]
  constructor
  · rintro ⟨⟨a, k⟩, hmem, rfl⟩
    obtain ⟨hentry, hperformer⟩ := List.mem_filter.mp hmem
    exact ⟨a, List.mem_zipIdx_iff_getElem?.mp hentry, of_decide_eq_true hperformer⟩
  · rintro ⟨a, hentry, hperformer⟩
    refine ⟨(a, k), List.mem_filter.mpr ⟨?_, decide_eq_true hperformer⟩, rfl⟩
    exact List.mem_zipIdx_iff_getElem?.mpr hentry

theorem lt_length_of_mem_performedBy {s : Schedule α} {id : ObjectId} {k : ℕ}
    (hk : k ∈ s.performedBy id) : k < s.actions.length := by
  obtain ⟨a, ha, -⟩ := mem_performedBy.mp hk
  exact (List.getElem?_eq_some_iff.mp ha).1

end Schedule

section Tracks

variable {departing arriving : Phase α} {s : Schedule α}

theorem arrivingTracks_objects :
    (arrivingTracks departing arriving).map (·.object) =
      (arriving.objects.filter fun o => !departing.containsObject o.id).map (·.id) := by
  unfold arrivingTracks
  rw [List.map_map]
  rfl

/-- A track lists the actions of its object, if every performer is an object of the departing phase:
one that is not there performs nothing. -/
theorem track_actions_eq (hdeparting : departing.WellFormed)
    (hperformers : ∀ a ∈ s.actions, ∀ id, a.performer = some id → departing.containsObject id = true)
    {track : Track α} (htrack : track ∈ tracksBetween departing arriving s) :
    track.actions = s.performedBy track.object := by
  rw [tracksBetween_eq hdeparting, List.mem_append, List.mem_map] at htrack
  rcases htrack with ⟨o, -, rfl⟩ | harrives
  · rfl
  · obtain ⟨o, -, habsent, rfl⟩ := mem_arrivingTracks.mp harrives
    symm
    rw [List.eq_nil_iff_forall_not_mem]
    intro k hk
    obtain ⟨a, ha, hperformer⟩ := Schedule.mem_performedBy.mp hk
    have hthere := hperformers a (List.mem_of_getElem? ha) o.id hperformer
    rw [habsent] at hthere
    cases hthere

/-- An object that is not in the departing phase stands still. -/
theorem track_still {track : Track α} (hdeparting : departing.WellFormed)
    (htrack : track ∈ tracksBetween departing arriving s)
    (habsent : departing.containsObject track.object = false) :
    track.actions = [] ∧ track.departing = track.arriving := by
  rw [tracksBetween_eq hdeparting, List.mem_append, List.mem_map] at htrack
  rcases htrack with ⟨o, ho, rfl⟩ | harrives
  · have hthere : departing.containsObject o.id = true :=
      Phase.containsObject_iff.mpr (List.mem_map_of_mem ho)
    exact absurd (hthere.symm.trans habsent) Bool.noConfusion
  · obtain ⟨o, -, -, rfl⟩ := mem_arrivingTracks.mp harrives
    exact ⟨rfl, rfl⟩

end Tracks

/-- The performers of a schedule are objects of the phase. -/
theorem Phase.WellFormed.performer_of_entry [Scalar α] {p : Phase α} (hp : p.WellFormed)
    (tempo : Tempo α) :
    ∀ s ∈ (Schedule.ofActions tempo p.actions).actions, ∀ id,
      s.performer = some id → p.containsObject id = true := by
  intro s hs id hperformer
  obtain ⟨k, hk⟩ := List.mem_iff_getElem?.mp hs
  obtain ⟨a, ha, hdepicts⟩ := Schedule.exists_action_of_entry hk
  exact hp.performer_mem a (List.mem_of_getElem? ha) id (hdepicts.performer.symm.trans hperformer)

namespace Document

variable [Scalar α]

/-- The tracks of each transition of a sound play are those of the objects of the departing phase, and
then those of the objects that only the arriving phase has, in their orders and each object once.  A
track lists what its object performs, in order.  So every action that an object performs is in one track,
whether the arriving phase has the object or not, and objects that only arrive stand still. -/
theorem compile_tracks_partition {d : Document α} (hd : d.IsSound) (tempo : Tempo α) {i : ℕ}
    {t : Transition α} (ht : (d.compile tempo).transitions[i]? = some t) :
    ∃ departing arriving,
      d.phases[i]? = some departing ∧ d.phases[i + 1]? = some arriving ∧
      t.tracks.map (·.object) = departing.objects.map (·.id) ++
        (arriving.objects.filter fun o => !departing.containsObject o.id).map (·.id) ∧
      (t.tracks.map (·.object)).Nodup ∧
      (∀ track ∈ t.tracks,
        track.actions.Pairwise (· < ·) ∧
        (∀ k ∈ track.actions, k < t.schedule.actions.length) ∧
        ∀ k s, t.schedule.actions[k]? = some s →
          (k ∈ track.actions ↔ s.performer = some track.object)) ∧
      (∀ k a, departing.actions[k]? = some a → a.performer.isSome = true →
        ∃! track, track ∈ t.tracks ∧ k ∈ track.actions) ∧
      ∀ track ∈ t.tracks, departing.containsObject track.object = false →
        track.actions = [] ∧ track.departing = track.arriving := by
  obtain ⟨departing, arriving, hp, hq, rfl⟩ := exists_between_of_transition ht
  have hdeparting := hd.wellFormed hp
  have harriving := hd.wellFormed hq
  have hactions : ∀ track ∈ tracksBetween departing arriving
      (Schedule.ofActions tempo departing.actions),
      track.actions = (Schedule.ofActions tempo departing.actions).performedBy track.object :=
    fun track => track_actions_eq hdeparting (hdeparting.performer_of_entry tempo)
  have hnodup := tracksBetween_objects_nodup hdeparting harriving
    (s := Schedule.ofActions tempo departing.actions)
  refine ⟨departing, arriving, hp, hq, ?_, hnodup, ?_, ?_, fun track => track_still hdeparting⟩
  · rw [← arrivingTracks_objects]
    exact tracksBetween_objects hdeparting
  · intro track htrack
    rw [hactions track htrack]
    refine ⟨Schedule.performedBy_pairwise_lt _ _,
      fun _ => Schedule.lt_length_of_mem_performedBy, fun k s hs => ?_⟩
    rw [Schedule.mem_performedBy]
    constructor
    · rintro ⟨s', hs', hperformer⟩
      obtain rfl := Option.some.inj (hs.symm.trans hs')
      exact hperformer
    · exact fun hperformer => ⟨s, hs, hperformer⟩
  · intro k a ha hsome
    obtain ⟨id, hid⟩ := Option.isSome_iff_exists.mp hsome
    obtain ⟨s, hs, hdepicts⟩ := Schedule.exists_entry_of_action tempo ha
    have hperformer : s.performer = some id := hdepicts.performer.trans hid
    have hthere := hdeparting.performer_mem a (List.mem_of_getElem? ha) id hid
    obtain ⟨track, htrack, rfl⟩ :=
      List.mem_map.mp ((mem_tracksBetween_objects hdeparting).mpr (Or.inl hthere))
    refine ⟨track, ⟨htrack, ?_⟩, ?_⟩
    · rw [hactions track htrack]
      exact Schedule.mem_performedBy.mpr ⟨s, hs, hperformer⟩
    · -- Two tracks with the action have its performer as their object, and so are one.
      rintro other ⟨hother, hk⟩
      rw [hactions other hother, Schedule.mem_performedBy] at hk
      obtain ⟨s', hs', hperformer'⟩ := hk
      obtain rfl := Option.some.inj (hs.symm.trans hs')
      exact List.inj_on_of_nodup_map hnodup hother htrack
        (Option.some.inj (hperformer'.symm.trans hperformer))

/-- A player who cuts twice and is gone from the next phase, and one who is new there. -/
theorem compile_tracks_partition_leavingPlayer :
    let cut (name performer : String) : Action Float :=
      (Action.freehand ⟨name⟩ .cut ⟨500, 500⟩ ⟨600, 600⟩).performedBy ⟨performer⟩
    let player (name : String) : CourtObject Float := .new ⟨name⟩ .offensePlayer ⟨100, 100⟩
    let first : Phase Float :=
      { id := ⟨"p1"⟩, name := "Cuts", objects := [player "P1", player "gone"],
        actions := [cut "a1" "gone", cut "a2" "P1", cut "a3" "gone"], ballOwner := .inherit }
    let second : Phase Float :=
      { id := ⟨"p2"⟩, name := "End", objects := [player "new", player "P1"], actions := [],
        ballOwner := .inherit }
    let play : Document Float := .new .half [first, second]
    play.IsSound ∧
      ∃ t, (play.compile ⟨{}, SpeedPreset.double.speed⟩).transitions[0]? = some t ∧
        t.tracks.map (·.object) = [⟨"P1"⟩, ⟨"gone"⟩, ⟨"new"⟩] ∧
        t.tracks.map (·.actions) = [[1], [0, 2], []] ∧
        ∃! track, track ∈ t.tracks ∧ 2 ∈ track.actions := by
  intro cut player first second play
  have hsound : play.IsSound := by decide
  have ht : (play.compile ⟨{}, SpeedPreset.double.speed⟩).transitions[0]? = some _ := rfl
  obtain ⟨departing, arriving, hp, hq, hobjects, -, -, hunique, -⟩ :=
    compile_tracks_partition hsound ⟨{}, SpeedPreset.double.speed⟩ ht
  cases hp
  cases hq
  exact ⟨hsound, _, ht, hobjects, rfl, hunique 2 (cut "a3" "gone") rfl rfl⟩

end Document

end PlayDiagram
