import PlayDiagram.Proofs.Playback.BallCarriers
import PlayDiagram.Proofs.Playback.RestingPlace
import PlayDiagram.Proofs.Playback.Seams

/-!
# Going on after the last phase

The phase that is added after the last one records what the transition to it leads to: an object that
performs actions is brought to the end of the last one listed, every other object stands still, and the
new phase starts with the ball where the transition leaves it (`Transition.Carries`).  The rest of the
play is compiled as before (`compile_appendPhase`).
-/

namespace PlayDiagram

open ExtendedRat (finite)

/-- The way from a point to itself leads nowhere. -/
theorem Point.IsExact.lerp_self {p : Point ExtendedRat} (hp : p.IsExact) (t : ExtendedRat) :
    p.lerp p t = p := by
  obtain ⟨x, y, rfl⟩ := hp
  unfold lerp
  cases t with
  | nan | negInf => exact if_pos (by decide)
  | posInf => exact (if_neg (by decide)).trans (if_pos (by decide))
  | finite t =>
      have hstays (x : ℚ) : finite x + (finite x - finite x) * finite t = finite x := by
        show finite (x + (x + -x) * t) = finite x
        rw [add_neg_cancel, zero_mul, add_zero]
      rw [hstays, hstays, ite_self, ite_self]

section Frames

variable {α : Type}

/-- The frame shows the objects of the phase in their places, and nothing else. -/
def Frame.Shows (f : Frame α) (p : Phase α) : Prop :=
  ∀ id q, f.position? id = some q ↔ ∃ o ∈ p.objects, o.id = id ∧ o.position = q

theorem Frame.shows_of_keys {f : Frame α} {p : Phase α}
    (hkeys : ∀ id, id ∈ f.positions.map Prod.fst ↔ p.containsObject id = true)
    (hplaces : ∀ o ∈ p.objects, f.position? o.id = some o.position) : f.Shows p := by
  intro id q
  constructor
  · intro hq
    have hid := (hkeys id).mp (mem_keys_of_lookup hq)
    obtain ⟨o, ho, rfl⟩ := List.mem_map.mp (Phase.containsObject_iff.mp hid)
    rw [hplaces o ho] at hq
    exact ⟨o, ho, rfl, Option.some.inj hq⟩
  · rintro ⟨o, ho, rfl, rfl⟩
    exact hplaces o ho

end Frames

/-! ## The phase that follows -/

namespace Phase

variable {α : Type} {p : Phase α} {id : ObjectId}

/-- The object performs no action of the phase. -/
def IsIdle (p : Phase α) (id : ObjectId) : Prop :=
  ∀ a ∈ p.actions, a.performer ≠ some id

theorem isIdle_of_actions_eq_nil (hactions : p.actions = []) (id : ObjectId) : p.IsIdle id := by
  intro a ha
  rw [hactions] at ha
  cases ha

theorem lastActionOf?_eq_none_iff : p.lastActionOf? id = none ↔ p.IsIdle id := by
  unfold lastActionOf? IsIdle
  rw [List.find?_eq_none]
  simp only [List.mem_reverse, decide_eq_true_iff]

theorem exists_isLast_of_not_isIdle (hbusy : ¬p.IsIdle id) :
    ∃ k a, IsLast p.actions (fun a => a.performer = some id) k a := by
  rw [← lastActionOf?_eq_none_iff, ← Ne, Option.ne_none_iff_exists'] at hbusy
  obtain ⟨a, ha⟩ := hbusy
  obtain ⟨k, hk⟩ := lastActionOf?_eq_some_iff.mp ha
  exact ⟨k, a, hk⟩

variable [Scalar α]

theorem IsIdle.entriesOf (hidle : p.IsIdle id) (tempo : Tempo α) :
    (Schedule.ofActions tempo p.actions).entriesOf id = [] := by
  rw [List.eq_nil_iff_forall_not_mem]
  intro s hs
  obtain ⟨k, hk, hperformer⟩ := Schedule.mem_entriesOf.mp hs
  obtain ⟨a, ha, hdepicts⟩ := Schedule.exists_action_of_entry hk
  exact hidle a (List.mem_of_getElem? ha) (hdepicts.performer.symm.trans hperformer)

theorem nextPosition_of_isIdle {o : CourtObject α} (hidle : p.IsIdle o.id) :
    p.nextPosition o = o.position := by
  rw [nextPosition, lastActionOf?_eq_none_iff.mpr hidle]

theorem nextPosition_of_isLast {o : CourtObject α} {k : ℕ} {a : Action α}
    (hlast : IsLast p.actions (fun a => a.performer = some o.id) k a) :
    p.nextPosition o = a.target.clamped := by
  rw [nextPosition, lastActionOf?_eq_some_iff.mpr ⟨k, hlast⟩]

@[simp] theorem nextSnapshot_containsObject (p : Phase α) (next : PhaseId) (name : String)
    (id : ObjectId) :
    (p.nextSnapshot next name).containsObject id = p.containsObject id := by
  rw [Bool.eq_iff_iff, containsObject_iff, containsObject_iff, nextSnapshot_ids]

end Phase

/-- Nobody appears on the way to the phase that follows. -/
theorem tracksBetween_nextSnapshot_objects {α : Type} [Scalar α] {p : Phase α} (hp : p.WellFormed)
    (next : PhaseId) (name : String) (s : Schedule α) :
    (tracksBetween p (p.nextSnapshot next name) s).map (·.object) = p.objects.map (·.id) := by
  have hnobody : (arrivingTracks p (p.nextSnapshot next name)).map (·.object) = [] := by
    rw [List.eq_nil_iff_forall_not_mem]
    intro id hid
    obtain ⟨habsent, hpresent⟩ := mem_arrivingTracks_objects.mp hid
    rw [Phase.nextSnapshot_containsObject, habsent] at hpresent
    cases hpresent
  rw [tracksBetween_objects hp, hnobody, List.append_nil]

/-! ## The way to it -/

/-- The transition leads from the one phase to the other: it shows the objects of the first all the
time, moves only those that perform an action, and ends in the places and with the ball owner of the
second. -/
structure Transition.Carries (transition : Transition ExtendedRat) (p next : Phase ExtendedRat)
    (owner : Option ObjectId) : Prop where
  tracks : transition.tracks.map (·.object) = p.objects.map (·.id)
  keys : ∀ t id, id ∈ (transition.frameAt t).positions.map Prod.fst ↔ p.containsObject id = true
  idle : ∀ o ∈ p.objects, p.IsIdle o.id → ∀ t,
    (transition.frameAt t).position? o.id = some o.position
  busy : ∀ o ∈ p.objects, ¬p.IsIdle o.id →
    ∃ k a, IsLast p.actions (fun a => a.performer = some o.id) k a ∧
      ∀ t, transition.schedule.totalMs ≤ t →
        (transition.frameAt t).position? o.id = some a.target.clamped
  ends : ∀ t, transition.schedule.totalMs ≤ t →
    (transition.frameAt t).Shows next ∧ (transition.frameAt t).ballOwner = owner

theorem Track.positionAt_of_motionless {track : Track ExtendedRat} {s : Schedule ExtendedRat}
    (hidle : track.entries s = []) (hsame : track.arriving = track.departing)
    (hplace : s.totalMs ≤ 0 ∨ track.departing.IsExact) (t : ExtendedRat) :
    track.positionAt s t = track.departing := by
  simp only [Track.positionAt, hidle, List.isEmpty_nil, if_true, hsame]
  by_cases hdwell : s.totalMs ≤ 0
  · exact if_pos hdwell
  · rw [if_neg hdwell]
    exact (hplace.resolve_left hdwell).lerp_self _

section Next

variable {p : Phase ExtendedRat} (hp : p.WellFormed) (tempo : Tempo ExtendedRat) (index : ℕ)
  (next : PhaseId) (name : String) (owner : Option ObjectId)

include hp

theorem Transition.frameAt_next_idle
    (hplace : p.actions = [] ∨ ∀ o ∈ p.objects, o.position.IsExact) {o : CourtObject ExtendedRat}
    (ho : o ∈ p.objects) (hidle : p.IsIdle o.id) (t : ExtendedRat) :
    ((Transition.between tempo index p (p.nextSnapshot next name) owner).frameAt t).position? o.id =
      some o.position := by
  rw [Transition.frameAt_position?_departing hp (Document.nextSnapshot_wellFormed hp next name) rfl t
    ho]
  congr 1
  apply Track.positionAt_of_motionless
  · exact (Track.entries_eq_entriesOf rfl).trans (hidle.entriesOf tempo)
  · rw [departingTrack_arriving_of_there _ (hp.nextSnapshot_object? ho next name)]
    exact Phase.nextPosition_of_isIdle hidle
  · rcases hplace with hactions | hexact
    · left
      show (Schedule.ofActions tempo p.actions).totalMs ≤ 0
      rw [hactions]
      exact ExtendedRat.finite_le_finite.mpr le_rfl
    · exact Or.inr (hexact o ho)

theorem Transition.mem_keys_frameAt_next (t : ExtendedRat) (id : ObjectId) :
    id ∈ ((Transition.between tempo index p (p.nextSnapshot next name) owner).frameAt
        t).positions.map Prod.fst ↔ p.containsObject id = true := by
  rw [Transition.mem_keys_frameAt hp rfl t id, Phase.nextSnapshot_containsObject, or_self]

/-- From its end on, every object is where the phase that follows records it. -/
theorem Transition.frameAt_next_end (hfloor : 1 ≤ tempo.config.floorMs)
    (hplace : p.actions = [] ∨ ∀ o ∈ p.objects, o.position.IsExact) {t : ExtendedRat}
    (ht : (Schedule.ofActions tempo p.actions).totalMs ≤ t) :
    (∀ o ∈ p.objects, ((Transition.between tempo index p (p.nextSnapshot next name) owner).frameAt
        t).position? o.id = some (p.nextPosition o)) ∧
      ((Transition.between tempo index p (p.nextSnapshot next name) owner).frameAt t).ballOwner =
        p.handOver?.or owner := by
  rw [← Transition.between_endOwner tempo index p (p.nextSnapshot next name) owner]
  by_cases hactions : p.actions = []
  · -- The transition is a dwell, which has no end that differs from its start.
    have hidle := Phase.isIdle_of_actions_eq_nil hactions
    have hflip : (Schedule.ofActions tempo p.actions).flip? = none := by
      rw [hactions]
      rfl
    constructor
    · intro o ho
      rw [Transition.frameAt_next_idle hp tempo index next name owner hplace ho (hidle o.id) t,
        Phase.nextPosition_of_isIdle (hidle o.id)]
    · simp only [Transition.frameAt, Transition.endOwner, Transition.between, hflip]
      rfl
  · obtain ⟨totalMs, hs, hpos⟩ := Schedule.ofActions_spans hfloor p.actions
    have hspans : (Transition.between tempo index p (p.nextSnapshot next name) owner).schedule.Spans
        totalMs := hs
    obtain ⟨hshown, hball⟩ := Transition.frameAt_of_end hspans hp
      (Document.nextSnapshot_wellFormed hp next name) rfl (hpos hactions) ht
    refine ⟨fun o ho => ?_, hball⟩
    apply hshown { o with position := p.nextPosition o }
    rw [Phase.nextSnapshot_objects]
    exact List.mem_map_of_mem ho

theorem Transition.carries_next (hfloor : 1 ≤ tempo.config.floorMs)
    (hplace : p.actions = [] ∨ ∀ o ∈ p.objects, o.position.IsExact) :
    (Transition.between tempo index p (p.nextSnapshot next name) owner).Carries p
      (p.nextSnapshot next name) (p.handOver?.or owner) := by
  refine ⟨tracksBetween_nextSnapshot_objects hp next name _,
    Transition.mem_keys_frameAt_next hp tempo index next name owner,
    fun o => Transition.frameAt_next_idle hp tempo index next name owner hplace, ?_, ?_⟩
  · intro o ho hbusy
    obtain ⟨k, a, hlast⟩ := Phase.exists_isLast_of_not_isIdle hbusy
    refine ⟨k, a, hlast, fun t ht => ?_⟩
    obtain ⟨hplaces, -⟩ :=
      Transition.frameAt_next_end hp tempo index next name owner hfloor hplace ht
    rw [hplaces o ho, Phase.nextPosition_of_isLast hlast]
  · intro t ht
    obtain ⟨hplaces, hball⟩ :=
      Transition.frameAt_next_end hp tempo index next name owner hfloor hplace ht
    refine ⟨Frame.shows_of_keys ?_ ?_, hball⟩
    · intro id
      rw [Phase.nextSnapshot_containsObject]
      exact Transition.mem_keys_frameAt_next hp tempo index next name owner t id
    · rw [Phase.nextSnapshot_objects]
      intro o' ho'
      obtain ⟨o, ho, rfl⟩ := List.mem_map.mp ho'
      exact hplaces o ho

end Next

/-- A transition that carries a phase without actions into the next dwells on it. -/
theorem Transition.Carries.shows_of_actions_eq_nil {transition : Transition ExtendedRat}
    {p next : Phase ExtendedRat} {owner : Option ObjectId}
    (h : transition.Carries p next owner) (hactions : p.actions = []) (t : ExtendedRat) :
    (transition.frameAt t).Shows p := by
  apply Frame.shows_of_keys (h.keys t)
  intro o ho
  exact h.idle o ho (Phase.isIdle_of_actions_eq_nil hactions o.id) t

namespace Document

variable {d : Document ExtendedRat} {id : PhaseId}

theorem appendPhase_phases {α : Type} [Scalar α] {d : Document α} {last : Phase α}
    (hlast : d.phases.getLast? = some last) (id : PhaseId) :
    ∃ name, (d.appendPhase id).phases = d.phases ++ [last.nextSnapshot id name] := by
  refine ⟨s!"Phase {d.phases.length + 1}", ?_⟩
  simp only [appendPhase, hlast]

/-- The phase that is added is compiled to one more transition, which carries the last phase into
it. -/
theorem compile_appendPhase_step (hd : d.IsSound) {last : Phase ExtendedRat}
    (hlast : d.phases.getLast? = some last)
    (hplace : last.actions = [] ∨ ∀ o ∈ last.objects, o.position.IsExact) (id : PhaseId)
    {tempo : Tempo ExtendedRat} (hfloor : 1 ≤ tempo.config.floorMs) :
    ∃ next transition start,
      (d.appendPhase id).phases = d.phases ++ [next] ∧ next.actions = [] ∧
      next.objects.map (·.id) = last.objects.map (·.id) ∧
      (d.compile tempo).startOwners.getLast? = some start ∧
      ((d.appendPhase id).compile tempo).transitions =
        (d.compile tempo).transitions ++ [transition] ∧
      ((d.appendPhase id).compile tempo).startOwners =
        (d.compile tempo).startOwners ++ [last.handOver?.or start] ∧
      transition = Transition.between tempo (d.phases.length - 1) last next start ∧
      transition.Carries last next (last.handOver?.or start) := by
  obtain ⟨name, hphases⟩ := appendPhase_phases hlast id
  obtain ⟨start, hstart, htransitions, howners⟩ := compile_concat tempo hlast hphases
  have hwell : last.WellFormed := ((isSound_iff d).mp hd).2.2 last (List.mem_of_getLast? hlast)
  have hinherits : (last.nextSnapshot id name).startOwner d.phases.length (last.handOver?.or start) =
      last.handOver?.or start := by
    have hphase : d.phases.length ≠ 0 := by
      rw [Ne, List.length_eq_zero_iff]
      exact ((isSound_iff d).mp hd).1
    exact if_neg hphase
  rw [hinherits] at howners
  exact ⟨_, _, start, hphases, rfl, last.nextSnapshot_ids id name, hstart, htransitions, howners, rfl,
    Transition.carries_next hwell tempo _ id name start hfloor hplace⟩

/-- Adding the phase that follows the last one goes on with the play.  All is compiled as before, and
one transition is added, which carries the last phase into the new one.  Adding another phase then adds
a transition that takes no time, in which nothing moves and the ball stays where it is. -/
theorem compile_appendPhase (hd : d.IsSound)
    (hplaces : ∀ p ∈ d.phases, ∀ o ∈ p.objects, o.position.IsExact)
    (hfresh : id ∉ d.phases.map (·.id)) {tempo : Tempo ExtendedRat}
    (hfloor : 1 ≤ tempo.config.floorMs) :
    (d.appendPhase id).IsSound ∧
    ∃ last next transition owner,
      d.phases.getLast? = some last ∧
      (d.appendPhase id).phases = d.phases ++ [next] ∧
      next.objects.map (·.id) = last.objects.map (·.id) ∧
      ((d.appendPhase id).compile tempo).transitions =
        (d.compile tempo).transitions ++ [transition] ∧
      ((d.appendPhase id).compile tempo).startOwners = (d.compile tempo).startOwners ++ [owner] ∧
      transition.Carries last next owner ∧
      ∀ again, again ∉ (d.appendPhase id).phases.map (·.id) →
        ((d.appendPhase id).appendPhase again).IsSound ∧
        ∃ dwell,
          (((d.appendPhase id).appendPhase again).compile tempo).transitions =
            ((d.appendPhase id).compile tempo).transitions ++ [dwell] ∧
          (((d.appendPhase id).appendPhase again).compile tempo).startOwners =
            ((d.appendPhase id).compile tempo).startOwners ++ [owner] ∧
          dwell.schedule.totalMs = 0 ∧
          ∀ t, (dwell.frameAt t).Shows next ∧ (dwell.frameAt t).ballOwner = owner := by
  have hnext : (d.appendPhase id).IsSound := hd.appendPhase hfresh
  obtain ⟨last, hlast⟩ : ∃ last, d.phases.getLast? = some last :=
    Option.isSome_iff_exists.mp (List.getLast?_isSome.mpr ((isSound_iff d).mp hd).1)
  obtain ⟨next, transition, start, hphases, hactions, hids, -, htransitions, howners, -, hcarries⟩ :=
    compile_appendPhase_step hd hlast (Or.inr (hplaces last (List.mem_of_getLast? hlast))) id hfloor
  refine ⟨hnext, last, next, transition, last.handOver?.or start, hlast, hphases, hids, htransitions,
    howners, hcarries, fun again hagain => ⟨hnext.appendPhase hagain, ?_⟩⟩
  have hlast' : (d.appendPhase id).phases.getLast? = some next := by
    rw [hphases, List.getLast?_concat]
  -- In the added phase nobody moves, so that its places need not be known to be numbers.
  obtain ⟨after, dwell, start', -, -, -, hstart', htransitions', howners', hdwell, hcarries'⟩ :=
    compile_appendPhase_step hnext hlast' (Or.inl hactions) again hfloor
  rw [howners, List.getLast?_concat] at hstart'
  obtain rfl := Option.some.inj hstart'
  have hnobody : next.handOver? = none := by
    rw [Phase.handOver?, hactions]
    rfl
  rw [hnobody, Option.none_or] at howners'
  refine ⟨dwell, htransitions', howners', ?_, fun t => ⟨?_, ?_⟩⟩
  · rw [hdwell]
    simp only [Transition.between, hactions]
    rfl
  · exact hcarries'.shows_of_actions_eq_nil hactions t
  · rcases dwell.ballOwner_cases t with hball | hball
    · rw [hball, hdwell]
      rfl
    · rw [hball, hdwell, Transition.between_endOwner, hnobody, Option.none_or]

/-- A player without the ball cuts off the court while it is passed to the other one, and a cone
stands by. -/
theorem compile_appendPhase_pass :
    let player (name : String) (position : Point ExtendedRat) : CourtObject ExtendedRat :=
      .new ⟨name⟩ .offensePlayer position
    let pass : Action ExtendedRat :=
      ((Action.freehand ⟨"a1"⟩ .pass ⟨0, 0⟩ ⟨finite 80, 0⟩).performedBy ⟨"o1"⟩).receivedBy ⟨"o2"⟩
    let cut : Action ExtendedRat :=
      ((Action.freehand ⟨"a2"⟩ .cut ⟨finite 80, 0⟩ ⟨finite 1200, finite 30⟩).performedBy
        ⟨"o2"⟩).triggered .withPrevious
    let cone : CourtObject ExtendedRat := .new ⟨"c1"⟩ .cone ⟨finite 40, finite 40⟩
    let p : Phase ExtendedRat :=
      { id := ⟨"p1"⟩, name := "Pass", actions := [pass, cut], ballOwner := .inherit
        objects := [player "o1" ⟨0, 0⟩, player "o2" ⟨finite 80, 0⟩, cone] }
    let play : Document ExtendedRat := .new .half [p]
    let tempo : Tempo ExtendedRat := ⟨{}, finite 2, rfl, by decide⟩
    play.IsSound ∧ (∀ p ∈ play.phases, ∀ o ∈ p.objects, o.position.IsExact) ∧
      ⟨"p2"⟩ ∉ play.phases.map (·.id) ∧ 1 ≤ tempo.config.floorMs ∧
      (play.appendPhase ⟨"p2"⟩).IsSound ∧
      ∃ next transition owner,
        (play.appendPhase ⟨"p2"⟩).phases = [p, next] ∧
        ((play.appendPhase ⟨"p2"⟩).compile tempo).transitions = [transition] ∧
        (transition.frameAt .posInf).position? ⟨"o2"⟩ = some ⟨finite 1000, finite 30⟩ ∧
        (∀ t, (transition.frameAt t).position? ⟨"c1"⟩ = some ⟨finite 40, finite 40⟩) ∧
        (transition.frameAt .posInf).Shows next ∧
        (transition.frameAt .posInf).ballOwner = owner ∧
        ∃ dwell,
          (((play.appendPhase ⟨"p2"⟩).appendPhase ⟨"p3"⟩).compile tempo).transitions =
            [transition, dwell] ∧
          ∀ t, (dwell.frameAt t).Shows next ∧ (dwell.frameAt t).ballOwner = owner := by
  intro player pass cut cone p play tempo
  have hsound : play.IsSound := by decide
  have hplaces : ∀ p ∈ play.phases, ∀ o ∈ p.objects, o.position.IsExact := by
    intro q hq o ho
    obtain rfl := List.mem_singleton.mp hq
    simp only [p, List.mem_cons, List.not_mem_nil, or_false] at ho
    rcases ho with rfl | rfl | rfl
    · exact ⟨0, 0, rfl⟩
    · exact ⟨80, 0, rfl⟩
    · exact ⟨40, 40, rfl⟩
  have hfresh : ⟨"p2"⟩ ∉ play.phases.map (·.id) := by decide
  have hfloor : 1 ≤ tempo.config.floorMs := by decide
  obtain ⟨hnext, last, next, transition, owner, hlast, hphases, -, htransitions, -, hcarries,
    hdwells⟩ := compile_appendPhase hsound hplaces hfresh hfloor
  obtain rfl : p = last := Option.some.inj hlast
  have hlong : transition.schedule.totalMs ≤ .posInf := by
    have hshort : ((play.appendPhase ⟨"p2"⟩).compile tempo).transitions.map (·.schedule.totalMs) =
        [finite 400] := by
      decide +kernel
    rw [htransitions] at hshort
    have htotal : transition.schedule.totalMs = finite 400 := (List.cons.inj hshort).1
    rw [htotal]
    decide
  have hcut : IsLast p.actions (fun a => a.performer = some ⟨"o2"⟩) 1 cut :=
    ⟨rfl, rfl, fun _ _ hlisted _ => Nat.le_of_lt_succ (List.getElem?_eq_some_iff.mp hlisted).1⟩
  obtain ⟨k, a, ha, hcuts⟩ := hcarries.busy (player "o2" ⟨finite 80, 0⟩)
    (List.mem_cons_of_mem _ List.mem_cons_self)
    fun hidle => hidle cut (List.mem_cons_of_mem _ List.mem_cons_self) rfl
  obtain rfl : a = cut := ha.unique (fun _ _ => le_antisymm) hcut
  have hcone : p.IsIdle ⟨"c1"⟩ := by
    show ∀ a ∈ p.actions, a.performer ≠ some ⟨"c1"⟩
    decide
  obtain ⟨hshown, hball⟩ := hcarries.ends .posInf hlong
  obtain ⟨-, dwell, htransitions', -, -, hdwell⟩ := hdwells ⟨"p3"⟩ (by decide)
  rw [htransitions] at htransitions'
  exact ⟨hsound, hplaces, hfresh, hfloor, hnext, next, transition, owner, hphases, htransitions,
    hcuts .posInf hlong, hcarries.idle cone (by simp [p]) hcone, hshown, hball, dwell,
    htransitions', hdwell⟩

end Document

end PlayDiagram
