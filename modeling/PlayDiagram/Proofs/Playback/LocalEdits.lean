import PlayDiagram.Playback.Frame
import PlayDiagram.Proofs.Play.EditHistory
import PlayDiagram.Proofs.Playback.LookBack

/-!
# How far an edit reaches

Two documents that differ in one phase are compiled alike, except around that phase.  A transition
is made from the two phases next to it, so only two of them can change.  The owner of the ball is
carried further, but only up to the next phase that says who has the ball or passes it on
(`OwnerShielded`, `compile_of_differOnlyAt`).
-/

namespace PlayDiagram

variable {α : Type}

/-- The action takes the ball from one object to another. -/
structure Action.IsPass (a : Action α) : Prop where
  kind : a.kind.transfersPossession = true
  performer : a.performer ≠ none
  receiver : a.receiver ≠ none

theorem Phase.handOver?_eq_some_of_isPass {p : Phase α} {a : Action α} (ha : a ∈ p.actions)
    (hpass : a.IsPass) : ∃ id, p.handOver? = some id := by
  obtain ⟨giver, hgiver⟩ := Option.ne_none_iff_exists'.mp hpass.performer
  obtain ⟨receiver, hreceiver⟩ := Option.ne_none_iff_exists'.mp hpass.receiver
  have hchange : a.possessionChange? = some (giver, receiver) :=
    Action.possessionChange?_eq_some_iff.mpr ⟨hpass.kind, hgiver, hreceiver⟩
  obtain ⟨first, hfirst⟩ : ∃ first, p.actions.findSome? Action.possessionChange? = some first := by
    rw [← Option.isSome_iff_exists, List.findSome?_isSome_iff]
    exact ⟨a, ha, hchange ▸ rfl⟩
  exact ⟨first.2, by rw [handOver?, hfirst, Option.map_some]⟩

namespace Document

/-- The documents have the same number of phases, and the same phases except at one index. -/
structure DifferOnlyAt (k : ℕ) (d d' : Document α) : Prop where
  length_eq : d'.phases.length = d.phases.length
  phase_eq : ∀ j, j ≠ k → d'.phases[j]? = d.phases[j]?

theorem differOnlyAt_of_replacePhase {d next : Document α} {k : ℕ} {p : Phase α}
    (hput : d.replacePhase k p = .ok next) : DifferOnlyAt k d next := by
  obtain ⟨-, -, rfl⟩ := replacePhase_eq_ok_iff.mp hput
  exact ⟨List.length_set, fun j hj => List.getElem?_set_ne hj.symm⟩

/-- What happens in the phase at index `k` does not decide who has the ball when the one at index `j`
starts: the phase comes later, or since then one has said who has the ball, or has passed it. -/
inductive OwnerShielded (d : Document α) (k j : ℕ) : Prop
  | before (hlt : j < k)
  | declared {m : ℕ} (hkm : k < m) (hmj : m ≤ j) (hdeclares : d.DeclaresOwner m)
  | passed {m : ℕ} {p : Phase α} {a : Action α} (hkm : k < m) (hmj : m < j)
      (hp : d.phases[m]? = some p) (ha : a ∈ p.actions) (hpass : a.IsPass)

/-- As long as their phases are the same, documents go on to agree on the owner. -/
theorem ownerByLookBack_eq_of_agree {d d' : Document α} {start j : ℕ} (hstart : start ≤ j)
    (hj : j < d.phases.length)
    (hsame : ∀ m, start ≤ m → m ≤ j → d'.phases[m]? = d.phases[m]?)
    (howner : d'.ownerByLookBack start = d.ownerByLookBack start) :
    d'.ownerByLookBack j = d.ownerByLookBack j := by
  induction j, hstart using Nat.le_induction with
  | base => exact howner
  | succ j hstart ih =>
      have hbefore : d'.ownerByLookBack j = d.ownerByLookBack j :=
        ih (by omega) fun m hm hmj => hsame m hm (by omega)
      have hp : d.phases[j]? = some d.phases[j] := List.getElem?_eq_getElem (by omega)
      have hq : d.phases[j + 1]? = some d.phases[j + 1] := List.getElem?_eq_getElem hj
      have hp' := (hsame j hstart (by omega)).trans hp
      have hq' := (hsame (j + 1) (by omega) le_rfl).trans hq
      rw [ownerByLookBack_succ hp hq, ownerByLookBack_succ hp' hq', hbefore]

theorem DifferOnlyAt.ownerByLookBack_eq {d d' : Document α} {k j : ℕ} (h : DifferOnlyAt k d d')
    (hj : j < d.phases.length) (hshielded : d.OwnerShielded k j) :
    d'.ownerByLookBack j = d.ownerByLookBack j := by
  rcases hshielded with hlt | ⟨hkm, hmj, p, hp, hdeclares⟩ | @⟨m, p, a, hkm, hmj, hp, ha, hpass⟩
  · have hp : d.phases[0]? = some d.phases[0] := List.getElem?_eq_getElem (by omega)
    have hp' := (h.phase_eq 0 (by omega)).trans hp
    apply ownerByLookBack_eq_of_agree (Nat.zero_le j) hj
    · exact fun m _ hmj => h.phase_eq m (by omega)
    · rw [ownerByLookBack_zero hp, ownerByLookBack_zero hp']
  · have hp' := (h.phase_eq _ (by omega)).trans hp
    apply ownerByLookBack_eq_of_agree hmj hj
    · exact fun m hm _ => h.phase_eq m (by omega)
    · rw [ownerByLookBack_of_declared hp hdeclares, ownerByLookBack_of_declared hp' hdeclares]
  · -- The receiver has the ball after the pass, whoever had it before.
    have hq : d.phases[m + 1]? = some d.phases[m + 1] := List.getElem?_eq_getElem (by omega)
    have hp' := (h.phase_eq m (by omega)).trans hp
    have hq' := (h.phase_eq (m + 1) (by omega)).trans hq
    obtain ⟨receiver, hreceiver⟩ := Phase.handOver?_eq_some_of_isPass ha hpass
    apply ownerByLookBack_eq_of_agree hmj hj
    · exact fun m hm _ => h.phase_eq m (by omega)
    · rw [ownerByLookBack_succ hp hq, ownerByLookBack_succ hp' hq', hreceiver, Option.some_or,
        Option.some_or]

end Document

variable [Scalar α]

/-- A frame shows nothing of a transition but its owner, its flip, its schedule and its tracks. -/
theorem Transition.frameAt_congr {t t' : Transition α} (howner : t'.startOwner = t.startOwner)
    (hflip : t'.flip? = t.flip?) (hschedule : t'.schedule = t.schedule)
    (htracks : t'.tracks = t.tracks) (time : α) : t'.frameAt time = t.frameAt time := by
  simp only [frameAt, instant, howner, hflip, hschedule, htracks]

namespace Document

/-- If two documents differ in one phase only, then of the compiled plays only the transitions next
to that phase differ in more than the owner: the one before it in its tracks and in the phase it
leads to.  The owners differ at most where they are not shielded from that phase. -/
theorem compile_of_differOnlyAt {d d' : Document α} {k : ℕ} (h : DifferOnlyAt k d d')
    (tempo : Tempo α) :
    (d'.compile tempo).transitions.length = (d.compile tempo).transitions.length ∧
    (d'.compile tempo).startOwners.length = (d.compile tempo).startOwners.length ∧
    (∀ j, d.OwnerShielded k j →
      (d'.compile tempo).startOwners[j]? = (d.compile tempo).startOwners[j]?) ∧
    ∀ i t t', (d.compile tempo).transitions[i]? = some t →
      (d'.compile tempo).transitions[i]? = some t' →
      (i ≠ k → t'.index = t.index ∧ t'.departingPhase = t.departingPhase ∧
        t'.schedule = t.schedule ∧ t'.flip? = t.flip?) ∧
      (i ≠ k → i + 1 ≠ k → t'.arrivingPhase = t.arrivingPhase ∧ t'.tracks = t.tracks) ∧
      (d.OwnerShielded k i → t'.startOwner = t.startOwner) ∧
      (t'.startOwner = t.startOwner → t'.flip? = t.flip? → t'.schedule = t.schedule →
        t'.tracks = t.tracks → ∀ time, t'.frameAt time = t.frameAt time) := by
  refine ⟨?_, ?_, ?_, ?_⟩
  · simp [h.length_eq]
  · simp [h.length_eq]
  · intro j hshielded
    by_cases hj : j < d.phases.length
    · rw [compile_startOwner d tempo hj, compile_startOwner d' tempo (h.length_eq ▸ hj),
        h.ownerByLookBack_eq hj hshielded]
    · rw [List.getElem?_eq_none (by simpa [h.length_eq] using hj),
        List.getElem?_eq_none (by simpa using hj)]
  · intro i t t' ht ht'
    obtain ⟨p, q, hp, hq, rfl⟩ := exists_between_of_transition ht
    obtain ⟨p', q', hp', hq', rfl⟩ := exists_between_of_transition ht'
    have hdeparting : i ≠ k → p' = p := by
      intro hi
      rw [h.phase_eq i hi, hp] at hp'
      exact (Option.some.inj hp').symm
    have harriving : i + 1 ≠ k → q' = q := by
      intro hi
      rw [h.phase_eq (i + 1) hi, hq] at hq'
      exact (Option.some.inj hq').symm
    refine ⟨?_, ?_, ?_, Transition.frameAt_congr⟩
    · intro hi
      obtain rfl := hdeparting hi
      exact ⟨rfl, rfl, rfl, rfl⟩
    · intro hi hi'
      obtain rfl := hdeparting hi
      obtain rfl := harriving hi'
      exact ⟨rfl, rfl⟩
    · exact h.ownerByLookBack_eq (List.getElem?_eq_some_iff.mp hp).1

/-- The second of four phases is edited so that nobody has the ball: the third phase starts without an
owner, but passes the ball, so that the fourth starts as before. -/
theorem compile_of_differOnlyAt_passed :
    let player (name : String) : CourtObject Float := .new ⟨name⟩ .offensePlayer ⟨500, 500⟩
    let pass : Action Float :=
      ((Action.freehand ⟨"a1"⟩ .pass ⟨500, 500⟩ ⟨250, 0⟩).performedBy ⟨"o1"⟩).receivedBy ⟨"o2"⟩
    let phase (name : String) (actions : List (Action Float)) (ballOwner : BallOwner) :
        Phase Float :=
      { id := ⟨name⟩, name, objects := [player "o1", player "o2"], actions, ballOwner }
    let play : Document Float :=
      .new .half [phase "p1" [pass] .inherit, phase "p2" [] .inherit, phase "p3" [pass] .inherit,
        phase "p4" [] .inherit]
    let tempo : Tempo Float := ⟨{}, SpeedPreset.double.speed⟩
    ∃ edited, play.replacePhase 1 (phase "p2" [] .nobody) = .ok edited ∧
      (edited.compile tempo).startOwners[2]? ≠ (play.compile tempo).startOwners[2]? ∧
      (edited.compile tempo).startOwners[3]? = (play.compile tempo).startOwners[3]? ∧
      ∃ t t', (play.compile tempo).transitions[0]? = some t ∧
        (edited.compile tempo).transitions[0]? = some t' ∧ t'.schedule = t.schedule ∧
        t'.startOwner = t.startOwner := by
  intro player pass phase play tempo
  let edited : Document Float := { play with phases := play.phases.set 1 (phase "p2" [] .nobody) }
  have hput : play.replacePhase 1 (phase "p2" [] .nobody) = .ok edited :=
    replacePhase_eq_ok_iff.mpr ⟨by decide, by decide, rfl⟩
  obtain ⟨-, -, howners, htransitions⟩ :=
    compile_of_differOnlyAt (differOnlyAt_of_replacePhase hput) tempo
  have hpassed : play.OwnerShielded 1 3 :=
    .passed (m := 2) (p := phase "p3" [pass] .inherit) (a := pass) (by decide) (by decide) rfl
      List.mem_cons_self ⟨rfl, by decide, by decide⟩
  obtain ⟨hentry, -, howner, -⟩ := htransitions 0 _ _ rfl rfl
  exact ⟨edited, hput, by decide, howners 3 hpassed, _, _, rfl, rfl, (hentry (by decide)).2.2.1,
    howner (.before (by decide))⟩

end Document

end PlayDiagram
