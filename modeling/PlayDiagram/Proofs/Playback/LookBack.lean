import Mathlib.Data.Nat.Find
import PlayDiagram.Proofs.Playback.Compilation

/-!
# Possession across a play

Compiling carries the owner of the ball forward, from phase to phase.  The same owner is found by
looking back: to the last phase that says who has the ball, and to the last pass made since
(`ownerByLookBack`, `compile_possession`).
-/

namespace PlayDiagram.Document

variable {α : Type}

/-- The phase at an index says itself who has the ball. -/
def DeclaresOwner (d : Document α) (i : ℕ) : Prop :=
  ∃ p ∈ d.phases[i]?, p.ballOwner ≠ .inherit

instance (d : Document α) : DecidablePred d.DeclaresOwner := fun i =>
  decidable_of_iff ((d.phases[i]?.any fun p => p.ballOwner ≠ .inherit) = true) (by
    simp [DeclaresOwner, Option.any_eq_true])

/-- The last phase up to an index that says who has the ball, or else the first phase. -/
def originOf (d : Document α) (i : ℕ) : ℕ :=
  Nat.findGreatest d.DeclaresOwner i

/-- Who gets the ball during the phase at an index, if it is passed. -/
def handOverIn? (d : Document α) (k : ℕ) : Option ObjectId :=
  d.phases[k]?.bind Phase.handOver?

/-- Who got the ball last, in the phases from the index `j` up to before `i`. -/
def lastHandOver? (d : Document α) (j i : ℕ) : Option ObjectId :=
  (List.range' j (i - j)).reverse.findSome? d.handOverIn?

/-- Who has the ball when the phase at an index starts, by that phase alone: without a word on it
the first player. -/
def ownAccount (d : Document α) (j : ℕ) : Option ObjectId :=
  d.phases[j]?.bind fun p =>
    match p.ballOwner with
    | .owner id => some id
    | .nobody => none
    | .inherit => p.firstPlayer?.map (·.id)

/-- Who has the ball when a phase starts, found by looking back from it. -/
def ownerByLookBack (d : Document α) (i : ℕ) : Option ObjectId :=
  (d.lastHandOver? (d.originOf i) i).or (d.ownAccount (d.originOf i))

theorem originOf_le (d : Document α) (i : ℕ) : d.originOf i ≤ i :=
  Nat.findGreatest_le i

theorem declaresOwner_iff {d : Document α} {i : ℕ} {p : Phase α} (hp : d.phases[i]? = some p) :
    d.DeclaresOwner i ↔ p.ballOwner ≠ .inherit := by
  simp [DeclaresOwner, hp]

@[simp] theorem lastHandOver?_self (d : Document α) (i : ℕ) : d.lastHandOver? i i = none := by
  unfold lastHandOver?
  rw [Nat.sub_self]
  rfl

theorem lastHandOver?_succ (d : Document α) {j i : ℕ} (hji : j ≤ i) :
    d.lastHandOver? j (i + 1) = (d.handOverIn? i).or (d.lastHandOver? j i) := by
  unfold lastHandOver?
  have hlength : i + 1 - j = (i - j) + 1 := by omega
  have hlast : j + (i - j) = i := by omega
  rw [hlength, List.range'_1_concat, hlast, List.reverse_append, List.reverse_singleton,
    List.singleton_append, List.findSome?_cons]
  cases d.handOverIn? i <;> rfl

/-- Looking back from a phase that says who has the ball, one looks no further. -/
theorem ownerByLookBack_of_declared {d : Document α} {i : ℕ} {p : Phase α}
    (hp : d.phases[i]? = some p) (hdeclared : p.ballOwner ≠ .inherit) :
    d.ownerByLookBack i = p.ballOwner.id? := by
  have horigin : d.originOf i = i :=
    Nat.findGreatest_eq ((declaresOwner_iff hp).mpr hdeclared)
  unfold ownerByLookBack ownAccount
  rw [horigin, lastHandOver?_self, Option.none_or, hp, Option.bind_some]
  cases howner : p.ballOwner with
  | inherit => exact absurd howner hdeclared
  | nobody => rfl
  | owner id => rfl

theorem ownerByLookBack_zero {d : Document α} {p : Phase α} (hp : d.phases[0]? = some p) :
    d.ownerByLookBack 0 = p.startOwner 0 none := by
  have horigin : d.originOf 0 = 0 := Nat.findGreatest_zero
  unfold ownerByLookBack ownAccount Phase.startOwner
  rw [horigin, lastHandOver?_self, Option.none_or, hp, Option.bind_some]
  cases p.ballOwner <;> rfl

/-- Looking back from a phase that inherits, one sees what is seen from the phase before, unless
that phase passes the ball on. -/
theorem ownerByLookBack_succ_of_inherit {d : Document α} {i : ℕ} {p q : Phase α}
    (hp : d.phases[i]? = some p) (hq : d.phases[i + 1]? = some q)
    (hinherit : q.ballOwner = .inherit) :
    d.ownerByLookBack (i + 1) = p.handOver?.or (d.ownerByLookBack i) := by
  have horigin : d.originOf (i + 1) = d.originOf i := by
    apply Nat.findGreatest_of_not
    rw [declaresOwner_iff hq]
    exact not_not_intro hinherit
  have hhandOver : d.handOverIn? i = p.handOver? := by
    unfold handOverIn?
    rw [hp, Option.bind_some]
  unfold ownerByLookBack
  rw [horigin, lastHandOver?_succ d (d.originOf_le i), hhandOver, Option.or_assoc]

/-- The step that compiling takes from one phase to the next is also a step of looking back. -/
theorem ownerByLookBack_succ {d : Document α} {i : ℕ} {p q : Phase α}
    (hp : d.phases[i]? = some p) (hq : d.phases[i + 1]? = some q) :
    d.ownerByLookBack (i + 1) =
      q.startOwner (i + 1) (p.handOver?.or (d.ownerByLookBack i)) := by
  by_cases hinherit : q.ballOwner = .inherit
  · rw [ownerByLookBack_succ_of_inherit hp hq hinherit]
    simp [Phase.startOwner, hinherit]
  · rw [ownerByLookBack_of_declared hq hinherit]
    cases howner : q.ballOwner with
    | inherit => exact absurd howner hinherit
    | nobody => simp [Phase.startOwner, howner, BallOwner.id?]
    | owner id => simp [Phase.startOwner, howner, BallOwner.id?]

variable [Scalar α]

/-- The owner that compiling carries to a phase is the one found by looking back from it. -/
theorem compile_startOwner (d : Document α) (tempo : Tempo α) {i : ℕ} (hi : i < d.phases.length) :
    (d.compile tempo).startOwners[i]? = some (d.ownerByLookBack i) := by
  induction i with
  | zero =>
      have hp : d.phases[0]? = some d.phases[0] := List.getElem?_eq_getElem hi
      rw [compile_startOwners_zero tempo hp, ownerByLookBack_zero hp]
  | succ i ih =>
      have hp : d.phases[i]? = some d.phases[i] := List.getElem?_eq_getElem (by omega)
      have hq : d.phases[i + 1]? = some d.phases[i + 1] := List.getElem?_eq_getElem hi
      obtain ⟨owner, howner, -, hnext⟩ := compile_step tempo hp hq
      rw [ih (by omega)] at howner
      cases howner
      rw [hnext, ownerByLookBack_succ hp hq]

/-- The transition out of a phase starts with the owner found by looking back from it. -/
theorem compile_transition (d : Document α) (tempo : Tempo α) {i : ℕ} {p q : Phase α}
    (hp : d.phases[i]? = some p) (hq : d.phases[i + 1]? = some q) :
    (d.compile tempo).transitions[i]? =
      some (Transition.between tempo i p q (d.ownerByLookBack i)) := by
  obtain ⟨owner, howner, htransition, -⟩ := compile_step tempo hp hq
  rw [compile_startOwner d tempo (List.getElem?_eq_some_iff.mp hp).1] at howner
  rw [htransition, Option.some.inj howner]

theorem exists_between_of_transition {d : Document α} {tempo : Tempo α} {i : ℕ}
    {t : Transition α} (ht : (d.compile tempo).transitions[i]? = some t) :
    ∃ p q, d.phases[i]? = some p ∧ d.phases[i + 1]? = some q ∧
      t = Transition.between tempo i p q (d.ownerByLookBack i) := by
  obtain ⟨p, q, hp, hq⟩ := exists_phases_of_transition ht
  rw [compile_transition d tempo hp hq] at ht
  exact ⟨p, q, hp, hq, (Option.some.inj ht).symm⟩

/-- The owners and the transitions of a compiled play: the owner at the start of every phase is the
one found by looking back, every transition starts with the owner of the phase that it leaves, and
ends with that of the phase that it leads to, if this inherits. -/
theorem compile_possession (d : Document α) (tempo : Tempo α) :
    (d.compile tempo).startOwners = (List.range d.phases.length).map d.ownerByLookBack ∧
    (d.compile tempo).transitions.length = d.phases.length - 1 ∧
    ∀ i t, (d.compile tempo).transitions[i]? = some t →
      t.index = i ∧
      (d.compile tempo).startOwners[i]? = some t.startOwner ∧
      ∀ p, d.phases[i + 1]? = some p → p.ballOwner = .inherit →
        (d.compile tempo).startOwners[i + 1]? = some t.endOwner := by
  refine ⟨?_, compile_transitions_length d tempo, ?_⟩
  · apply List.ext_getElem?
    intro i
    by_cases hi : i < d.phases.length
    · rw [compile_startOwner d tempo hi]
      simp [hi]
    · rw [List.getElem?_eq_none (by rw [compile_startOwners_length]; omega),
        List.getElem?_eq_none (by simp; omega)]
  · intro i t ht
    obtain ⟨p, q, hp, hq⟩ := exists_phases_of_transition ht
    obtain ⟨owner, howner, htransition, hnext⟩ := compile_step tempo hp hq
    rw [ht] at htransition
    cases htransition
    refine ⟨rfl, howner, ?_⟩
    intro q' hq' hinherit
    rw [hq] at hq'
    cases hq'
    rw [hnext, Transition.between_endOwner]
    simp [Phase.startOwner, hinherit]

/-- A play of four phases: the owner that the second declares is carried past an unfinished pass to
the third, from where a handoff takes the ball on. -/
theorem compile_possession_handoff :
    let drawn : Action Float := Action.freehand ⟨"a1"⟩ .pass ⟨0, 0⟩ ⟨4, 0⟩
    let handoff : Action Float :=
      { drawn with
        id := ⟨"a2"⟩, kind := .handoff, performer := some ⟨"o1"⟩, receiver := some ⟨"o2"⟩ }
    let player (name : String) : CourtObject Float := .new ⟨name⟩ .offensePlayer ⟨0, 0⟩
    let phase (name : String) (objects : List (CourtObject Float)) (actions : List (Action Float))
        (ballOwner : BallOwner) : Phase Float :=
      { id := ⟨name⟩, name, objects, actions, ballOwner }
    let play : Document Float :=
      .new .half
        [ phase "p1" [] [] .inherit,
          phase "p2" [player "o1"] [drawn] (.owner ⟨"o1"⟩),
          phase "p3" [player "o1", player "o2"] [drawn, handoff] .inherit,
          phase "p4" [] [] .inherit ]
    let compiled := play.compile ⟨{}, SpeedPreset.normal.speed⟩
    compiled.startOwners = [none, some ⟨"o1"⟩, some ⟨"o1"⟩, some ⟨"o2"⟩] ∧
    ∃ t, compiled.transitions[2]? = some t ∧ compiled.startOwners[3]? = some t.endOwner := by
  intro drawn handoff player phase play compiled
  obtain ⟨howners, hlength, htransitions⟩ :=
    compile_possession play ⟨{}, SpeedPreset.normal.speed⟩
  constructor
  · rw [howners]
    decide
  · have htwo : 2 < compiled.transitions.length := by
      rw [hlength]
      decide
    have ht := List.getElem?_eq_getElem htwo
    exact ⟨_, ht, (htransitions 2 _ ht).2.2 _ rfl rfl⟩

end PlayDiagram.Document
