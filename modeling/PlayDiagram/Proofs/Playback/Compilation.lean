import PlayDiagram.Playback.Transition
import PlayDiagram.Proofs.Playback.ScheduleEntries

/-!
# What compiling a play yields

`compileFrom` runs along the phases and carries the owner of the ball from one to the next.  Here its
results are told by index: how many transitions and owners there are, which transition leaves a
phase, and how the owner at the start of a phase follows from the one before.
-/

namespace PlayDiagram

variable {α : Type} [Scalar α]

@[simp] theorem compileFrom_owners_length
    (tempo : Tempo α) (n : ℕ) (carried : Option ObjectId) (phases : List (Phase α)) :
    (compileFrom tempo n carried phases).2.length = phases.length := by
  induction phases generalizing n carried with
  | nil => rfl
  | cons p rest ih =>
      cases rest with
      | nil => rfl
      | cons q rest => simp only [compileFrom, List.length_cons, ih]

@[simp] theorem compileFrom_transitions_length
    (tempo : Tempo α) (n : ℕ) (carried : Option ObjectId) (phases : List (Phase α)) :
    (compileFrom tempo n carried phases).1.length = phases.length - 1 := by
  induction phases generalizing n carried with
  | nil => rfl
  | cons p rest ih =>
      cases rest with
      | nil => rfl
      | cons q rest => simp only [compileFrom, List.length_cons, ih, Nat.add_sub_cancel]

theorem compileFrom_owners_zero
    (tempo : Tempo α) (n : ℕ) (carried : Option ObjectId) {phases : List (Phase α)} {p : Phase α}
    (hp : phases[0]? = some p) :
    (compileFrom tempo n carried phases).2[0]? = some (p.startOwner n carried) := by
  cases phases with
  | nil => simp at hp
  | cons first rest =>
      cases hp
      cases rest <;> rfl

/-- Between two neighbouring phases: the transition starts with the owner of the first, and the
second inherits the owner at its end. -/
theorem compileFrom_step
    (tempo : Tempo α) (n : ℕ) (carried : Option ObjectId) {phases : List (Phase α)} {i : ℕ}
    {p q : Phase α} (hp : phases[i]? = some p) (hq : phases[i + 1]? = some q) :
    ∃ owner,
      (compileFrom tempo n carried phases).2[i]? = some owner ∧
      (compileFrom tempo n carried phases).1[i]? =
        some (Transition.between tempo (n + i) p q owner) ∧
      (compileFrom tempo n carried phases).2[i + 1]? =
        some (q.startOwner (n + i + 1) (Transition.between tempo (n + i) p q owner).endOwner) := by
  induction phases generalizing n carried i with
  | nil => simp at hp
  | cons first rest ih =>
      cases rest with
      | nil => simp at hq
      | cons second rest =>
          cases i with
          | zero =>
              cases hp
              cases hq
              refine ⟨p.startOwner n carried, rfl, rfl, ?_⟩
              exact compileFrom_owners_zero tempo (n + 1) _ List.getElem?_cons_zero
          | succ i =>
              obtain ⟨owner, howner, htransition, hnext⟩ :=
                ih (n + 1) (Transition.between tempo n first second
                  (first.startOwner n carried)).endOwner hp hq
              rw [show n + 1 + i = n + (i + 1) by omega] at htransition hnext
              exact ⟨owner, howner, htransition, hnext⟩

/-- Maps of phases, transitions and owners that agree on each transition and on its ends agree on the
whole run. -/
theorem compileFrom_map {tempo tempo' : Tempo α} (phaseMap : Phase α → Phase α)
    (transitionMap : Transition α → Transition α) (ownerMap : Option ObjectId → Option ObjectId)
    (hstart : ∀ (p : Phase α) n carried,
      (phaseMap p).startOwner n (ownerMap carried) = ownerMap (p.startOwner n carried))
    (hbetween : ∀ n p q owner,
      Transition.between tempo' n (phaseMap p) (phaseMap q) (ownerMap owner) =
        transitionMap (Transition.between tempo n p q owner))
    (hend : ∀ t, (transitionMap t).endOwner = ownerMap t.endOwner)
    (n : ℕ) (carried : Option ObjectId) (phases : List (Phase α)) :
    compileFrom tempo' n (ownerMap carried) (phases.map phaseMap) =
      ((compileFrom tempo n carried phases).1.map transitionMap,
        (compileFrom tempo n carried phases).2.map ownerMap) := by
  induction phases generalizing n carried with
  | nil => rfl
  | cons p rest ih =>
      cases rest with
      | nil => simp only [List.map_cons, List.map_nil, compileFrom, hstart]
      | cons q rest =>
          simp only [List.map_cons] at ih
          simp only [List.map_cons, compileFrom, hstart, hbetween, hend, ih]

/-- A phase added at the end adds one transition, out of the phase that was last, and one owner. -/
theorem compileFrom_concat
    (tempo : Tempo α) (n : ℕ) (carried : Option ObjectId) (phases : List (Phase α))
    (last next : Phase α) :
    ∃ owner,
      (compileFrom tempo n carried (phases ++ [last])).2.getLast? = some owner ∧
      (compileFrom tempo n carried (phases ++ [last, next])).1 =
        (compileFrom tempo n carried (phases ++ [last])).1 ++
          [Transition.between tempo (n + phases.length) last next owner] ∧
      (compileFrom tempo n carried (phases ++ [last, next])).2 =
        (compileFrom tempo n carried (phases ++ [last])).2 ++
          [next.startOwner (n + phases.length + 1)
            (Transition.between tempo (n + phases.length) last next owner).endOwner] := by
  induction phases generalizing n carried with
  | nil => exact ⟨last.startOwner n carried, rfl, rfl, rfl⟩
  | cons first rest ih =>
      obtain ⟨second, others, hlast, hnext⟩ : ∃ second others,
          rest ++ [last] = second :: others ∧ rest ++ [last, next] = second :: (others ++ [next]) := by
        cases rest with
        | nil => exact ⟨last, [], rfl, rfl⟩
        | cons second others => exact ⟨second, others ++ [last], rfl, by simp⟩
      obtain ⟨owner, howner, htransitions, howners⟩ :=
        ih (n + 1) (Transition.between tempo n first second (first.startOwner n carried)).endOwner
      rw [hlast] at howner
      rw [hlast, hnext, show n + 1 + rest.length = n + (first :: rest).length by
        rw [List.length_cons]; omega] at htransitions howners
      refine ⟨owner, ?_, ?_, ?_⟩
      · rw [List.cons_append, hlast]
        simp only [compileFrom]
        rw [List.getLast?_cons, howner]
        rfl
      · rw [List.cons_append, List.cons_append, hlast, hnext]
        simp only [compileFrom]
        rw [htransitions, List.cons_append]
      · rw [List.cons_append, List.cons_append, hlast, hnext]
        simp only [compileFrom]
        rw [howners, List.cons_append]

/-- Who has the ball at the end of the transition out of a phase. -/
theorem Transition.between_endOwner
    (tempo : Tempo α) (i : ℕ) (p q : Phase α) (owner : Option ObjectId) :
    (Transition.between tempo i p q owner).endOwner = p.handOver?.or owner :=
  ownerAfter_flip? tempo p owner

namespace Document

@[simp] theorem compile_startOwners_length (d : Document α) (tempo : Tempo α) :
    (d.compile tempo).startOwners.length = d.phases.length :=
  compileFrom_owners_length tempo 0 none d.phases

@[simp] theorem compile_transitions_length (d : Document α) (tempo : Tempo α) :
    (d.compile tempo).transitions.length = d.phases.length - 1 :=
  compileFrom_transitions_length tempo 0 none d.phases

theorem compile_startOwners_zero {d : Document α} (tempo : Tempo α) {p : Phase α}
    (hp : d.phases[0]? = some p) :
    (d.compile tempo).startOwners[0]? = some (p.startOwner 0 none) :=
  compileFrom_owners_zero tempo 0 none hp

theorem compile_step {d : Document α} (tempo : Tempo α) {i : ℕ} {p q : Phase α}
    (hp : d.phases[i]? = some p) (hq : d.phases[i + 1]? = some q) :
    ∃ owner,
      (d.compile tempo).startOwners[i]? = some owner ∧
      (d.compile tempo).transitions[i]? = some (Transition.between tempo i p q owner) ∧
      (d.compile tempo).startOwners[i + 1]? =
        some (q.startOwner (i + 1) (p.handOver?.or owner)) := by
  obtain ⟨owner, howner, htransition, hnext⟩ := compileFrom_step tempo 0 none hp hq
  rw [Nat.zero_add] at htransition hnext
  rw [Transition.between_endOwner] at hnext
  exact ⟨owner, howner, htransition, hnext⟩

/-- A document with one more phase is compiled to one more transition and one more owner. -/
theorem compile_concat {d d' : Document α} (tempo : Tempo α) {last next : Phase α}
    (hlast : d.phases.getLast? = some last) (hnext : d'.phases = d.phases ++ [next]) :
    ∃ owner,
      (d.compile tempo).startOwners.getLast? = some owner ∧
      (d'.compile tempo).transitions = (d.compile tempo).transitions ++
        [Transition.between tempo (d.phases.length - 1) last next owner] ∧
      (d'.compile tempo).startOwners = (d.compile tempo).startOwners ++
        [next.startOwner d.phases.length (last.handOver?.or owner)] := by
  obtain ⟨before, hphases⟩ := List.getLast?_eq_some_iff.mp hlast
  obtain ⟨owner, howner, htransitions, howners⟩ :=
    compileFrom_concat tempo 0 none before last next
  rw [Transition.between_endOwner] at howners
  have hlength : d.phases.length = 0 + before.length + 1 := by
    rw [hphases, List.length_append, List.length_singleton, Nat.zero_add]
  have hnext' : d'.phases = before ++ [last, next] := by
    rw [hnext, hphases, List.append_assoc]
    rfl
  rw [← hphases] at howner htransitions howners
  rw [← hnext'] at htransitions howners
  rw [hlength]
  exact ⟨owner, howner, htransitions, howners⟩

/-- Every transition lies between two neighbouring phases. -/
theorem exists_phases_of_transition {d : Document α} {tempo : Tempo α} {i : ℕ} {t : Transition α}
    (ht : (d.compile tempo).transitions[i]? = some t) :
    ∃ p q, d.phases[i]? = some p ∧ d.phases[i + 1]? = some q := by
  have hi := (List.getElem?_eq_some_iff.mp ht).1
  rw [compile_transitions_length] at hi
  exact ⟨_, _, List.getElem?_eq_getElem (by omega), List.getElem?_eq_getElem (by omega)⟩

/-- The schedule of a transition is that of the phase that it leaves. -/
theorem exists_phase_of_schedule {d : Document α} {tempo : Tempo α} {t : Transition α}
    (ht : t ∈ (d.compile tempo).transitions) :
    ∃ p ∈ d.phases, t.schedule = Schedule.ofActions tempo p.actions := by
  obtain ⟨i, hi⟩ := List.mem_iff_getElem?.mp ht
  obtain ⟨p, q, hp, hq⟩ := exists_phases_of_transition hi
  obtain ⟨owner, -, htransition, -⟩ := compile_step tempo hp hq
  obtain rfl := Option.some.inj (hi.symm.trans htransition)
  exact ⟨p, List.mem_of_getElem? hp, rfl⟩

/-- A phase that inherits starts with the owner at the end of the transition that leads to it. -/
theorem startOwner_of_inherit {d : Document α} {tempo : Tempo α} {i : ℕ}
    {transition : Transition α} (ht : (d.compile tempo).transitions[i]? = some transition)
    {arriving : Phase α} (hq : d.phases[i + 1]? = some arriving)
    (hinherit : arriving.ballOwner = .inherit) :
    (d.compile tempo).startOwners[i + 1]? = some transition.endOwner := by
  obtain ⟨departing, _, hp, -⟩ := exists_phases_of_transition ht
  obtain ⟨owner, -, htransition, hnext⟩ := compile_step tempo hp hq
  obtain rfl := Option.some.inj (ht.symm.trans htransition)
  rw [hnext, Transition.between_endOwner]
  simp [Phase.startOwner, hinherit]

end Document

end PlayDiagram
