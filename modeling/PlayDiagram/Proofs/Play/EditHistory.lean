import PlayDiagram.Proofs.Play.PhaseEdits

/-!
# Histories of edits

A sound document stays sound whatever is done to it, in any order and however often, as long as
added phases bring names of their own.  Each kind of step is treated by itself; a history is then
an induction on its steps.
-/

namespace PlayDiagram

variable {α : Type}

namespace Phase

/-! ## The phase that follows -/

variable [Scalar α]

/-- Where the phase that follows records an object. -/
def nextPosition (p : Phase α) (o : CourtObject α) : Point α :=
  match p.lastActionOf? o.id with
  | some a => a.target.clamped
  | none => o.position

/-- An object is recorded where it was, or where an action ends. -/
theorem nextPosition_cases (p : Phase α) (o : CourtObject α) :
    p.nextPosition o = o.position ∨ ∃ a ∈ p.actions, p.nextPosition o = a.target.clamped := by
  unfold nextPosition
  cases hlast : p.lastActionOf? o.id with
  | none => exact Or.inl rfl
  | some a => exact Or.inr ⟨a, List.mem_reverse.mp (List.mem_of_find?_eq_some hlast), rfl⟩

theorem nextSnapshot_objects (p : Phase α) (id : PhaseId) (name : String) :
    (p.nextSnapshot id name).objects =
      p.objects.map fun o => { o with position := p.nextPosition o } := by
  apply List.map_congr_left
  intro o _
  rw [nextPosition]
  cases p.lastActionOf? o.id <;> rfl

@[simp] theorem nextSnapshot_ids (p : Phase α) (id : PhaseId) (name : String) :
    (p.nextSnapshot id name).objects.map (·.id) = p.objects.map (·.id) := by
  rw [nextSnapshot_objects, List.map_map]
  rfl

theorem nextSnapshot_object? (p : Phase α) (id : PhaseId) (name : String) (key : ObjectId) :
    (p.nextSnapshot id name).object? key =
      (p.object? key).map fun o => { o with position := p.nextPosition o } := by
  rw [object?, nextSnapshot_objects, List.find?_map]
  rfl

theorem WellFormed.nextSnapshot_object? {p : Phase α} (hp : p.WellFormed) {o : CourtObject α}
    (ho : o ∈ p.objects) (id : PhaseId) (name : String) :
    (p.nextSnapshot id name).object? o.id = some { o with position := p.nextPosition o } := by
  rw [Phase.nextSnapshot_object?, hp.object?_eq_some_iff.mpr ⟨ho, rfl⟩]
  rfl

end Phase

namespace Document

/-! ## Putting a phase back -/

theorem replacePhase_eq_ok_iff {d next : Document α} {index : ℕ} {p : Phase α} :
    d.replacePhase index p = .ok next ↔
      index < d.phases.length ∧ next.IsSound ∧
        next = { d with phases := d.phases.set index p } := by
  unfold replacePhase validate IsSound
  by_cases hindex : index < d.phases.length
  · cases hdefect : defect? { d with phases := d.phases.set index p } with
    | none =>
        simp only [hindex, if_true, Except.ok.injEq, true_and]
        constructor
        · rintro rfl
          exact ⟨hdefect, rfl⟩
        · rintro ⟨-, rfl⟩
          rfl
    | some defect =>
        simp only [hindex, if_true, true_and, reduceCtorEq, false_iff, not_and]
        rintro hnext rfl
        rw [hdefect] at hnext
        exact Option.some_ne_none defect hnext
  · simp [hindex]

/-- A well-formed phase may take the place of one with the same name. -/
theorem IsSound.set {d : Document α} (hd : d.IsSound) {index : ℕ} {p q : Phase α}
    (hp : d.phases[index]? = some p) (hq : q.WellFormed) (hid : q.id = p.id) :
    IsSound { d with phases := d.phases.set index q } := by
  obtain ⟨hphases, hnodup, hwell⟩ := (isSound_iff d).mp hd
  obtain ⟨hindex, rfl⟩ := List.getElem?_eq_some_iff.mp hp
  have hids : (d.phases.set index q).map (·.id) = d.phases.map (·.id) := by
    calc
      (d.phases.set index q).map (·.id) =
          (d.phases.set index d.phases[index]).map (·.id) := by
        rw [List.map_set, List.map_set, hid]
      _ = d.phases.map (·.id) := by rw [List.set_getElem_self]
  refine (isSound_iff _).mpr ⟨?_, ?_, ?_⟩
  · intro hempty
    exact hphases ((List.set_eq_nil_iff index q).mp hempty)
  · rw [hids]
    exact hnodup
  · intro r hr
    rcases List.mem_or_eq_of_mem_set hr with hold | rfl
    · exact hwell r hold
    · exact hq

/-- A phase that was edited can always be put back, and that changes nothing else. -/
theorem IsSound.replacePhase_edited [Scalar α] {d : Document α} (hd : d.IsSound) {index : ℕ}
    {p q : Phase α} {edit : PhaseEdit α}
    (hp : d.phases[index]? = some p) (hedit : edit.apply p = .ok q) :
    d.replacePhase index q = .ok { d with phases := d.phases.set index q } := by
  apply replacePhase_eq_ok_iff.mpr
  refine ⟨(List.getElem?_eq_some_iff.mp hp).1, ?_, rfl⟩
  exact hd.set hp (PhaseEdit.apply_wellFormed (hd.wellFormed hp) hedit) (PhaseEdit.apply_id hedit)

/-! ## Adding and removing phases -/

/-- The phase that follows a well-formed one is well formed: it has the same objects, and nothing
in it names any of them. -/
theorem nextSnapshot_wellFormed [Scalar α] {p : Phase α} (hp : p.WellFormed)
    (id : PhaseId) (name : String) : (p.nextSnapshot id name).WellFormed := by
  refine ⟨?_, ?_, ?_, ?_, ?_⟩
  · rw [Phase.nextSnapshot_ids]
    exact hp.objects_nodup
  · exact List.nodup_nil
  · intro a ha
    exact absurd ha List.not_mem_nil
  · intro a ha
    exact absurd ha List.not_mem_nil
  · intro owner howner
    exact absurd howner (by simp [Phase.nextSnapshot, Phase.empty])

theorem IsSound.appendPhase [Scalar α] {d : Document α} (hd : d.IsSound) {id : PhaseId}
    (hfresh : id ∉ d.phases.map (·.id)) : (d.appendPhase id).IsSound := by
  obtain ⟨hphases, hnodup, hwell⟩ := (isSound_iff d).mp hd
  obtain ⟨last, hlast⟩ : ∃ last, d.phases.getLast? = some last :=
    Option.isSome_iff_exists.mp (List.getLast?_isSome.mpr hphases)
  simp only [Document.appendPhase, hlast]
  refine (isSound_iff _).mpr ⟨?_, ?_, ?_⟩
  · exact List.append_ne_nil_of_left_ne_nil hphases _
  · exact nodup_map_concat hnodup hfresh
  · intro p hp
    rcases List.mem_append.mp hp with hold | hnew
    · exact hwell p hold
    · rw [List.mem_singleton.mp hnew]
      exact nextSnapshot_wellFormed (hwell last (List.mem_of_getLast? hlast)) id _

theorem removePhase_eq_ok_iff {d next : Document α} {index : ℕ} :
    d.removePhase index = .ok next ↔
      index < d.phases.length ∧ d.phases.length ≠ 1 ∧
        next = { d with phases := d.phases.eraseIdx index } := by
  unfold removePhase
  by_cases hindex : index < d.phases.length
  · by_cases hone : d.phases.length = 1
    · rw [if_pos hindex, if_pos hone]
      simp [hone]
    · simp [hindex, hone, eq_comm]
  · simp [hindex]

theorem IsSound.removePhase {d next : Document α} (hd : d.IsSound) {index : ℕ}
    (h : d.removePhase index = .ok next) : next.IsSound := by
  obtain ⟨hphases, hnodup, hwell⟩ := (isSound_iff d).mp hd
  obtain ⟨hindex, hone, rfl⟩ := removePhase_eq_ok_iff.mp h
  refine (isSound_iff _).mpr ⟨?_, ?_, ?_⟩
  · intro hempty
    have hlength := congrArg List.length hempty
    rw [List.length_eraseIdx_of_lt hindex, List.length_nil] at hlength
    omega
  · exact hnodup.sublist ((List.eraseIdx_sublist d.phases index).map _)
  · exact fun p hp => hwell p ((List.eraseIdx_sublist d.phases index).subset hp)

end Document

/-! ## Histories -/

/-- What every edit preserves when it is accepted is preserved by a history. -/
theorem runEdits_preserves {ε σ ρ : Type} {apply : ε → σ → Except ρ σ} {P : σ → Prop}
    {edits : List ε} (hstep : ∀ e ∈ edits, ∀ s t, P s → apply e s = .ok t → P t) {s : σ} (hs : P s) :
    P (runEdits apply edits s) := by
  induction edits generalizing s with
  | nil => exact hs
  | cons e rest ih =>
      rw [List.forall_mem_cons] at hstep
      have hnext : P ((apply e s).toOption.getD s) := by
        cases h : apply e s with
        | error reason => exact hs
        | ok t => exact hstep.1 s t hs h
      exact ih hstep.2 hnext

variable [Scalar α]

namespace DocumentEdit

/-- A phase that is added has a name that the document does not have yet. -/
def MintsFresh (e : DocumentEdit α) (d : Document α) : Prop :=
  match e with
  | appendPhase id => id ∉ d.phases.map (·.id)
  | editPhase .. | replacePhase .. | removePhase .. => True

/-- The document after an edit; one that is refused changes nothing. -/
def after (e : DocumentEdit α) (d : Document α) : Document α :=
  (e.apply d).toOption.getD d

/-- Every phase that is added in the course of a history has a fresh name at that time. -/
def FreshHistory : List (DocumentEdit α) → Document α → Prop
  | [], _ => True
  | e :: rest, d => e.MintsFresh d ∧ FreshHistory rest (e.after d)

instance (e : DocumentEdit α) (d : Document α) : Decidable (e.MintsFresh d) :=
  match e with
  | appendPhase id => inferInstanceAs (Decidable (id ∉ d.phases.map (·.id)))
  | editPhase .. | replacePhase .. | removePhase .. => isTrue trivial

instance decidableFreshHistory :
    (edits : List (DocumentEdit α)) → (d : Document α) → Decidable (FreshHistory edits d)
  | [], _ => isTrue trivial
  | e :: rest, d =>
    have := decidableFreshHistory rest (e.after d)
    inferInstanceAs (Decidable (e.MintsFresh d ∧ FreshHistory rest (e.after d)))

/-- A phase is edited, and then put back. -/
theorem editPhase_eq_ok_iff {index : ℕ} {edit : PhaseEdit α} {d next : Document α} :
    (editPhase index edit).apply d = .ok next ↔
      ∃ p q, d.phases[index]? = some p ∧ edit.apply p = .ok q ∧
        d.replacePhase index q = .ok next := by
  cases hp : d.phases[index]? with
  | none => simp [apply, hp]
  | some p =>
      cases hedit : edit.apply p with
      | error reason => simp [apply, hp, hedit, bind, Except.bind]
      | ok q => simp [apply, hp, hedit, bind, Except.bind]

/-- One edit keeps a document sound. -/
theorem apply_isSound {e : DocumentEdit α} {d next : Document α} (hd : d.IsSound)
    (hfresh : e.MintsFresh d) (h : e.apply d = .ok next) : next.IsSound := by
  cases e with
  | editPhase index edit =>
      obtain ⟨p, q, -, -, hput⟩ := editPhase_eq_ok_iff.mp h
      exact (Document.replacePhase_eq_ok_iff.mp hput).2.1
  | replacePhase index p => exact (Document.replacePhase_eq_ok_iff.mp h).2.1
  | appendPhase id =>
      cases h
      exact hd.appendPhase hfresh
  | removePhase index => exact hd.removePhase h

theorem after_isSound {e : DocumentEdit α} {d : Document α} (hd : d.IsSound)
    (hfresh : e.MintsFresh d) : (e.after d).IsSound := by
  cases h : e.apply d with
  | error reason => simpa [after, h, Except.toOption] using hd
  | ok next => simpa [after, h, Except.toOption] using apply_isSound hd hfresh h

@[simp] theorem runEdits_cons (e : DocumentEdit α) (rest : List (DocumentEdit α)) (d : Document α) :
    runEdits apply (e :: rest) d = runEdits apply rest (e.after d) :=
  rfl

/-- A property of phases is kept by the edit: by what it does to a phase, or by the phase it brings. -/
def Keeps (P : Phase α → Prop) : DocumentEdit α → Prop
  | editPhase _ edit => ∀ p q, P p → edit.apply p = .ok q → P q
  | replacePhase _ p => P p
  | appendPhase id =>
    (∀ name, P (Phase.empty id name)) ∧ ∀ p name, P p → P (p.nextSnapshot id name)
  | removePhase _ => True

section Keeps

variable {P : Phase α → Prop}

theorem Keeps.apply {e : DocumentEdit α} (hkeeps : e.Keeps P) {d next : Document α}
    (hd : ∀ p ∈ d.phases, P p) (h : e.apply d = .ok next) : ∀ p ∈ next.phases, P p := by
  have hput : ∀ {index : ℕ} {q : Phase α}, P q → d.replacePhase index q = .ok next →
      ∀ p ∈ next.phases, P p := by
    intro index q hq hreplace p hp
    obtain ⟨-, -, rfl⟩ := Document.replacePhase_eq_ok_iff.mp hreplace
    rcases List.mem_or_eq_of_mem_set hp with hold | rfl
    · exact hd p hold
    · exact hq
  cases e with
  | editPhase index edit =>
      obtain ⟨p, q, hp, hedit, hback⟩ := editPhase_eq_ok_iff.mp h
      exact hput (hkeeps p q (hd p (List.mem_of_getElem? hp)) hedit) hback
  | replacePhase index q => exact hput hkeeps h
  | appendPhase id =>
      cases h
      intro p hp
      rcases List.mem_append.mp hp with hold | hnew
      · exact hd p hold
      · rw [List.mem_singleton.mp hnew]
        cases hlast : d.phases.getLast? with
        | none => exact hkeeps.1 _
        | some last => exact hkeeps.2 last _ (hd last (List.mem_of_getLast? hlast))
  | removePhase index =>
      obtain ⟨-, -, rfl⟩ := Document.removePhase_eq_ok_iff.mp h
      exact fun p hp => hd p ((List.eraseIdx_sublist d.phases index).subset hp)

/-- What every edit keeps of the phases is so after a history. -/
theorem runEdits_keeps {edits : List (DocumentEdit α)} (hkeeps : ∀ e ∈ edits, e.Keeps P)
    {d : Document α} (hd : ∀ p ∈ d.phases, P p) : ∀ p ∈ (runEdits apply edits d).phases, P p :=
  runEdits_preserves (P := fun d => ∀ p ∈ d.phases, P p)
    (fun e he _ _ hd h => (hkeeps e he).apply hd h) hd

end Keeps

/-- Every document in the course of a history is sound, from the first to the last. -/
theorem runEdits_take_isSound {edits : List (DocumentEdit α)} {d : Document α} (hd : d.IsSound)
    (hfresh : FreshHistory edits d) (n : ℕ) : (runEdits apply (edits.take n) d).IsSound := by
  induction edits generalizing d n with
  | nil => simpa [runEdits] using hd
  | cons e rest ih =>
      cases n with
      | zero => simpa [runEdits] using hd
      | succ n =>
          rw [List.take_succ_cons, runEdits_cons]
          exact ih (after_isSound hd hfresh.1) hfresh.2 n

/-- Editing never breaks a play.  Every document that a history of edits reaches is sound, and in
each of them a phase that was edited can be put back: it keeps its name, and nothing else
changes. -/
theorem runEdits_keeps_isSound {edits : List (DocumentEdit α)} {d : Document α}
    (hd : d.IsSound) (hfresh : FreshHistory edits d) (n : ℕ) :
    (runEdits apply (edits.take n) d).IsSound ∧
      ∀ (index : ℕ) (p q : Phase α) (edit : PhaseEdit α),
        (runEdits apply (edits.take n) d).phases[index]? = some p → edit.apply p = .ok q →
          q.id = p.id ∧
          ∃ next, (runEdits apply (edits.take n) d).replacePhase index q = .ok next ∧
            next.schemaVersion = (runEdits apply (edits.take n) d).schemaVersion ∧
            next.court = (runEdits apply (edits.take n) d).court ∧
            next.phases[index]? = some q ∧
            ∀ other, other ≠ index →
              next.phases[other]? = (runEdits apply (edits.take n) d).phases[other]? := by
  have hreached := runEdits_take_isSound hd hfresh n
  refine ⟨hreached, fun index p q edit hp hedit => ?_⟩
  refine ⟨PhaseEdit.apply_id hedit, _, hreached.replacePhase_edited hp hedit, rfl, rfl, ?_, ?_⟩
  · exact List.getElem?_set_self (List.getElem?_eq_some_iff.mp hp).1
  · exact fun other hother => List.getElem?_set_ne hother.symm

/-- The receiver of a pass is removed after the next phase was added. -/
theorem runEdits_keeps_isSound_removedReceiver :
    let p₁ : CourtObject Float := CourtObject.new ⟨"P1"⟩ .offensePlayer ⟨500, 700⟩
    let p₂ : CourtObject Float := CourtObject.new ⟨"P2"⟩ .offensePlayer ⟨250, 500⟩
    let pass : Action Float :=
      ((Action.freehand ⟨"a1"⟩ .pass ⟨500, 700⟩ ⟨250, 500⟩).performedBy ⟨"P1"⟩).receivedBy ⟨"P2"⟩
    let edits : List (DocumentEdit Float) :=
      [editPhase 0 (.addObject p₁), editPhase 0 (.addObject p₂), editPhase 0 (.addAction pass),
        appendPhase ⟨"phase-2"⟩, editPhase 0 (.removeObject ⟨"P2"⟩), removePhase 1]
    Document.IsSound (Document.empty : Document Float) ∧ FreshHistory edits Document.empty ∧
      (runEdits apply (edits.take 6) Document.empty).IsSound ∧
      ∃ p q next,
        (runEdits apply (edits.take 4) Document.empty).phases[0]? = some p ∧
        p.removeObject ⟨"P2"⟩ = .ok q ∧
        (runEdits apply (edits.take 4) Document.empty).replacePhase 0 q = .ok next ∧
        next.phases[1]? = (runEdits apply (edits.take 4) Document.empty).phases[1]? := by
  intro p₁ p₂ pass edits
  have hempty : Document.IsSound (Document.empty : Document Float) := by decide
  have hfresh : FreshHistory edits Document.empty := by decide
  have hremoved :
      (((runEdits apply (edits.take 4) Document.empty).phases[0]?.bind fun p =>
        (p.removeObject ⟨"P2"⟩).toOption).isSome) = true := by decide
  obtain ⟨q, hbind⟩ := Option.isSome_iff_exists.mp hremoved
  obtain ⟨p, hp, hoption⟩ := Option.bind_eq_some_iff.mp hbind
  have hq : p.removeObject ⟨"P2"⟩ = .ok q := by
    cases hresult : p.removeObject ⟨"P2"⟩ with
    | error reason => simp [hresult, Except.toOption] at hoption
    | ok result => simpa [hresult, Except.toOption] using hoption
  obtain ⟨-, next, hnext, -, -, -, hothers⟩ :=
    (runEdits_keeps_isSound hempty hfresh 4).2 0 p q (.removeObject ⟨"P2"⟩) hp hq
  exact ⟨hempty, hfresh, (runEdits_keeps_isSound hempty hfresh 6).1, p, q, next, hp, hq, hnext,
    hothers 1 (by decide)⟩

end DocumentEdit

end PlayDiagram
