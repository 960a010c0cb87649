import PlayDiagram.Proofs.Play.PhaseEdits

/-!
# The first player of a phase

In a fresh phase the first player that is added gets the ball.  This happens once: an edit looks only at
the phase as it is, but a phase that has said who has the ball never goes back to inheriting
(`EditsLead.ballOwner_of_owner`, `EditsLead.ballOwner_of_nobody`).  Who has the ball after a history of
edits can therefore be read off the edits that were accepted (`runEdits_ballOwner_iff`).
-/

namespace PlayDiagram

/-! ## Accepted edits -/

section Accepted

variable {ε σ ρ : Type} (apply : ε → σ → Except ρ σ)

/-- The edits of a history that are accepted, in order. -/
def acceptedEdits : List ε → σ → List ε
  | [], _ => []
  | e :: rest, s =>
    match apply e s with
    | .ok next => e :: acceptedEdits rest next
    | .error _ => acceptedEdits rest s

/-- Edits that are accepted one after another lead from one state to another. -/
inductive EditsLead : σ → List ε → σ → Prop
  | nil (s : σ) : EditsLead s [] s
  | cons {e : ε} {rest : List ε} {s next t : σ} (hstep : apply e s = .ok next)
      (hrest : EditsLead next rest t) : EditsLead s (e :: rest) t

variable {apply}

/-- What is refused changes nothing: the accepted edits lead where the whole history does. -/
theorem acceptedEdits_lead (edits : List ε) (s : σ) :
    EditsLead apply s (acceptedEdits apply edits s) (runEdits apply edits s) := by
  induction edits generalizing s with
  | nil => exact .nil s
  | cons e rest ih =>
      unfold acceptedEdits runEdits
      rw [List.foldl_cons]
      cases hstep : apply e s with
      | ok next => exact .cons hstep (ih next)
      | error reason => exact ih s

theorem mem_of_mem_acceptedEdits {edits : List ε} {s : σ} {e : ε}
    (he : e ∈ acceptedEdits apply edits s) : e ∈ edits := by
  induction edits generalizing s with
  | nil => exact he
  | cons first rest ih =>
      unfold acceptedEdits at he
      cases hstep : apply first s with
      | ok next =>
          rw [hstep] at he
          rcases List.mem_cons.mp he with rfl | he
          · exact List.mem_cons_self
          · exact List.mem_cons_of_mem first (ih he)
      | error reason =>
          rw [hstep] at he
          exact List.mem_cons_of_mem first (ih he)

theorem EditsLead.of_append {before after : List ε} {s t : σ}
    (h : EditsLead apply s (before ++ after) t) :
    ∃ u, EditsLead apply s before u ∧ EditsLead apply u after t := by
  induction before generalizing s with
  | nil => exact ⟨s, .nil s, h⟩
  | cons e rest ih =>
      cases h with
      | cons hstep hrest =>
          obtain ⟨u, hbefore, hafter⟩ := ih hrest
          exact ⟨u, .cons hstep hbefore, hafter⟩

end Accepted

variable {α : Type}

namespace PhaseEdit

/-- Whether the edit adds a player. -/
def addsPlayer : PhaseEdit α → Bool
  | addObject o => o.kind.isPlayer
  | _ => false

/-- Whether the edit says who has the ball. -/
def setsOwner : PhaseEdit α → Bool
  | setOwner _ => true
  | _ => false

/-- The owner that a phase has after an edit. -/
def ownerAfter (e : PhaseEdit α) (p : Phase α) : BallOwner :=
  match e with
  | addObject o => p.ownerAfterAdding o
  | removeObject id => if p.ballOwner = .owner id then .nobody else p.ballOwner
  | setOwner owner => owner
  | moveObject .. | addAction .. | replaceAction .. | removeAction .. => p.ballOwner

end PhaseEdit

namespace Phase

/-- Nobody was given the ball: the phase inherits its owner, and has no player. -/
structure Unclaimed (p : Phase α) : Prop where
  inherits : p.ballOwner = .inherit
  no_player : ∀ o ∈ p.objects, o.kind.isPlayer = false

theorem unclaimed_empty (id : PhaseId) (name : String) : (empty id name : Phase α).Unclaimed :=
  ⟨rfl, fun _ ho => absurd ho List.not_mem_nil⟩

theorem firstPlayer?_isNone_iff {p : Phase α} :
    p.firstPlayer?.isNone = true ↔ ∀ o ∈ p.objects, o.kind.isPlayer = false := by
  rw [Option.isNone_iff_eq_none, firstPlayer?, List.find?_eq_none]
  simp

theorem Unclaimed.ownerAfterAdding {p : Phase α} (hp : p.Unclaimed) (o : CourtObject α) :
    p.ownerAfterAdding o = if o.kind.isPlayer then .owner o.id else .inherit := by
  have hfirst : p.firstPlayer?.isNone = true := firstPlayer?_isNone_iff.mpr hp.no_player
  simp [Phase.ownerAfterAdding, hp.inherits, hfirst]

theorem ownerAfterAdding_of_ne_inherit {p : Phase α} (hp : p.ballOwner ≠ .inherit)
    (o : CourtObject α) : p.ownerAfterAdding o = p.ballOwner := by
  simp [ownerAfterAdding, hp]

end Phase

variable [Scalar α]

/-! ## One edit -/

namespace PhaseEdit

variable {e : PhaseEdit α} {p q : Phase α} (h : e.apply p = .ok q) (hsets : e.setsOwner = false)

include h

/-- Every object after an edit has the kind of one before it, or was added. -/
theorem apply_kind {o : CourtObject α} (ho : o ∈ q.objects) :
    (∃ before ∈ p.objects, before.kind = o.kind) ∨
      ∃ added, e = addObject added ∧ added.kind = o.kind := by
  rcases mem_objects_of_apply h ho with hold | ⟨added, rfl, rfl⟩ | ⟨before, hbefore, -, -, -, rfl⟩
  · exact Or.inl ⟨o, hold, rfl⟩
  · exact Or.inr ⟨added, rfl, rfl⟩
  · exact Or.inl ⟨before, hbefore, rfl⟩

theorem apply_ballOwner : q.ballOwner = e.ownerAfter p := by
  cases e with
  | addObject o => rw [(Phase.addObject_eq_ok_iff.mp h).2, ownerAfter]
  | removeObject id => rw [(Phase.removeObject_eq_ok_iff.mp h).2, ownerAfter]
  | moveObject id position => rw [(Phase.moveObject_eq_ok_iff.mp h).2, ownerAfter]
  | setOwner owner => rw [(Phase.setOwner_eq_ok_iff.mp h).2, ownerAfter]
  | addAction a => rw [(Phase.addAction_eq_ok_iff.mp h).2.2, ownerAfter]
  | replaceAction a => rw [(Phase.replaceAction_eq_ok_iff.mp h).2.2, ownerAfter]
  | removeAction id => rw [(Phase.removeAction_eq_ok_iff.mp h).2, ownerAfter]

include hsets

theorem apply_unclaimed (hp : p.Unclaimed) (hadds : e.addsPlayer = false) : q.Unclaimed := by
  constructor
  · rw [apply_ballOwner h]
    cases e with
    | addObject o =>
        have hplayer : o.kind.isPlayer = false := hadds
        simp [ownerAfter, hp.ownerAfterAdding, hplayer]
    | removeObject id => simp [ownerAfter, hp.inherits]
    | setOwner owner => cases hsets
    | _ => exact hp.inherits
  · intro o ho
    rcases apply_kind h ho with ⟨before, hbefore, hkind⟩ | ⟨added, rfl, hkind⟩
    · rw [← hkind, hp.no_player before hbefore]
    · rw [← hkind]
      exact hadds

theorem apply_ballOwner_of_nobody (hp : p.ballOwner = .nobody) : q.ballOwner = .nobody := by
  rw [apply_ballOwner h]
  cases e with
  | addObject o => simp [ownerAfter, Phase.ownerAfterAdding_of_ne_inherit, hp]
  | removeObject id => simp [ownerAfter, hp]
  | setOwner owner => cases hsets
  | _ => exact hp

/-- An object that has the ball keeps it until it is removed; then nobody has it. -/
theorem apply_ballOwner_of_owner {id : ObjectId} (hp : p.ballOwner = .owner id) :
    e = removeObject id ∧ q.ballOwner = .nobody ∨
      e ≠ removeObject id ∧ q.ballOwner = .owner id := by
  rw [apply_ballOwner h]
  cases e with
  | addObject o => simp [ownerAfter, Phase.ownerAfterAdding_of_ne_inherit, hp]
  | removeObject other =>
      by_cases hother : id = other
      · simp [ownerAfter, hp, hother]
      · simp [ownerAfter, hp, hother, Ne.symm hother]
  | setOwner owner => cases hsets
  | _ => simp [ownerAfter, hp]

end PhaseEdit

/-! ## Histories -/

namespace EditsLead

open PhaseEdit

variable {edits : List (PhaseEdit α)} {s t : Phase α} (h : EditsLead PhaseEdit.apply s edits t)
  (hsets : ∀ e ∈ edits, e.setsOwner = false)

include h hsets

theorem unclaimed (hs : s.Unclaimed) (hadds : ∀ e ∈ edits, e.addsPlayer = false) :
    t.Unclaimed := by
  induction h with
  | nil => exact hs
  | cons hstep _ ih =>
      rw [List.forall_mem_cons] at hsets hadds
      exact ih hsets.2 (apply_unclaimed hstep hsets.1 hs hadds.1) hadds.2

theorem ballOwner_of_nobody (hs : s.ballOwner = .nobody) : t.ballOwner = .nobody := by
  induction h with
  | nil => exact hs
  | cons hstep _ ih =>
      rw [List.forall_mem_cons] at hsets
      exact ih hsets.2 (apply_ballOwner_of_nobody hstep hsets.1 hs)

/-- An object that has the ball has it at the end, unless it was removed; then nobody has it. -/
theorem ballOwner_of_owner {id : ObjectId} (hs : s.ballOwner = .owner id) :
    removeObject id ∈ edits ∧ t.ballOwner = .nobody ∨
      removeObject id ∉ edits ∧ t.ballOwner = .owner id := by
  induction h with
  | nil => exact Or.inr ⟨List.not_mem_nil, hs⟩
  | @cons e rest s next t hstep hrest ih =>
      rw [List.forall_mem_cons] at hsets
      rcases apply_ballOwner_of_owner hstep hsets.1 hs with ⟨rfl, hnobody⟩ | ⟨hkeeps, howner⟩
      · exact Or.inl ⟨List.mem_cons_self, hrest.ballOwner_of_nobody hsets.2 hnobody⟩
      · rcases ih hsets.2 howner with ⟨hmem, hnobody⟩ | ⟨hmem, howner⟩
        · exact Or.inl ⟨List.mem_cons_of_mem e hmem, hnobody⟩
        · refine Or.inr ⟨?_, howner⟩
          rw [List.mem_cons, not_or]
          exact ⟨hkeeps.symm, hmem⟩

/-- The first player that is added to an unclaimed phase has the ball at the end, unless it was removed
later. -/
theorem ballOwner_of_firstPlayer {before after : List (PhaseEdit α)} {p : CourtObject α}
    (hs : s.Unclaimed) (hedits : edits = before ++ addObject p :: after)
    (hplayer : p.kind.isPlayer = true) (hbefore : ∀ e ∈ before, e.addsPlayer = false) :
    removeObject p.id ∈ after ∧ t.ballOwner = .nobody ∨
      removeObject p.id ∉ after ∧ t.ballOwner = .owner p.id := by
  subst hedits
  rw [List.forall_mem_append, List.forall_mem_cons] at hsets
  obtain ⟨u, hlead, hrest⟩ := h.of_append
  have hunclaimed := hlead.unclaimed hsets.1 hs hbefore
  cases hrest with
  | cons hstep hafter =>
      apply hafter.ballOwner_of_owner hsets.2.2
      rw [apply_ballOwner hstep, ownerAfter, hunclaimed.ownerAfterAdding, if_pos hplayer]

end EditsLead

/-- The list has a first element that passes a test, unless none does. -/
theorem exists_first_of_not_forall {β : Type} {test : β → Bool} {l : List β}
    (hl : ¬∀ x ∈ l, test x = false) :
    ∃ before x after, l = before ++ x :: after ∧ test x = true ∧ ∀ y ∈ before, test y = false := by
  cases hfound : l.find? test with
  | none =>
      rw [List.find?_eq_none] at hfound
      exact absurd (fun x hx => Bool.eq_false_iff.mpr (hfound x hx)) hl
  | some x =>
      obtain ⟨htest, before, after, rfl, hbefore⟩ := List.find?_eq_some_iff_append.mp hfound
      exact ⟨before, x, after, rfl, htest, fun y hy => by simpa using hbefore y hy⟩

namespace PhaseEdit

/-- Who has the ball in a phase that was empty, after a history of edits none of which says it: the phase
inherits its owner as long as no player was added, and from then on the first player that was added
has the ball until it is removed.  Then nobody has it, even if that player is added again. -/
theorem runEdits_ballOwner_iff {edits : List (PhaseEdit α)}
    (hsets : ∀ e ∈ edits, e.setsOwner = false) (id : PhaseId) (name : String) :
    let start : Phase α := Phase.empty id name
    let accepted := acceptedEdits apply edits start
    let reached := runEdits apply edits start
    (reached.ballOwner = .inherit ↔ ∀ e ∈ accepted, e.addsPlayer = false) ∧
    ∀ before p after, accepted = before ++ addObject p :: after → p.kind.isPlayer = true →
      (∀ e ∈ before, e.addsPlayer = false) →
      (reached.ballOwner = .owner p.id ↔ removeObject p.id ∉ after) ∧
      (reached.ballOwner = .nobody ↔ removeObject p.id ∈ after) := by
  intro start accepted reached
  have hlead : EditsLead apply start accepted reached := acceptedEdits_lead edits start
  have haccepted : ∀ e ∈ accepted, e.setsOwner = false := fun e he =>
    hsets e (mem_of_mem_acceptedEdits he)
  have hstart : start.Unclaimed := Phase.unclaimed_empty id name
  constructor
  · constructor
    · intro hinherit
      by_contra hadds
      obtain ⟨before, e, after, hedits, hadds, hbefore⟩ := exists_first_of_not_forall hadds
      cases e with
      | addObject p =>
          rcases hlead.ballOwner_of_firstPlayer haccepted hstart hedits hadds hbefore with
            ⟨-, howner⟩ | ⟨-, howner⟩
          all_goals
            rw [hinherit] at howner
            cases howner
      | _ => cases hadds
    · exact fun hadds => (hlead.unclaimed haccepted hstart hadds).inherits
  · intro before p after hedits hplayer hbefore
    rcases hlead.ballOwner_of_firstPlayer haccepted hstart hedits hplayer hbefore with
      ⟨hremoved, howner⟩ | ⟨hkept, howner⟩
    · rw [howner]
      simp [hremoved]
    · rw [howner]
      simp [hkept]

/-- The first player is refused a second time, removed and added again, after a ball and before another
player. -/
theorem runEdits_ballOwner_iff_addedAgain :
    let player (name : String) : CourtObject Float := .new ⟨name⟩ .offensePlayer ⟨500, 500⟩
    let ball : CourtObject Float := .new ⟨"b"⟩ .ball ⟨250, 0⟩
    let edits : List (PhaseEdit Float) :=
      [addObject ball, addObject (player "o1"), addObject (player "o1"), addObject (player "o2"),
        removeObject ⟨"o1"⟩, removeObject ⟨"o1"⟩, addObject (player "o1")]
    (∀ e ∈ edits, e.setsOwner = false) ∧
    (runEdits apply (edits.take 4) (Phase.empty ⟨"p"⟩ "Start")).ballOwner = .owner ⟨"o1"⟩ ∧
    (runEdits apply edits (Phase.empty ⟨"p"⟩ "Start")).ballOwner = .nobody := by
  intro player ball edits
  have hsets : ∀ e ∈ edits, e.setsOwner = false := by decide
  have hsets' : ∀ e ∈ edits.take 4, e.setsOwner = false := fun e he =>
    hsets e (List.mem_of_mem_take he)
  have haccepted : acceptedEdits apply (edits.take 4) (Phase.empty ⟨"p"⟩ "Start") =
      [addObject ball] ++ addObject (player "o1") :: [addObject (player "o2")] := by rfl
  have haccepted' : acceptedEdits apply edits (Phase.empty ⟨"p"⟩ "Start") =
      [addObject ball] ++ addObject (player "o1") ::
        [addObject (player "o2"), removeObject ⟨"o1"⟩, addObject (player "o1")] := by rfl
  obtain ⟨-, hfirst⟩ := runEdits_ballOwner_iff hsets' ⟨"p"⟩ "Start"
  obtain ⟨-, hfirst'⟩ := runEdits_ballOwner_iff hsets ⟨"p"⟩ "Start"
  refine ⟨hsets, (hfirst _ _ _ haccepted rfl ?_).1.mpr ?_, (hfirst' _ _ _ haccepted' rfl ?_).2.mpr ?_⟩
  · simp [addsPlayer, ball, CourtObject.new, ObjectKind.isPlayer]
  · simp
  · simp [addsPlayer, ball, CourtObject.new, ObjectKind.isPlayer]
  · simp [player, CourtObject.new]

end PhaseEdit

end PlayDiagram
