import PlayDiagram.Proofs.Play.FirstOwner
import PlayDiagram.Proofs.Play.RemovedObjects

/-!
# Undoing additions

An action that was added is removed without a trace.  So is an object, with all that edits have attached to
it since: `Phase.Attached` says what a phase is as long as every edit concerns the added object only.  What
can be left is that nobody has the ball, where the object got it when it was added
(`Phase.removal_undoes_addition`).
-/

namespace PlayDiagram

/-- What does not pass the test stays in front. -/
theorem replaceFirst_append_of_forall_not {β : Type} {test : β → Bool} {f : β → β} {l : List β}
    (hl : ∀ x ∈ l, test x = false) (m : List β) :
    replaceFirst test f (l ++ m) = l ++ replaceFirst test f m := by
  induction l with
  | nil => rfl
  | cons x rest ih =>
      rw [List.forall_mem_cons] at hl
      rw [List.cons_append, replaceFirst, hl.1, if_neg Bool.false_ne_true, ih hl.2, List.cons_append]

variable {α : Type}

theorem Action.references_iff {a : Action α} {id : ObjectId} :
    a.references id = true ↔ a.performer = some id ∨ a.receiver = some id := by
  simp [references]

namespace PhaseEdit

/-! ## Edits that concern one object -/

/-- The edit moves the object, or it brings an action that names the object: a new one, or one in the
place of an action that was added before. -/
def ConcernsOnly (id : ObjectId) (added : List ActionId) : PhaseEdit α → Prop
  | moveObject other _ => other = id
  | addAction a => a.references id = true
  | replaceAction a => a.references id = true ∧ a.id ∈ added
  | addObject _ | removeObject _ | setOwner _ | removeAction _ => False

/-- The name of the action that the edit adds. -/
def addedAction? : PhaseEdit α → Option ActionId
  | addAction a => some a.id
  | _ => none

/-- Every edit of a list concerns the object only.  Actions of the given names were added before. -/
def ConcernOnly (id : ObjectId) : List ActionId → List (PhaseEdit α) → Prop
  | _, [] => True
  | added, e :: rest =>
    e.ConcernsOnly id added ∧ ConcernOnly id (e.addedAction?.toList ++ added) rest

instance (id : ObjectId) (added : List ActionId) (e : PhaseEdit α) :
    Decidable (e.ConcernsOnly id added) :=
  match e with
  | moveObject other _ => inferInstanceAs (Decidable (other = id))
  | addAction a => inferInstanceAs (Decidable (a.references id = true))
  | replaceAction a => inferInstanceAs (Decidable (a.references id = true ∧ a.id ∈ added))
  | addObject _ | removeObject _ | setOwner _ | removeAction _ => inferInstanceAs (Decidable False)

instance decidableConcernOnly (id : ObjectId) :
    (added : List ActionId) → (edits : List (PhaseEdit α)) → Decidable (ConcernOnly id added edits)
  | _, [] => isTrue trivial
  | added, e :: rest =>
    have := decidableConcernOnly id (e.addedAction?.toList ++ added) rest
    inferInstanceAs
      (Decidable (e.ConcernsOnly id added ∧ ConcernOnly id (e.addedAction?.toList ++ added) rest))

end PhaseEdit

namespace Phase

/-! ## What is attached to an object -/

/-- The phase is another one with an object at the end of its objects, and at the end of its actions some
that name the object.  The `added` names are no names of the actions before those. -/
inductive Attached (p : Phase α) (id : ObjectId) (owner : BallOwner) (added : List ActionId) :
    Phase α → Prop
  | mk {o : CourtObject α} {actions : List (Action α)} (hid : o.id = id)
      (hnames : ∀ a ∈ actions, a.references id = true)
      (hadded : ∀ key ∈ added, key ∉ p.actions.map (·.id)) :
      Attached p id owner added
        { p with
          objects := p.objects ++ [o]
          actions := p.actions ++ actions
          ballOwner := owner }

variable {p q r : Phase α} {id : ObjectId} {owner : BallOwner} {added : List ActionId}

/-- An action that was just added is removed without a trace. -/
theorem removeAction_of_addAction {a : Action α} (h : p.addAction a = .ok q) :
    q.removeAction a.id = .ok p := by
  obtain ⟨hnew, -, rfl⟩ := addAction_eq_ok_iff.mp h
  have hothers : p.actions.filter (fun b => decide (b.id ≠ a.id)) = p.actions := by
    refine List.filter_eq_self.mpr fun b hb => decide_eq_true fun heq => ?_
    exact notMem_of_containsAction hnew (heq ▸ List.mem_map_of_mem hb)
  refine removeAction_eq_ok_iff.mpr ⟨containsAction_iff.mpr (by simp), ?_⟩
  simp only [List.filter_append, hothers]
  simp

section Edits

variable [Scalar α]

theorem Attached.of_addObject {o : CourtObject α} (h : p.addObject o = .ok q) :
    p.Attached o.id q.ballOwner [] q := by
  obtain ⟨-, rfl⟩ := addObject_eq_ok_iff.mp h
  have hattached : p.Attached o.id (p.ownerAfterAdding o) []
      { p with
        objects := p.objects ++ [{ o with position := o.position.clamped }]
        actions := p.actions ++ []
        ballOwner := p.ownerAfterAdding o } :=
    .mk rfl (by simp) (by simp)
  rw [List.append_nil] at hattached
  exact hattached

/-- An edit that concerns the object only changes what is attached, and nothing that was there before. -/
theorem Attached.apply {e : PhaseEdit α} (hfresh : id ∉ p.objects.map (·.id))
    (hq : p.Attached id owner added q) (hconcerns : e.ConcernsOnly id added)
    (h : e.apply q = .ok r) : p.Attached id owner (e.addedAction?.toList ++ added) r := by
  obtain @⟨o, actions, hid, hnames, hadded⟩ := hq
  cases e with
  | moveObject other position =>
      obtain rfl : other = id := hconcerns
      obtain ⟨-, rfl⟩ := moveObject_eq_ok_iff.mp h
      have hothers : ∀ o ∈ p.objects, decide (o.id = other) = false := by
        intro o ho
        exact decide_eq_false fun heq => hfresh (heq ▸ List.mem_map_of_mem ho)
      have hmoved : replaceFirst (fun o => decide (o.id = other))
          (fun o => { o with position := position.clamped }) [o] =
          [{ o with position := position.clamped }] :=
        if_pos (decide_eq_true hid)
      simp only [replaceFirst_append_of_forall_not hothers, hmoved]
      exact .mk hid hnames hadded
  | addAction a =>
      obtain ⟨hnew, -, rfl⟩ := addAction_eq_ok_iff.mp h
      have hnotin : a.id ∉ (p.actions ++ actions).map (·.id) :=
        notMem_of_containsAction hnew
      simp only [List.append_assoc]
      refine .mk hid ?_ ?_
      · intro b hb
        rcases List.mem_append.mp hb with hold | hlast
        · exact hnames b hold
        · rw [List.mem_singleton.mp hlast]
          exact hconcerns
      · intro key hkey
        rcases List.mem_cons.mp hkey with rfl | hkey
        · rw [List.map_append, List.mem_append, not_or] at hnotin
          exact hnotin.1
        · exact hadded key hkey
  | replaceAction a =>
      obtain ⟨hname, hmem⟩ := hconcerns
      obtain ⟨-, -, rfl⟩ := replaceAction_eq_ok_iff.mp h
      have hothers : ∀ b ∈ p.actions, decide (b.id = a.id) = false := by
        intro b hb
        exact decide_eq_false fun heq => hadded a.id hmem (heq ▸ List.mem_map_of_mem hb)
      simp only [replaceFirst_append_of_forall_not hothers]
      refine .mk hid (fun b hb => ?_) hadded
      rcases mem_of_mem_replaceFirst hb with hold | ⟨-, -, rfl⟩
      · exact hnames b hold
      · exact hname
  | addObject o => exact hconcerns.elim
  | removeObject other => exact hconcerns.elim
  | setOwner other => exact hconcerns.elim
  | removeAction key => exact hconcerns.elim

/-- A run of such edits leaves what was there before as it was. -/
theorem Attached.of_editsLead {edits : List (PhaseEdit α)} (hfresh : id ∉ p.objects.map (·.id))
    (hq : p.Attached id owner added q) (hconcern : PhaseEdit.ConcernOnly id added edits)
    (h : EditsLead PhaseEdit.apply q edits r) : ∃ names, p.Attached id owner names r := by
  induction h generalizing added with
  | nil => exact ⟨added, hq⟩
  | cons hstep _ ih => exact ih (hq.apply hfresh hconcern.1 hstep) hconcern.2

end Edits

/-- With the object, everything goes that was attached to it. -/
theorem Attached.removeObject (hp : ¬p.Mentions id) (hr : p.Attached id owner added r) :
    r.removeObject id =
      .ok { p with ballOwner := if owner = .owner id then .nobody else owner } := by
  obtain @⟨o, actions, hid, hnames, -⟩ := hr
  have hkept : p.without [id] = p :=
    p.without_of_not_mentions [id] fun other hother => List.mem_singleton.mp hother ▸ hp
  have hobjects : (p.objects ++ [o]).filter (fun o => o.id ∉ [id]) = p.objects := by
    have hnone : [o].filter (fun o => o.id ∉ [id]) = [] := by simp [hid]
    rw [List.filter_append, hnone, List.append_nil]
    exact congrArg Phase.objects hkept
  have hactions : (p.actions ++ actions).filter (fun a =>
      ∀ id' ∈ [id], a.performer ≠ some id' ∧ a.receiver ≠ some id') = p.actions := by
    have hnone : actions.filter (fun a =>
        ∀ id' ∈ [id], a.performer ≠ some id' ∧ a.receiver ≠ some id') = [] := by
      refine List.filter_eq_nil_iff.mpr fun a ha hkeeps => ?_
      obtain ⟨hperformer, hreceiver⟩ := of_decide_eq_true hkeeps id List.mem_cons_self
      rcases Action.references_iff.mp (hnames a ha) with h | h
      · exact hperformer h
      · exact hreceiver h
    rw [List.filter_append, hnone, List.append_nil]
    exact congrArg Phase.actions hkept
  rw [removeObject_eq _ (containsObject_iff.mpr (by simp [hid]))]
  unfold without
  dsimp only
  rw [hobjects, hactions]
  simp only [List.map_singleton, List.mem_singleton]

/-- An object gets the ball when it is added exactly if it is a player and the phase is unclaimed. -/
theorem ownerAfterAdding_eq_owner_iff {o : CourtObject α} (howner : p.ballOwner ≠ .owner o.id) :
    p.ownerAfterAdding o = .owner o.id ↔
      o.kind.isPlayer = true ∧ p.ballOwner = .inherit ∧ ∀ x ∈ p.objects, x.kind.isPlayer = false := by
  rw [← firstPlayer?_isNone_iff]
  unfold ownerAfterAdding
  split
  · next hunclaimed => exact iff_of_true rfl hunclaimed
  · next hclaimed => exact iff_of_false howner hclaimed

/-- Removing undoes adding.  An action that was just added is removed without a trace.  An object that was
added is removed without a trace together with all that was attached to it since, while it was moved and
actions that name it were added and replaced by such; but if it got the ball when it was added, as the first
player of a phase that inherited its owner, nobody has the ball in the end. -/
theorem removal_undoes_addition [Scalar α] {p : Phase α} (hp : p.defect? = none) :
    (∀ (a : Action α) (q : Phase α), p.addAction a = .ok q → q.removeAction a.id = .ok p) ∧
    ∀ (o : CourtObject α) (q : Phase α), p.addObject o = .ok q →
      (q.ballOwner = .owner o.id ↔
        o.kind.isPlayer = true ∧ p.ballOwner = .inherit ∧ ∀ x ∈ p.objects, x.kind.isPlayer = false) ∧
      ∀ (edits : List (PhaseEdit α)) (r : Phase α), PhaseEdit.ConcernOnly o.id [] edits →
        EditsLead PhaseEdit.apply q edits r →
          r.removeObject o.id =
            .ok (if q.ballOwner = .owner o.id then { p with ballOwner := .nobody } else p) := by
  have hwell : p.WellFormed := (defect?_eq_none_iff p).mp hp
  constructor
  · intro a q hq
    exact removeAction_of_addAction hq
  · intro o q hq
    obtain ⟨hnew, hadded⟩ := addObject_eq_ok_iff.mp hq
    have howner : q.ballOwner = p.ownerAfterAdding o := by rw [hadded]
    have hmentions : ¬p.Mentions o.id := fun h => by
      rw [hwell.containsObject_of_mentions h] at hnew
      cases hnew
    refine ⟨?_, fun edits r hconcern hlead => ?_⟩
    · rw [howner]
      exact ownerAfterAdding_eq_owner_iff fun h => hmentions (.owner h)
    · obtain ⟨names, hattached⟩ := (Attached.of_addObject hq).of_editsLead
        (notMem_of_containsObject hnew) hconcern hlead
      rw [hattached.removeObject hmentions, howner]
      rcases p.ownerAfterAdding_cases o with hgets | hkeeps
      · rw [if_pos hgets, if_pos hgets]
      · have hother : p.ownerAfterAdding o ≠ .owner o.id :=
          hkeeps ▸ fun h => hmentions (.owner h)
        rw [if_neg hother, if_neg hother, hkeeps]

/-- The first player is added beside a ball, moved off the court, and attached to the ball by two passes the
first of which is turned round; then it is removed. -/
theorem removal_undoes_addition_firstPlayer :
    let ball : CourtObject Float := .new ⟨"b"⟩ .ball ⟨500, 500⟩
    let player : CourtObject Float := .new ⟨"P1"⟩ .offensePlayer ⟨500, 700⟩
    let pass (id performer receiver : String) : Action Float :=
      ((Action.freehand ⟨id⟩ .pass ⟨500, 700⟩ ⟨250, 500⟩).performedBy ⟨performer⟩).receivedBy ⟨receiver⟩
    let p : Phase Float :=
      { id := ⟨"p1"⟩
        name := "Entry"
        objects := [ball]
        actions := [pass "a1" "b" "b"]
        ballOwner := .inherit }
    let edits : List (PhaseEdit Float) :=
      [.addAction (pass "a2" "P1" "b"), .moveObject ⟨"P1"⟩ ⟨-40, 4000⟩,
        .addAction (pass "a3" "P1" "P1"), .replaceAction (pass "a2" "b" "P1")]
    let q : Phase Float := { p with objects := [ball, player], ballOwner := .owner ⟨"P1"⟩ }
    let r := runEdits PhaseEdit.apply edits q
    p.defect? = none ∧ PhaseEdit.ConcernOnly ⟨"P1"⟩ [] edits ∧
      (∃ next, p.addAction (pass "a2" "b" "b") = .ok next ∧ next.removeAction ⟨"a2"⟩ = .ok p) ∧
      p.addObject player = .ok q ∧ EditsLead PhaseEdit.apply q edits r ∧
      r.actions = [pass "a1" "b" "b", pass "a2" "b" "P1", pass "a3" "P1" "P1"] ∧
      r.removeObject ⟨"P1"⟩ = .ok { p with ballOwner := .nobody } := by
  intro ball player pass p edits q r
  have hp : p.defect? = none := by decide
  have hconcern : PhaseEdit.ConcernOnly ⟨"P1"⟩ [] edits := by decide
  have hadded : p.addObject player = .ok q := by decide
  have haccepted : acceptedEdits PhaseEdit.apply edits q = edits := rfl
  have hlead : EditsLead PhaseEdit.apply q edits r := haccepted ▸ acceptedEdits_lead edits q
  obtain ⟨hundone, hremoved⟩ := removal_undoes_addition hp
  obtain ⟨-, hgone⟩ := hremoved player q hadded
  exact ⟨hp, hconcern, ⟨_, rfl, hundone (pass "a2" "b" "b") _ rfl⟩, hadded, hlead, rfl,
    (hgone edits r hconcern hlead).trans (congrArg Except.ok (if_pos rfl))⟩

end Phase

end PlayDiagram
