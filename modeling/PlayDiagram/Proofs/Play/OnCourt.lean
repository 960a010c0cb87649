import PlayDiagram.Proofs.Number.DoubleSum
import PlayDiagram.Proofs.Wire.SavedEdits

/-!
# Staying on the court

Where an object stands is recorded on the court, whoever writes it: an edit that puts an object somewhere
clamps the point, and so does the phase that follows another one, which takes its points from where actions
end.  Actions themselves may end anywhere.  Only what is no number is left where it is by clamping
(`Point.clamped_isOnCourt_iff`), so that a history which supplies numbers keeps every object on the court
(`DocumentEdit.runEdits_onCourt`).
-/

namespace PlayDiagram

/-- A value is clamped to one between the bounds exactly if it is a number. -/
theorem float_clamp_between_iff {low high : Float} (hbounds : low ≤ high) (x : Float) :
    (low ≤ Scalar.clamp low high x ∧ Scalar.clamp low high x ≤ high) ↔ x.isNaN = false := by
  constructor
  · rintro ⟨-, hclamp⟩
    refine Bool.eq_false_iff.mpr fun hnan => ?_
    rw [clamp_of_isNaN low high hnan] at hclamp
    exact absurd hnan (Bool.eq_false_iff.mp (isNaN_of_float_le hclamp).1)
  · exact LawfulScalar.clamp_between hbounds

theorem Point.clamped_isOnCourt_iff (p : Point Float) : p.clamped.isOnCourt = true ↔ p.IsNumber := by
  have hcourt : (0 : Float) ≤ Point.courtSize := by decide
  have hx := float_clamp_between_iff hcourt p.x
  have hy := float_clamp_between_iff hcourt p.y
  unfold isOnCourt
  simp only [Bool.and_eq_true, decide_eq_true_iff, and_assoc]
  constructor
  · rintro ⟨hxlow, hxhigh, hylow, hyhigh⟩
    exact ⟨hx.mp ⟨hxlow, hxhigh⟩, hy.mp ⟨hylow, hyhigh⟩⟩
  · intro hp
    obtain ⟨hxlow, hxhigh⟩ := hx.mpr hp.x
    exact ⟨hxlow, hxhigh, hy.mpr hp.y⟩

/-! ## Phases on the court -/

/-- The objects of the phase stand on the court.  Its actions may end off the court, but where they end is
given by numbers. -/
structure Phase.OnCourt (p : Phase Float) : Prop where
  positions : ∀ o ∈ p.objects, o.position.isOnCourt = true
  targets : ∀ a ∈ p.actions, a.target.IsNumber

/-- The edit supplies numbers: for the point at which it puts an object, or for where its action ends. -/
def PhaseEdit.SuppliesNumbers : PhaseEdit Float → Prop
  | addObject o => o.position.IsNumber
  | moveObject _ position => position.IsNumber
  | addAction a | replaceAction a => a.target.IsNumber
  | removeObject _ | setOwner _ | removeAction _ => True

theorem Phase.onCourt_empty (id : PhaseId) (name : String) : (empty id name : Phase Float).OnCourt :=
  ⟨fun _ ho => absurd ho List.not_mem_nil, fun _ ha => absurd ha List.not_mem_nil⟩

theorem Phase.OnCourt.apply {e : PhaseEdit Float} {p q : Phase Float} (hp : p.OnCourt)
    (he : e.SuppliesNumbers) (h : e.apply p = .ok q) : q.OnCourt := by
  constructor
  · intro o ho
    rcases PhaseEdit.mem_objects_of_apply h ho with
      hold | ⟨added, rfl, rfl⟩ | ⟨before, -, id, point, rfl, rfl⟩
    · exact hp.positions o hold
    · exact added.position.clamped_isOnCourt_iff.mpr he
    · exact point.clamped_isOnCourt_iff.mpr he
  · intro a ha
    rcases PhaseEdit.mem_actions_of_apply h ha with hold | rfl | rfl
    · exact hp.targets a hold
    · exact he
    · exact he

/-- An object that moves starts the next phase on the court, wherever its action ends. -/
theorem Phase.OnCourt.nextSnapshot {p : Phase Float} (hp : p.OnCourt) (id : PhaseId)
    (name : String) : (p.nextSnapshot id name).OnCourt := by
  refine ⟨fun o ho => ?_, fun a ha => absurd ha List.not_mem_nil⟩
  rw [nextSnapshot_objects] at ho
  obtain ⟨before, hbefore, rfl⟩ := List.mem_map.mp ho
  show (p.nextPosition before).isOnCourt = true
  rcases p.nextPosition_cases before with heq | ⟨a, ha, heq⟩
  · rw [heq]
    exact hp.positions before hbefore
  · rw [heq]
    exact a.target.clamped_isOnCourt_iff.mpr (hp.targets a ha)

namespace DocumentEdit

/-- The edit supplies numbers.  A phase that takes the place of another as a whole is on the court already, as
is every phase that such edits make of a phase of the document. -/
def SuppliesNumbers : DocumentEdit Float → Prop
  | editPhase _ edit => edit.SuppliesNumbers
  | replacePhase _ p => p.OnCourt
  | appendPhase _ | removePhase _ => True

theorem SuppliesNumbers.keeps_onCourt {e : DocumentEdit Float} (he : e.SuppliesNumbers) :
    e.Keeps Phase.OnCourt := by
  cases e with
  | editPhase index edit => exact fun p q hp h => hp.apply he h
  | replacePhase index p => exact he
  | appendPhase id => exact ⟨Phase.onCourt_empty id, fun p name hp => hp.nextSnapshot id name⟩
  | removePhase index => trivial

/-- Objects stay on the court.  Where every object of a document stands on the court and every action ends at
numbers, on the court or not, a history of edits that supply numbers, however great or infinite, leads only to
documents of which the same is so; and it is so of each of their phases after any such edits of that phase,
which can then be put back. -/
theorem runEdits_onCourt {edits : List (DocumentEdit Float)} {d : Document Float}
    (hd : ∀ p ∈ d.phases, p.OnCourt) (hedits : ∀ e ∈ edits, e.SuppliesNumbers) (n : ℕ) :
    ∀ p ∈ (runEdits apply (edits.take n) d).phases,
      (∀ o ∈ p.objects, o.position.isOnCourt = true) ∧
      ∀ more : List (PhaseEdit Float), (∀ e ∈ more, e.SuppliesNumbers) →
        (runEdits PhaseEdit.apply more p).OnCourt := by
  have hkeeps : ∀ e ∈ edits.take n, e.Keeps Phase.OnCourt := fun e he =>
    (hedits e (List.mem_of_mem_take he)).keeps_onCourt
  intro p hp
  have honCourt : p.OnCourt := runEdits_keeps hkeeps hd p hp
  refine ⟨honCourt.positions, fun more hmore => ?_⟩
  exact runEdits_preserves (fun e he _ _ hp h => hp.apply (hmore e he) h) honCourt

/-- A player leaves the court in the first phase, then farther than any number says, and once more in the
second phase, which is removed after the third was added. -/
theorem runEdits_onCourt_infiniteTarget :
    let player : CourtObject Float := .new ⟨"P1"⟩ .offensePlayer ⟨500, 700⟩
    let cut (target : Point Float) : Action Float :=
      (Action.freehand ⟨"a1"⟩ .cut ⟨500, 700⟩ target).performedBy ⟨"P1"⟩
    let p : Phase Float :=
      { id := ⟨"p1"⟩
        name := "Entry"
        objects := [player]
        actions := [cut ⟨-300, 4000⟩]
        ballOwner := .inherit }
    let edits : List (DocumentEdit Float) :=
      [appendPhase ⟨"p2"⟩, editPhase 0 (.replaceAction (cut ⟨1 / 0, -1 / 0⟩)),
        editPhase 0 (.moveObject ⟨"P1"⟩ ⟨-1 / 0, 2⟩), editPhase 1 (.addAction (cut ⟨1200, 300⟩)),
        appendPhase ⟨"p3"⟩, removePhase 1]
    let reached := runEdits apply edits (Document.new .half [p])
    p.OnCourt ∧ (∀ e ∈ edits, e.SuppliesNumbers) ∧
      reached.phases.map (fun p => p.objects.map (·.position)) = [[⟨0, 2⟩], [⟨1000, 300⟩]] ∧
      reached.phases.map (fun p => p.actions.map (·.target)) = [[⟨1 / 0, -1 / 0⟩], []] ∧
      ∀ p ∈ reached.phases, ∀ o ∈ p.objects, o.position.isOnCourt = true := by
  intro player cut p edits reached
  have hp : p.OnCourt := by
    refine ⟨by decide, fun a ha => ?_⟩
    rw [List.mem_singleton.mp ha]
    exact ⟨by decide, by decide⟩
  have hd : ∀ q ∈ [p], q.OnCourt := List.forall_mem_singleton.mpr hp
  have hedits : ∀ e ∈ edits, e.SuppliesNumbers := by
    intro e he
    simp only [edits, List.mem_cons, List.not_mem_nil, or_false] at he
    rcases he with rfl | rfl | rfl | rfl | rfl | rfl
    · trivial
    · exact ⟨by decide, by decide⟩
    · exact ⟨by decide, by decide⟩
    · exact ⟨by decide, by decide⟩
    · trivial
    · trivial
  exact ⟨hp, hedits, by decide +kernel, by decide +kernel, fun q hq =>
    (runEdits_onCourt (d := Document.new .half [p]) hd hedits 6 q hq).1⟩

end DocumentEdit

end PlayDiagram
