import PlayDiagram.Proofs.Number.ClampedDouble
import PlayDiagram.Proofs.Play.EditHistory
import PlayDiagram.Proofs.Wire.SaveLoad

/-!
# Saving an edited play

An edited document is sound, and it is loaded as it was saved exactly if its numbers are finite.
Editing does not see to that.  A position is clamped onto the court, which makes infinite coordinates
finite and leaves alone what is no number; sizes and paths are taken as they come.  `BringsFinite`
is the condition on an edit under which a finite document stays finite (`apply_isFinite_iff`).
-/

namespace PlayDiagram

/-- Both coordinates are numbers, be they finite or not. -/
structure Point.IsNumber (p : Point Float) : Prop where
  x : p.x.isNaN = false
  y : p.y.isNaN = false

theorem Point.clamped_isFinite_iff (p : Point Float) : p.clamped.IsFinite ↔ p.IsNumber := by
  have hzero : (0 : Float).isFinite = true := by decide
  have hsize : (Point.courtSize : Float).isFinite = true := by decide
  constructor
  · intro hfinite
    exact ⟨(clamp_isFinite_iff hzero hsize p.x).mp hfinite.x,
      (clamp_isFinite_iff hzero hsize p.y).mp hfinite.y⟩
  · intro hnumber
    exact ⟨(clamp_isFinite_iff hzero hsize p.x).mpr hnumber.x,
      (clamp_isFinite_iff hzero hsize p.y).mpr hnumber.y⟩

theorem Point.IsFinite.isNumber {p : Point Float} (hp : p.IsFinite) : p.IsNumber :=
  ⟨isNaN_eq_false_of_isFinite hp.x, isNaN_eq_false_of_isFinite hp.y⟩

/-- The object has finite numbers once its position is clamped. -/
structure CourtObject.BringsFinite (o : CourtObject Float) : Prop where
  position : o.position.IsNumber
  size : o.size.isFinite = true
  width : ∀ w, o.width = some w → w.isFinite = true
  height : ∀ h, o.height = some h → h.isFinite = true

theorem CourtObject.clamped_isFinite_iff (o : CourtObject Float) :
    ({ o with position := o.position.clamped } : CourtObject Float).IsFinite ↔ o.BringsFinite := by
  constructor
  · intro h
    exact ⟨(Point.clamped_isFinite_iff _).mp h.position, h.size, h.width, h.height⟩
  · intro h
    exact ⟨(Point.clamped_isFinite_iff _).mpr h.position, h.size, h.width, h.height⟩

/-- What is put in the place of the first match is in the list. -/
theorem mem_replaceFirst_of_exists {β : Type} {test : β → Bool} {f : β → β} {l : List β}
    (hmatch : ∃ x ∈ l, test x = true) : ∃ x ∈ l, f x ∈ replaceFirst test f l := by
  induction l with
  | nil => simp at hmatch
  | cons x rest ih =>
      by_cases hx : test x = true
      · refine ⟨x, List.mem_cons_self, ?_⟩
        rw [replaceFirst, if_pos hx]
        exact List.mem_cons_self
      · obtain ⟨y, hy, htest⟩ := hmatch
        rcases List.mem_cons.mp hy with rfl | hy
        · exact absurd htest hx
        · obtain ⟨z, hz, hmem⟩ := ih ⟨y, hy, htest⟩
          refine ⟨z, List.mem_cons_of_mem x hz, ?_⟩
          rw [replaceFirst, if_neg hx]
          exact List.mem_cons_of_mem x hmem

/-! ## Edits of one phase -/

namespace Phase

/-- The phase with other objects and the same actions. -/
theorem IsFinite.with_objects_iff {p : Phase Float} (hp : p.IsFinite)
    {objects : List (CourtObject Float)} {owner : BallOwner} :
    ({ p with objects, ballOwner := owner } : Phase Float).IsFinite ↔
      ∀ o ∈ objects, o.IsFinite :=
  ⟨fun h => h.objects, fun h => ⟨h, hp.actions⟩⟩

/-- The phase with other actions and the same objects. -/
theorem IsFinite.with_actions_iff {p : Phase Float} (hp : p.IsFinite)
    {actions : List (Action Float)} :
    ({ p with actions } : Phase Float).IsFinite ↔ ∀ a ∈ actions, a.IsFinite :=
  ⟨fun h => h.actions, fun h => ⟨hp.objects, h⟩⟩

theorem IsFinite.addObject_iff {p q : Phase Float} {o : CourtObject Float} (hp : p.IsFinite)
    (h : p.addObject o = .ok q) : q.IsFinite ↔ o.BringsFinite := by
  obtain ⟨-, rfl⟩ := addObject_eq_ok_iff.mp h
  rw [hp.with_objects_iff, ← o.clamped_isFinite_iff]
  constructor
  · intro hall
    exact hall _ (List.mem_append_right _ List.mem_cons_self)
  · intro hnew o' ho'
    rcases List.mem_append.mp ho' with hold | hlast
    · exact hp.objects o' hold
    · rw [List.mem_singleton.mp hlast]
      exact hnew

theorem IsFinite.moveObject_iff {p q : Phase Float} {id : ObjectId} {position : Point Float}
    (hp : p.IsFinite) (h : p.moveObject id position = .ok q) :
    q.IsFinite ↔ position.IsNumber := by
  obtain ⟨hcontains, rfl⟩ := moveObject_eq_ok_iff.mp h
  rw [← position.clamped_isFinite_iff]
  constructor
  · intro hq
    have hmatch : ∃ o ∈ p.objects, decide (o.id = id) = true := by
      simpa [containsObject] using hcontains
    obtain ⟨o, -, hmoved⟩ := mem_replaceFirst_of_exists hmatch
    exact (hq.objects _ hmoved).position
  · intro hposition
    refine hp.with_objects_iff.mpr fun o' ho' => ?_
    rcases mem_of_mem_replaceFirst ho' with hold | ⟨o, ho, rfl⟩
    · exact hp.objects o' hold
    · have hfinite := hp.objects o ho
      exact ⟨hposition, hfinite.size, hfinite.width, hfinite.height⟩

theorem IsFinite.addAction_iff {p q : Phase Float} {a : Action Float} (hp : p.IsFinite)
    (h : p.addAction a = .ok q) : q.IsFinite ↔ a.IsFinite := by
  obtain ⟨-, -, rfl⟩ := addAction_eq_ok_iff.mp h
  rw [hp.with_actions_iff]
  constructor
  · intro hall
    exact hall a (List.mem_append_right _ List.mem_cons_self)
  · intro ha b hb
    rcases List.mem_append.mp hb with hold | hlast
    · exact hp.actions b hold
    · rw [List.mem_singleton.mp hlast]
      exact ha

theorem IsFinite.replaceAction_iff {p q : Phase Float} {a : Action Float} (hp : p.IsFinite)
    (h : p.replaceAction a = .ok q) : q.IsFinite ↔ a.IsFinite := by
  obtain ⟨hcontains, -, rfl⟩ := replaceAction_eq_ok_iff.mp h
  rw [hp.with_actions_iff]
  constructor
  · intro hall
    have hmatch : ∃ b ∈ p.actions, decide (b.id = a.id) = true := by
      simpa [containsAction] using hcontains
    obtain ⟨-, -, hreplaced⟩ := mem_replaceFirst_of_exists (f := fun _ => a) hmatch
    exact hall a hreplaced
  · intro ha b hb
    rcases mem_of_mem_replaceFirst hb with hold | ⟨-, -, rfl⟩
    · exact hp.actions b hold
    · exact ha

theorem IsFinite.removeObject {p q : Phase Float} {id : ObjectId} (hp : p.IsFinite)
    (h : p.removeObject id = .ok q) : q.IsFinite := by
  obtain ⟨-, rfl⟩ := removeObject_eq_ok_iff.mp h
  exact ⟨fun o ho => hp.objects o (List.mem_filter.mp ho).1,
    fun a ha => hp.actions a (List.mem_filter.mp ha).1⟩

theorem IsFinite.setOwner {p q : Phase Float} {owner : BallOwner} (hp : p.IsFinite)
    (h : p.setOwner owner = .ok q) : q.IsFinite := by
  obtain ⟨-, rfl⟩ := setOwner_eq_ok_iff.mp h
  exact ⟨hp.objects, hp.actions⟩

theorem IsFinite.removeAction {p q : Phase Float} {id : ActionId} (hp : p.IsFinite)
    (h : p.removeAction id = .ok q) : q.IsFinite := by
  obtain ⟨-, rfl⟩ := removeAction_eq_ok_iff.mp h
  exact ⟨hp.objects, fun a ha => hp.actions a (List.mem_filter.mp ha).1⟩

/-- Where a finite path ends the next phase starts, clamped onto the court. -/
theorem IsFinite.nextSnapshot {p : Phase Float} (hp : p.IsFinite) (id : PhaseId)
    (name : String) : (p.nextSnapshot id name).IsFinite := by
  refine ⟨fun o' ho' => ?_, fun a ha => absurd ha List.not_mem_nil⟩
  rw [nextSnapshot_objects] at ho'
  obtain ⟨o, ho, rfl⟩ := List.mem_map.mp ho'
  have hfinite := hp.objects o ho
  have hposition : (p.nextPosition o).IsFinite := by
    rcases p.nextPosition_cases o with heq | ⟨a, ha, heq⟩
    · rw [heq]
      exact hfinite.position
    · rw [heq]
      exact (Point.clamped_isFinite_iff _).mpr (hp.actions a ha).target.isNumber
  exact ⟨hposition, hfinite.size, hfinite.width, hfinite.height⟩

end Phase

/-- The numbers that the edit brings into its phase are finite. -/
def PhaseEdit.BringsFinite : PhaseEdit Float → Prop
  | addObject o => o.BringsFinite
  | moveObject _ position => position.IsNumber
  | addAction a | replaceAction a => a.IsFinite
  | removeObject _ | setOwner _ | removeAction _ => True

/-- A phase of finite numbers is edited into another one exactly if the edit brings no others. -/
theorem PhaseEdit.apply_isFinite_iff {e : PhaseEdit Float} {p q : Phase Float} (hp : p.IsFinite)
    (h : e.apply p = .ok q) : q.IsFinite ↔ e.BringsFinite := by
  cases e with
  | addObject o => exact hp.addObject_iff h
  | removeObject id => exact iff_of_true (hp.removeObject h) trivial
  | moveObject id position => exact hp.moveObject_iff h
  | setOwner owner => exact iff_of_true (hp.setOwner h) trivial
  | addAction a => exact hp.addAction_iff h
  | replaceAction a => exact hp.replaceAction_iff h
  | removeAction id => exact iff_of_true (hp.removeAction h) trivial

/-! ## Edits of a document -/

namespace Document

/-- A sound document is loaded as it was saved exactly if its numbers are finite. -/
theorem IsSound.ofJson_encode_iff {d : Document Float} (hd : d.IsSound) :
    ofJson (Encode.document d) = .ok d ↔ d.IsFinite :=
  ⟨ofJson_isFinite, fun hfinite => ofJson_encode_of_isSound hfinite hd⟩

theorem IsSound.ofJsonOrEmpty_encode_iff {d : Document Float} (hd : d.IsSound) :
    ofJsonOrEmpty (Encode.document d) = d ↔ d.IsFinite := by
  constructor
  · intro hload
    have hfinite := (ofJsonOrEmpty_isSound_isFinite (Encode.document d)).2
    rwa [hload] at hfinite
  · intro hfinite
    rw [ofJsonOrEmpty]
    simp only [hd.ofJson_encode_iff.mpr hfinite]

theorem IsFinite.set_iff {d : Document Float} (hd : d.IsFinite) {index : ℕ} {q : Phase Float}
    (hindex : index < d.phases.length) :
    IsFinite { d with phases := d.phases.set index q } ↔ q.IsFinite := by
  constructor
  · intro hset
    exact hset q (List.mem_set hindex q)
  · intro hq p hp
    rcases List.mem_or_eq_of_mem_set hp with hold | rfl
    · exact hd p hold
    · exact hq

theorem IsFinite.replacePhase_iff {d next : Document Float} (hd : d.IsFinite) {index : ℕ}
    {q : Phase Float} (h : d.replacePhase index q = .ok next) : next.IsFinite ↔ q.IsFinite := by
  obtain ⟨hindex, -, rfl⟩ := replacePhase_eq_ok_iff.mp h
  exact hd.set_iff hindex

theorem IsFinite.appendPhase {d : Document Float} (hd : d.IsFinite) (id : PhaseId) :
    (d.appendPhase id).IsFinite := by
  intro p hp
  rcases List.mem_append.mp hp with hold | hnew
  · exact hd p hold
  · rw [List.mem_singleton.mp hnew]
    cases hlast : d.phases.getLast? with
    | none => exact ⟨fun o ho => absurd ho List.not_mem_nil, fun a ha => absurd ha List.not_mem_nil⟩
    | some last => exact (hd last (List.mem_of_getLast? hlast)).nextSnapshot id _

theorem IsFinite.removePhase {d next : Document Float} (hd : d.IsFinite) {index : ℕ}
    (h : d.removePhase index = .ok next) : next.IsFinite := by
  obtain ⟨-, -, rfl⟩ := removePhase_eq_ok_iff.mp h
  exact fun p hp => hd p ((List.eraseIdx_sublist d.phases index).subset hp)

end Document

namespace DocumentEdit

/-- The numbers that the edit brings into its document are finite. -/
def BringsFinite : DocumentEdit Float → Prop
  | editPhase _ edit => edit.BringsFinite
  | replacePhase _ p => p.IsFinite
  | appendPhase _ | removePhase _ => True

/-- A document of finite numbers is edited into another one exactly if the edit brings no others. -/
theorem apply_isFinite_iff {e : DocumentEdit Float} {d next : Document Float} (hd : d.IsFinite)
    (h : e.apply d = .ok next) : next.IsFinite ↔ e.BringsFinite := by
  cases e with
  | editPhase index edit =>
      obtain ⟨p, q, hp, hq, hput⟩ := editPhase_eq_ok_iff.mp h
      have hphase : p.IsFinite := hd p (List.mem_of_getElem? hp)
      exact (hd.replacePhase_iff hput).trans (PhaseEdit.apply_isFinite_iff hphase hq)
  | replacePhase index p => exact hd.replacePhase_iff h
  | appendPhase id =>
      cases h
      exact iff_of_true (hd.appendPhase id) trivial
  | removePhase index => exact iff_of_true (hd.removePhase h) trivial

theorem runEdits_isFinite {edits : List (DocumentEdit Float)} {d : Document Float}
    (hd : d.IsFinite) (hbrings : ∀ e ∈ edits, e.BringsFinite) :
    (runEdits apply edits d).IsFinite :=
  runEdits_preserves (fun e he _ _ hd h => (apply_isFinite_iff hd h).mpr (hbrings e he)) hd

/-- Whatever was edited, the document reached is loaded as it was saved exactly if its numbers are
finite.  It is if no edit brought others, and as long as it is, the next edit decides. -/
theorem runEdits_reload_iff {edits : List (DocumentEdit Float)}
    (hfresh : FreshHistory edits Document.empty) (n : ℕ) :
    let d := runEdits apply (edits.take n) Document.empty
    (Document.ofJson (Encode.document d) = .ok d ↔ d.IsFinite) ∧
      (Document.ofJsonOrEmpty (Encode.document d) = d ↔ d.IsFinite) ∧
      ((∀ e ∈ edits.take n, e.BringsFinite) → d.IsFinite) ∧
      ∀ (e : DocumentEdit Float) (next : Document Float),
        d.IsFinite → e.MintsFresh d → e.apply d = .ok next →
        (Document.ofJson (Encode.document next) = .ok next ↔ e.BringsFinite) := by
  intro d
  have hsound : d.IsSound := runEdits_take_isSound Document.isSound_empty hfresh n
  refine ⟨hsound.ofJson_encode_iff, hsound.ofJsonOrEmpty_encode_iff, ?_, ?_⟩
  · exact runEdits_isFinite Document.isFinite_empty
  · intro e next hfinite hmints happly
    have hnext : next.IsSound := apply_isSound hsound hmints happly
    exact hnext.ofJson_encode_iff.trans (apply_isFinite_iff hfinite happly)

/-- A player is added, and moved again, with infinite coordinates: the court's edges are saved. -/
theorem runEdits_reload_iff_infinitePosition :
    let beyond : Point Float := ⟨-1 / 0, 1 / 0⟩
    let edits : List (DocumentEdit Float) :=
      [editPhase 0 (.addObject (.new ⟨"P1"⟩ .offensePlayer beyond)),
        editPhase 0 (.addAction ((Action.freehand ⟨"a1"⟩ .cut ⟨0, 0⟩ ⟨4, 0⟩).performedBy ⟨"P1"⟩)),
        appendPhase ⟨"phase-2"⟩, editPhase 1 (.moveObject ⟨"P1"⟩ beyond)]
    let d := runEdits apply edits Document.empty
    FreshHistory edits Document.empty ∧ (∀ e ∈ edits, e.BringsFinite) ∧
      d.phases.map (fun p => p.objects.map (·.position)) = [[⟨0, 1000⟩], [⟨0, 1000⟩]] ∧
      Document.ofJson (Encode.document d) = .ok d := by
  intro beyond edits d
  have hfresh : FreshHistory edits Document.empty := by decide
  have hbeyond : beyond.IsNumber := ⟨by decide, by decide⟩
  have hbrings : ∀ e ∈ edits, e.BringsFinite := by
    intro e he
    simp only [edits, List.mem_cons, List.not_mem_nil, or_false] at he
    rcases he with rfl | rfl | rfl | rfl
    · exact ⟨hbeyond, by decide, by simp [CourtObject.new], by simp [CourtObject.new]⟩
    · exact ⟨⟨by decide, by decide⟩, ⟨by decide, by decide⟩⟩
    · trivial
    · exact hbeyond
  obtain ⟨hreload, -, hfinite, -⟩ := runEdits_reload_iff hfresh 4
  exact ⟨hfresh, hbrings, by decide +kernel, hreload.mpr (hfinite hbrings)⟩

/-- A player is added at a point that is no number: the play is sound, and it is lost when it is saved
and loaded. -/
theorem runEdits_reload_lost :
    let edits : List (DocumentEdit Float) :=
      [editPhase 0 (.addObject (.new ⟨"P1"⟩ .offensePlayer ⟨0 / 0, 500⟩))]
    let d := runEdits apply edits Document.empty
    FreshHistory edits Document.empty ∧ d.IsSound ∧
      d.phases.map (fun p => p.objects.map (·.id)) = [[⟨"P1"⟩]] ∧
      (∀ loaded, Document.ofJson (Encode.document d) ≠ .ok loaded) ∧
      Document.ofJsonOrEmpty (Encode.document d) = Document.empty := by
  intro edits d
  refine ⟨by decide, by decide, by decide, ?_, ?_⟩
  · intro loaded hload
    cases hload
  · rfl

end DocumentEdit

end PlayDiagram
