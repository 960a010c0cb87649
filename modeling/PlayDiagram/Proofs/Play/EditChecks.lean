import PlayDiagram.Proofs.Play.EditHistory

/-!
# What edits check

An edit looks only at what it brings in; validation looks at a whole phase.  For a phase without defects
the two come to the same: an edit is refused exactly if the phase that it is meant to lead to has a
defect, and the reason it gives is the first defect of that phase (`Phase.edits_refuse_defects`).
-/

namespace PlayDiagram

/-- The first repetition after a list without any can only be the value that follows it. -/
theorem firstRepeat?_concat {ι : Type} [DecidableEq ι] {seen l : List ι}
    (hnone : firstRepeat? seen l = none) (x : ι) :
    firstRepeat? seen (l ++ [x]) = if x ∈ seen ∨ x ∈ l then some x else none := by
  induction l generalizing seen with
  | nil => simp [firstRepeat?]
  | cons y rest ih =>
      by_cases hy : y ∈ seen
      · rw [firstRepeat?, if_pos hy] at hnone
        cases hnone
      · rw [firstRepeat?, if_neg hy] at hnone
        rw [List.cons_append, firstRepeat?, if_neg hy, ih hnone]
        congr 1
        simp only [List.mem_cons, eq_iff_iff]
        tauto

/-- A search finds what it finds for one element, if it finds nothing for any other. -/
theorem findSome?_eq_of_mem {β δ : Type} {f : β → Option δ} {l : List β} {x : β} (hx : x ∈ l)
    (hothers : ∀ y ∈ l, y = x ∨ f y = none) : l.findSome? f = f x := by
  induction l with
  | nil => cases hx
  | cons y rest ih =>
      rw [List.forall_mem_cons] at hothers
      rw [List.findSome?_cons]
      cases hy : f y with
      | some found =>
          rcases hothers.1 with rfl | hnone
          · exact hy.symm
          · rw [hy] at hnone
            cases hnone
      | none =>
          rcases List.mem_cons.mp hx with rfl | hrest
          · rw [hy]
            refine List.findSome?_eq_none_iff.mpr fun z hz => ?_
            rcases hothers.2 z hz with rfl | hnone
            · exact hy
            · exact hnone
          · exact ih hrest hothers.2

/-- Among different values, one may be overwritten by what is nowhere else. -/
theorem nodup_set_iff {ι : Type} {l : List ι} (hnodup : l.Nodup) {i : ℕ} (hi : i < l.length)
    {x : ι} : (l.set i x).Nodup ↔ ∀ j, j ≠ i → l[j]? ≠ some x := by
  constructor
  · intro hset j hj hx
    have hlength : j < (l.set i x).length := by
      rw [List.length_set]
      exact (List.getElem?_eq_some_iff.mp hx).1
    have hsame : (l.set i x)[j]? = (l.set i x)[i]? := by
      rw [List.getElem?_set_ne hj.symm, hx, List.getElem?_set_self hi]
    exact hj ((List.getElem?_inj hlength hset).mp hsame)
  · intro hothers
    rw [List.nodup_iff_getElem?_ne_getElem?] at hnodup ⊢
    intro j k hjk hk
    rw [List.length_set] at hk
    rw [List.getElem?_set, List.getElem?_set]
    by_cases hji : i = j
    · rw [if_pos hji, if_pos hi, if_neg (by omega)]
      exact (hothers k (by omega)).symm
    · rw [if_neg hji]
      by_cases hki : i = k
      · rw [if_pos hki, if_pos hi]
        exact hothers j (Ne.symm hji)
      · rw [if_neg hki]
        exact hnodup j k hjk hk

variable {α : Type}

namespace Phase

/-! ## Defects that something new can bring -/

section Defects

variable {p : Phase α} (hp : p.WellFormed)

include hp

theorem WellFormed.firstRepeat?_objects : firstRepeat? [] (p.objects.map (·.id)) = none :=
  (firstRepeat?_eq_none_iff _ _).mpr ⟨hp.objects_nodup, fun _ _ => List.not_mem_nil⟩

theorem WellFormed.firstRepeat?_actions : firstRepeat? [] (p.actions.map (·.id)) = none :=
  (firstRepeat?_eq_none_iff _ _).mpr ⟨hp.actions_nodup, fun _ _ => List.not_mem_nil⟩

/-- With another object at the end, the phase can only have its name twice. -/
theorem WellFormed.defect?_concat_object (o : CourtObject α) :
    ({ p with objects := p.objects ++ [o] } : Phase α).defect? =
      if p.containsObject o.id then some (.duplicateObject p.id o.id) else none := by
  cases hcontains : p.containsObject o.id with
  | true =>
      have hrepeat : firstRepeat? [] ((p.objects ++ [o]).map (·.id)) = some o.id := by
        rw [List.map_append, List.map_singleton, firstRepeat?_concat hp.firstRepeat?_objects,
          if_pos (Or.inr (containsObject_iff.mp hcontains))]
      unfold defect?
      simp only [hrepeat]
      rfl
  | false =>
      have hfresh : o.id ∉ p.objects.map (·.id) := notMem_of_containsObject hcontains
      have hkept : ∀ id ∈ p.objects.map (·.id), id ∈ (p.objects ++ [o]).map (·.id) := by
        intro id hid
        rw [List.map_append]
        exact List.mem_append_left _ hid
      refine (defect?_eq_none_iff _).mpr (hp.with_objects ?_ hkept ?_)
      · exact nodup_map_concat hp.objects_nodup hfresh
      · exact fun id hid => hkept id (containsObject_iff.mp (hp.owner_mem id hid))

/-- With other actions, the phase can only have defects in the actions. -/
theorem WellFormed.defect?_with_actions (actions : List (Action α)) :
    ({ p with actions } : Phase α).defect? =
      ((firstRepeat? [] (actions.map (·.id))).map (Defect.duplicateAction p.id)).or
        (actions.findSome? p.danglingReference?) := by
  have howner : p.danglingOwner? = none := (danglingOwner?_eq_none_iff p).mpr hp.owner_mem
  calc
    ({ p with actions } : Phase α).defect? =
        ((firstRepeat? [] (p.objects.map (·.id))).map (Defect.duplicateObject p.id)).or
          (((firstRepeat? [] (actions.map (·.id))).map (Defect.duplicateAction p.id)).or
            ((actions.findSome? p.danglingReference?).or p.danglingOwner?)) := rfl
    _ = _ := by
      rw [hp.firstRepeat?_objects, howner, Option.map_none, Option.none_or, Option.or_none]

theorem WellFormed.defect?_concat_action (a : Action α) :
    ({ p with actions := p.actions ++ [a] } : Phase α).defect? =
      if p.containsAction a.id then some (.duplicateAction p.id a.id)
      else p.danglingReference? a := by
  have hreferences : p.actions.findSome? p.danglingReference? = none :=
    List.findSome?_eq_none_iff.mpr fun b hb => hp.danglingReference?_eq_none hb
  rw [hp.defect?_with_actions, List.map_append, List.map_singleton,
    firstRepeat?_concat hp.firstRepeat?_actions, List.findSome?_append, hreferences]
  cases hcontains : p.containsAction a.id with
  | true => rw [if_pos (Or.inr (containsAction_iff.mp hcontains))]; rfl
  | false =>
      have hfresh : ¬(a.id ∈ [] ∨ a.id ∈ p.actions.map (·.id)) := by
        simpa using notMem_of_containsAction hcontains
      rw [if_neg hfresh]
      simp

/-- With an action in the place of the one of its name, the phase can only have defects in it. -/
theorem WellFormed.defect?_overwrite {a : Action α} (ha : a.id ∈ p.actions.map (·.id)) :
    ({ p with actions := p.actions.map fun b => if b.id = a.id then a else b } : Phase α).defect? =
      p.danglingReference? a := by
  have hnames : (p.actions.map fun b => if b.id = a.id then a else b).map (·.id) =
      p.actions.map (·.id) := by
    rw [List.map_map]
    refine List.map_congr_left fun b _ => ?_
    by_cases hb : b.id = a.id
    · simp [hb]
    · simp [hb]
  rw [hp.defect?_with_actions, hnames, hp.firstRepeat?_actions, Option.map_none, Option.none_or]
  obtain ⟨b, hb, hid⟩ := List.mem_map.mp ha
  refine findSome?_eq_of_mem (List.mem_map.mpr ⟨b, hb, if_pos hid⟩) fun c hc => ?_
  obtain ⟨b, hb, rfl⟩ := List.mem_map.mp hc
  by_cases hid : b.id = a.id
  · exact Or.inl (if_pos hid)
  · rw [if_neg hid]
    exact Or.inr (hp.danglingReference?_eq_none hb)

theorem WellFormed.defect?_with_owner_eq_none_iff (owner : BallOwner) :
    ({ p with ballOwner := owner } : Phase α).defect? = none ↔
      ∀ id, owner = .owner id → p.containsObject id = true := by
  rw [defect?_eq_none_iff]
  constructor
  · exact fun h => h.owner_mem
  · intro howner
    exact hp.with_objects hp.objects_nodup (fun _ hid => hid)
      fun id hid => containsObject_iff.mp (howner id hid)

end Defects

/-! ## Edits of one phase -/

/-- An edit that is meant to lead to a phase succeeds exactly if that phase has no defect; otherwise it is
refused for the first defect. -/
structure ChecksDefects (result : Except EditError (Phase α)) (meant : Phase α) : Prop where
  accepts : (∃ q, result = .ok q) ↔ meant.defect? = none
  refuses : ∀ reason, result = .error reason ↔
    ∃ defect, meant.defect? = some defect ∧ reason = .unsound defect

theorem ChecksDefects.ok {meant : Phase α} (hnone : meant.defect? = none) (q : Phase α) :
    ChecksDefects (.ok q) meant :=
  ⟨by simp [hnone], by simp [hnone]⟩

theorem ChecksDefects.error {meant : Phase α} {defect : Defect}
    (hdefect : meant.defect? = some defect) : ChecksDefects (.error (.unsound defect)) meant :=
  ⟨by simp [hdefect], by simp [hdefect, eq_comm]⟩

section Edits

variable {p : Phase α} (hp : p.WellFormed)

include hp

theorem WellFormed.addObject_checks [Scalar α] (o : CourtObject α) :
    ChecksDefects (p.addObject o) { p with objects := p.objects ++ [o] } := by
  have hdefect := hp.defect?_concat_object o
  unfold Phase.addObject
  by_cases hcontains : p.containsObject o.id = true
  · rw [if_pos hcontains] at hdefect ⊢
    exact .error hdefect
  · rw [if_neg hcontains] at hdefect ⊢
    exact .ok hdefect _

theorem WellFormed.addAction_checks (a : Action α) :
    ChecksDefects (p.addAction a) { p with actions := p.actions ++ [a] } := by
  have hdefect := hp.defect?_concat_action a
  unfold Phase.addAction
  rw [checkReferences_eq]
  by_cases hcontains : p.containsAction a.id = true
  · rw [if_pos hcontains] at hdefect ⊢
    exact .error hdefect
  · rw [if_neg hcontains] at hdefect ⊢
    cases hdangling : p.danglingReference? a with
    | none => exact .ok (hdefect.trans hdangling) _
    | some defect => exact .error (hdefect.trans hdangling)

theorem WellFormed.replaceAction_checks {a : Action α} (ha : a.id ∈ p.actions.map (·.id)) :
    ChecksDefects (p.replaceAction a)
      { p with actions := p.actions.map fun b => if b.id = a.id then a else b } := by
  have hdefect := hp.defect?_overwrite ha
  unfold Phase.replaceAction
  rw [checkReferences_eq]
  rw [if_pos (containsAction_iff.mpr ha)]
  cases hdangling : p.danglingReference? a with
  | none => exact .ok (hdefect.trans hdangling) _
  | some defect => exact .error (hdefect.trans hdangling)

theorem WellFormed.exists_setOwner_iff (owner : BallOwner) :
    (∃ q, p.setOwner owner = .ok q) ↔
      ({ p with ballOwner := owner } : Phase α).defect? = none := by
  rw [hp.defect?_with_owner_eq_none_iff]
  simp only [setOwner_eq_ok_iff, exists_and_left, exists_eq, and_true]

end Edits

end Phase

namespace Document

/-! ## Putting a phase back -/

/-- A sound document stays sound with another phase in one place, exactly if that phase has no defect and
its name is nowhere else. -/
theorem IsSound.isSound_set_iff {d : Document α} (hd : d.IsSound) {index : ℕ} {q : Phase α}
    (hindex : index < d.phases.length) :
    IsSound { d with phases := d.phases.set index q } ↔
      q.defect? = none ∧ ∀ j r, d.phases[j]? = some r → j ≠ index → r.id ≠ q.id := by
  obtain ⟨hphases, hnodup, hwell⟩ := (isSound_iff d).mp hd
  have hnames : ((d.phases.set index q).map (·.id)).Nodup ↔
      ∀ j r, d.phases[j]? = some r → j ≠ index → r.id ≠ q.id := by
    rw [List.map_set, nodup_set_iff hnodup (by simpa using hindex)]
    simp only [List.getElem?_map, ne_eq, Option.map_eq_some_iff, not_exists, not_and]
    exact ⟨fun h j r hr hj => h j hj r hr, fun h j hj r hr => h j r hr hj⟩
  rw [isSound_iff, Phase.defect?_eq_none_iff, ← hnames]
  constructor
  · rintro ⟨-, hset, hall⟩
    exact ⟨hall q (List.mem_set hindex q), hset⟩
  · rintro ⟨hq, hset⟩
    refine ⟨mt (List.set_eq_nil_iff index q).mp hphases, hset, fun r hr => ?_⟩
    rcases List.mem_or_eq_of_mem_set hr with hold | rfl
    · exact hwell r hold
    · exact hq

theorem IsSound.exists_replacePhase_iff {d : Document α} (hd : d.IsSound) (index : ℕ)
    (q : Phase α) :
    (∃ next, d.replacePhase index q = .ok next) ↔
      index < d.phases.length ∧ q.defect? = none ∧
        ∀ j r, d.phases[j]? = some r → j ≠ index → r.id ≠ q.id := by
  simp only [replacePhase_eq_ok_iff]
  constructor
  · rintro ⟨next, hindex, hnext, rfl⟩
    exact ⟨hindex, (hd.isSound_set_iff hindex).mp hnext⟩
  · rintro ⟨hindex, hq⟩
    exact ⟨_, hindex, (hd.isSound_set_iff hindex).mpr hq, rfl⟩

end Document

namespace Phase

/-- Edits refuse what validation would refuse.  In a phase without defects an object or an action is added,
and an action put in the place of another one, exactly if the phase with nothing else changed has no
defect, and otherwise the edit is refused for its first defect; an owner is accepted exactly if the phase
with that owner has no defect.  In a sound document a phase can take a place exactly if the place exists,
the phase has no defect, and no phase in another place has its name. -/
theorem edits_refuse_defects [Scalar α] {p : Phase α} (hp : p.defect? = none) :
    (∀ o : CourtObject α, ChecksDefects (p.addObject o) { p with objects := p.objects ++ [o] }) ∧
    (∀ a : Action α, ChecksDefects (p.addAction a) { p with actions := p.actions ++ [a] }) ∧
    (∀ a : Action α, a.id ∈ p.actions.map (·.id) →
      ChecksDefects (p.replaceAction a)
        { p with actions := p.actions.map fun b => if b.id = a.id then a else b }) ∧
    (∀ owner, (∃ q, p.setOwner owner = .ok q) ↔
      ({ p with ballOwner := owner } : Phase α).defect? = none) ∧
    ∀ d : Document α, d.IsSound → ∀ (index : ℕ) (q : Phase α),
      (∃ next, d.replacePhase index q = .ok next) ↔
        index < d.phases.length ∧ q.defect? = none ∧
          ∀ j r, d.phases[j]? = some r → j ≠ index → r.id ≠ q.id := by
  have hwell : p.WellFormed := (defect?_eq_none_iff p).mp hp
  exact ⟨hwell.addObject_checks, hwell.addAction_checks, fun a ha => hwell.replaceAction_checks ha,
    hwell.exists_setOwner_iff, fun d hd => hd.exists_replacePhase_iff⟩

/-- An action with the name of another one is refused for that name although it refers to nothing, and one
that refers twice to nothing for its performer. -/
theorem edits_refuse_defects_severalDefects :
    let player (name : String) : CourtObject Float := .new ⟨name⟩ .offensePlayer ⟨500, 700⟩
    let pass (id performer receiver : String) : Action Float :=
      ((Action.freehand ⟨id⟩ .pass ⟨500, 700⟩ ⟨250, 500⟩).performedBy ⟨performer⟩).receivedBy ⟨receiver⟩
    let p : Phase Float :=
      { id := ⟨"p1"⟩
        name := "Entry"
        objects := [player "P1", player "P2"]
        actions := [pass "a1" "P1" "P2", pass "a2" "P2" "P1"]
        ballOwner := .owner ⟨"P1"⟩ }
    let d := Document.new .half [p, Phase.empty ⟨"p2"⟩ "Wing"]
    p.defect? = none ∧ d.IsSound ∧
      p.addObject (player "P2") = .error (.unsound (.duplicateObject ⟨"p1"⟩ ⟨"P2"⟩)) ∧
      p.addAction (pass "a1" "X" "Y") = .error (.unsound (.duplicateAction ⟨"p1"⟩ ⟨"a1"⟩)) ∧
      p.addAction (pass "a3" "X" "Y") =
        .error (.unsound (.danglingReference ⟨"p1"⟩ ⟨"a3"⟩ .performer ⟨"X"⟩)) ∧
      p.replaceAction (pass "a1" "P1" "Y") =
        .error (.unsound (.danglingReference ⟨"p1"⟩ ⟨"a1"⟩ .receiver ⟨"Y"⟩)) ∧
      (∃ q, p.setOwner (.owner ⟨"P2"⟩) = .ok q) ∧
      ¬∃ next, d.replacePhase 1 p = .ok next := by
  intro player pass p d
  have hp : p.defect? = none := by decide
  have hd : d.IsSound := by decide
  obtain ⟨hobject, haction, hreplaced, howner, hphase⟩ := edits_refuse_defects hp
  refine ⟨hp, hd, ((hobject (player "P2")).refuses _).mpr ⟨_, by decide, rfl⟩,
    ((haction (pass "a1" "X" "Y")).refuses _).mpr ⟨_, by decide, rfl⟩,
    ((haction (pass "a3" "X" "Y")).refuses _).mpr ⟨_, by decide, rfl⟩,
    ((hreplaced (pass "a1" "P1" "Y") (by decide)).refuses _).mpr ⟨_, by decide, rfl⟩,
    (howner (.owner ⟨"P2"⟩)).mpr (by decide), ?_⟩
  rw [hphase d hd]
  rintro ⟨-, -, hothers⟩
  exact hothers 0 p rfl Nat.zero_ne_one rfl

end Phase

end PlayDiagram
