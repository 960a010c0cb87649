import Mathlib.Data.List.Induction
import PlayDiagram.Playback.Frame
import PlayDiagram.Proofs.Playback.Moves

/-!
# Where a track leads

`Track.positionAt` decides step by step which rule places an object.  Each of the lemmas named after
a rule evaluates it for the entries of one object, under the condition of that rule.  The entry that
counts is the last one of its kind in the schedule (`IsLast`), or the one that ended last
(`IsLatest`).
-/

namespace PlayDiagram

section LastEntry

variable {β : Type}

theorem getElem?_concat_eq_some {l : List β} {a b : β} {k : ℕ} :
    (l ++ [a])[k]? = some b ↔ l[k]? = some b ∨ k = l.length ∧ a = b := by
  rcases lt_trichotomy k l.length with hk | rfl | hk
  · rw [List.getElem?_append_left hk]
    simp [hk.ne]
  · simp
  · have hlength : (l ++ [a]).length ≤ k := by
      rw [List.length_append]
      exact hk
    rw [List.getElem?_eq_none hlength, List.getElem?_eq_none hk.le]
    simp [hk.ne']

/-- The value at an index has the property, and every value with it comes up to this one in an order
of values with their indices. -/
structure IsUltimate (l : List β) (P : β → Prop) (R : ℕ × β → ℕ × β → Prop) (k : ℕ) (b : β) :
    Prop where
  listed : l[k]? = some b
  holds : P b
  upTo : ∀ k' b', l[k']? = some b' → P b' → R (k', b') (k, b)

variable {l : List β} {P : β → Prop} {R : ℕ × β → ℕ × β → Prop} {k : ℕ} {b a : β}

theorem isUltimate_iff_zipIdx :
    IsUltimate l P R k b ↔
      l[k]? = some b ∧ P b ∧
        ∀ entry ∈ l.zipIdx, P entry.1 → R (entry.2, entry.1) (k, b) := by
  constructor
  · rintro ⟨hlisted, hP, hupTo⟩
    exact ⟨hlisted, hP, fun entry hentry =>
      hupTo entry.2 entry.1 (List.mem_zipIdx_iff_getElem?.mp hentry)⟩
  · rintro ⟨hlisted, hP, hupTo⟩
    exact ⟨hlisted, hP, fun k' b' hb' =>
      hupTo (b', k') (List.mem_zipIdx_iff_getElem?.mpr hb')⟩

instance [DecidableEq β] [DecidablePred P] [∀ x y, Decidable (R x y)] :
    Decidable (IsUltimate l P R k b) :=
  decidable_of_iff _ isUltimate_iff_zipIdx.symm

theorem IsUltimate.unique (hR : ∀ x y, R x y → R y x → x.1 = y.1) {k' : ℕ} {b' : β}
    (h : IsUltimate l P R k b) (h' : IsUltimate l P R k' b') : b = b' := by
  have hindex : k = k' :=
    hR (k, b) (k', b') (h'.upTo k b h.listed h.holds) (h.upTo k' b' h'.listed h'.holds)
  have hlisted := h.listed
  rw [hindex, h'.listed] at hlisted
  exact (Option.some.inj hlisted).symm

/-- A value added at the end may become the ultimate one. -/
theorem isUltimate_concat (ha : P a) (hself : R (l.length, a) (l.length, a))
    (hl : ∀ k b, k ≤ l.length → b ∈ l → P b → R (k, b) (l.length, a)) :
    IsUltimate (l ++ [a]) P R l.length a := by
  refine ⟨getElem?_concat_eq_some.mpr (Or.inr ⟨rfl, rfl⟩), ha, ?_⟩
  intro k b hb hP
  rcases getElem?_concat_eq_some.mp hb with hb | ⟨rfl, rfl⟩
  · exact hl k b (List.getElem?_eq_some_iff.mp hb).1.le (List.mem_of_getElem? hb) hP
  · exact hself

theorem IsUltimate.concat (h : IsUltimate l P R k b) (ha : P a → R (l.length, a) (k, b)) :
    IsUltimate (l ++ [a]) P R k b := by
  refine ⟨getElem?_concat_eq_some.mpr (Or.inl h.listed), h.holds, ?_⟩
  intro k' b' hb' hP
  rcases getElem?_concat_eq_some.mp hb' with hb' | ⟨rfl, rfl⟩
  · exact h.upTo k' b' hb' hP
  · exact ha hP

/-- The order of the list. -/
def ListedUpTo (x y : ℕ × β) : Prop :=
  x.1 ≤ y.1

instance (x y : ℕ × β) : Decidable (ListedUpTo x y) :=
  inferInstanceAs (Decidable (x.1 ≤ y.1))

/-- The value at an index has the property, and no value after it has. -/
abbrev IsLast (l : List β) (P : β → Prop) (k : ℕ) (b : β) : Prop :=
  IsUltimate l P ListedUpTo k b

theorem isLast_of_find?_reverse {q : β → Bool} (hfind : l.reverse.find? q = some b) :
    ∃ k, IsLast l (fun b => q b = true) k b := by
  induction l using List.reverseRecOn with
  | nil => simp at hfind
  | append_singleton l a ih =>
      rw [List.reverse_append, List.reverse_singleton, List.singleton_append,
        List.find?_cons] at hfind
      by_cases hq : q a = true
      · rw [hq] at hfind
        cases hfind
        exact ⟨l.length, isUltimate_concat hq le_rfl fun k b hk _ _ => hk⟩
      · rw [Bool.not_eq_true] at hq
        rw [hq] at hfind
        obtain ⟨k, hk⟩ := ih hfind
        exact ⟨k, hk.concat fun ha => absurd ha (by simp [hq])⟩

/-- Searching from the end finds the last value with the property. -/
theorem find?_reverse_eq_some_iff {q : β → Bool} :
    l.reverse.find? q = some b ↔ ∃ k, IsLast l (fun b => q b = true) k b := by
  constructor
  · exact isLast_of_find?_reverse
  · rintro ⟨k, hk⟩
    cases hfind : l.reverse.find? q with
    | none =>
        have hmem : b ∈ l.reverse := List.mem_reverse.mpr (List.mem_of_getElem? hk.listed)
        exact absurd hk.holds (List.find?_eq_none.mp hfind b hmem)
    | some b' =>
        obtain ⟨k', hk'⟩ := isLast_of_find?_reverse hfind
        rw [hk'.unique (fun _ _ => le_antisymm) hk]

end LastEntry

section LatestEntry

variable {α : Type} [Scalar α]

/-- The order of the ends; of entries that end together, that of the list. -/
def EndsUpTo (x y : ℕ × ScheduledAction α) : Prop :=
  x.2.endMs < y.2.endMs ∨ x.2.endMs ≤ y.2.endMs ∧ x.1 ≤ y.1

instance (x y : ℕ × ScheduledAction α) : Decidable (EndsUpTo x y) :=
  inferInstanceAs (Decidable (_ ∨ _))

/-- The entry at an index has the property, and of all that have it it ends last; of several the last
listed. -/
abbrev IsLatest (l : List (ScheduledAction α)) (P : ScheduledAction α → Prop) (k : ℕ)
    (s : ScheduledAction α) : Prop :=
  IsUltimate l P EndsUpTo k s

section Lawful

variable [LawfulScalar α] {x y : ℕ × ScheduledAction α} {l : List (ScheduledAction α)}
  {P : ScheduledAction α → Prop} {a s : ScheduledAction α} {k : ℕ}

theorem EndsUpTo.antisymm (hxy : EndsUpTo x y) (hyx : EndsUpTo y x) : x.1 = y.1 := by
  rcases hxy with hlt | ⟨hle, hindex⟩
  · rcases hyx with hlt' | ⟨hle', -⟩
    · exact absurd hlt' (LawfulScalar.not_lt_of_le (LawfulScalar.le_of_lt hlt))
    · exact absurd hlt (LawfulScalar.not_lt_of_le hle')
  · rcases hyx with hlt' | ⟨-, hindex'⟩
    · exact absurd hlt' (LawfulScalar.not_lt_of_le hle)
    · exact le_antisymm hindex hindex'

theorem EndsUpTo.endMs_le (hxy : EndsUpTo x y) : x.2.endMs ≤ y.2.endMs := by
  rcases hxy with hlt | ⟨hle, -⟩
  · exact LawfulScalar.le_of_lt hlt
  · exact hle

/-- An entry added at the end that ends no earlier than the latest one is the latest. -/
theorem IsUltimate.concat_latest (hk : IsLatest l P k s) (ha : P a) (hle : s.endMs ≤ a.endMs) :
    IsLatest (l ++ [a]) P l.length a := by
  obtain ⟨-, hnumber⟩ := LawfulScalar.isNaN_of_le hle
  refine isUltimate_concat ha (Or.inr ⟨LawfulScalar.le_refl hnumber, le_rfl⟩) ?_
  intro k' s' hk' hs' hP
  obtain ⟨k'', hk''⟩ := List.mem_iff_getElem?.mp hs'
  exact Or.inr ⟨LawfulScalar.le_trans (hk.upTo k'' s' hk'' hP).endMs_le hle, hk'⟩

/-- An entry added at the end is the latest one if no other has the property. -/
theorem isLatest_concat_of_forall_not (ha : P a) (hnumber : Scalar.isNaN a.endMs = false)
    (hl : ∀ s ∈ l, ¬P s) : IsLatest (l ++ [a]) P l.length a :=
  isUltimate_concat ha (Or.inr ⟨LawfulScalar.le_refl hnumber, le_rfl⟩)
    fun _ s _ hs hP => absurd hP (hl s hs)

/-- Of entries that end at all one ends last. -/
theorem exists_isLatest (hnumbers : ∀ s ∈ l, Scalar.isNaN s.endMs = false) (hl : ∃ s ∈ l, P s) :
    ∃ k s, IsLatest l P k s := by
  induction l using List.reverseRecOn with
  | nil => simp at hl
  | append_singleton l a ih =>
      obtain ⟨hbefore, hnumber⟩ := List.forall_mem_append.mp hnumbers
      replace hnumber := List.forall_mem_singleton.mp hnumber
      by_cases hany : ∃ s ∈ l, P s
      · obtain ⟨k, s, hk⟩ := ih hbefore hany
        by_cases ha : P a
        · by_cases hlt : a.endMs < s.endMs
          · exact ⟨k, s, hk.concat fun _ => Or.inl hlt⟩
          · have hle := (LawfulScalar.not_lt hnumber
              (hbefore s (List.mem_of_getElem? hk.listed))).mp hlt
            exact ⟨l.length, a, hk.concat_latest ha hle⟩
        · exact ⟨k, s, hk.concat fun hP => absurd hP ha⟩
      · push Not at hany
        obtain ⟨s, hs, hP⟩ := hl
        rcases List.mem_append.mp hs with hs | hs
        · exact absurd hP (hany s hs)
        · obtain rfl := List.mem_singleton.mp hs
          exact ⟨l.length, s, isLatest_concat_of_forall_not hP hnumber hany⟩

end Lawful

end LatestEntry

section LastEnded

variable {l : List (ScheduledAction ℚ)} {q : ScheduledAction ℚ → Bool} {a : ScheduledAction ℚ}
  {t : ℚ}

theorem endsUpTo_iff {x y : ℕ × ScheduledAction ℚ} :
    EndsUpTo x y ↔ x.2.endMs < y.2.endMs ∨ x.2.endMs = y.2.endMs ∧ x.1 ≤ y.1 := by
  unfold EndsUpTo
  rw [le_iff_lt_or_eq]
  tauto

theorem lastEnded?_concat (l : List (ScheduledAction ℚ)) (a : ScheduledAction ℚ) (t : ℚ) :
    lastEnded? (l ++ [a]) t =
      if a.endMs < t then
        match lastEnded? l t with
        | some latest => if latest.endMs ≤ a.endMs then some a else some latest
        | none => some a
      else lastEnded? l t := by
  by_cases hended : a.endMs < t
  · have hfilter : [a].filter (fun a => decide (a.endMs < t)) = [a] :=
      List.filter_cons_of_pos (decide_eq_true hended)
    rw [if_pos hended, lastEnded?, List.filter_append, hfilter, List.foldl_append, List.foldl_cons,
      List.foldl_nil, ← lastEnded?]
    cases lastEnded? l t with
    | none => rfl
    | some latest => simp only [Scalar.totalLE, decide_eq_true_iff]
  · have hfilter : [a].filter (fun a => decide (a.endMs < t)) = [] :=
      List.filter_cons_of_neg (by simpa using hended)
    rw [if_neg hended, lastEnded?, List.filter_append, hfilter, List.append_nil, ← lastEnded?]

theorem lastEnded?_filter_concat_of_not (ha : ¬(q a = true ∧ a.endMs < t)) :
    lastEnded? ((l ++ [a]).filter q) t = lastEnded? (l.filter q) t := by
  rw [List.filter_append]
  by_cases hq : q a = true
  · have hended : ¬a.endMs < t := fun hended => ha ⟨hq, hended⟩
    rw [List.filter_cons_of_pos hq, List.filter_nil, lastEnded?_concat, if_neg hended]
  · rw [List.filter_cons_of_neg hq, List.filter_nil, List.append_nil]

theorem lastEnded?_filter_concat (hq : q a = true) (hended : a.endMs < t) :
    lastEnded? ((l ++ [a]).filter q) t =
      match lastEnded? (l.filter q) t with
      | some latest => if latest.endMs ≤ a.endMs then some a else some latest
      | none => some a := by
  rw [List.filter_append, List.filter_cons_of_pos hq, List.filter_nil, lastEnded?_concat,
    if_pos hended]

/-- Of the entries with a property that ended before an instant, the one that ended last is found. -/
theorem lastEnded?_spec (l : List (ScheduledAction ℚ)) (q : ScheduledAction ℚ → Bool) (t : ℚ) :
    (∀ s, lastEnded? (l.filter q) t = some s →
      ∃ k, IsLatest l (fun s => q s = true ∧ s.endMs < t) k s) ∧
    (lastEnded? (l.filter q) t = none → ∀ s ∈ l, ¬(q s = true ∧ s.endMs < t)) := by
  induction l using List.reverseRecOn with
  | nil => simp [lastEnded?]
  | append_singleton l a ih =>
      obtain ⟨hsome, hnone⟩ := ih
      by_cases ha : q a = true ∧ a.endMs < t
      · rw [lastEnded?_filter_concat ha.1 ha.2]
        cases hlast : lastEnded? (l.filter q) t with
        | none =>
            refine ⟨?_, by simp⟩
            rintro s ⟨⟩
            exact ⟨l.length, isLatest_concat_of_forall_not ha rfl (hnone hlast)⟩
        | some latest =>
            obtain ⟨k, hk⟩ := hsome latest hlast
            by_cases hle : latest.endMs ≤ a.endMs
            · simp only [if_pos hle]
              refine ⟨?_, by simp⟩
              rintro s ⟨⟩
              exact ⟨l.length, hk.concat_latest ha hle⟩
            · simp only [if_neg hle]
              refine ⟨?_, by simp⟩
              rintro s ⟨⟩
              exact ⟨k, hk.concat fun _ => Or.inl (not_le.mp hle)⟩
      · rw [lastEnded?_filter_concat_of_not ha]
        constructor
        · intro s hs
          obtain ⟨k, hk⟩ := hsome s hs
          exact ⟨k, hk.concat fun hP => absurd hP ha⟩
        · intro hlast s hs
          rcases List.mem_append.mp hs with hs | hs
          · exact hnone hlast s hs
          · rw [List.mem_singleton.mp hs]
            exact ha

theorem lastEnded?_eq_some_iff {s : ScheduledAction ℚ} :
    lastEnded? (l.filter q) t = some s ↔
      ∃ k, IsLatest l (fun s => q s = true ∧ s.endMs < t) k s := by
  obtain ⟨hsome, hnone⟩ := lastEnded?_spec l q t
  constructor
  · exact hsome s
  · rintro ⟨k, hk⟩
    cases hlast : lastEnded? (l.filter q) t with
    | none => exact absurd hk.holds (hnone hlast s (List.mem_of_getElem? hk.listed))
    | some s' =>
        obtain ⟨k', hk'⟩ := hsome s' hlast
        rw [hk'.unique (fun _ _ => EndsUpTo.antisymm) hk]

theorem lastEnded?_isSome {s : ScheduledAction ℚ} (hs : s ∈ l.filter q) (hended : s.endMs < t) :
    ∃ s', lastEnded? (l.filter q) t = some s' := by
  obtain ⟨hmem, hq⟩ := List.mem_filter.mp hs
  cases hlast : lastEnded? (l.filter q) t with
  | none => exact absurd ⟨hq, hended⟩ ((lastEnded?_spec l q t).2 hlast s hmem)
  | some s' => exact ⟨s', rfl⟩

end LastEnded

namespace Schedule

variable {α : Type}

/-- The entries of the actions that an object performs. -/
def entriesOf (s : Schedule α) (id : ObjectId) : List (ScheduledAction α) :=
  s.actions.filter fun a => a.performer = some id

theorem map_performedBy (s : Schedule α) (id : ObjectId) :
    (s.performedBy id).map (s.actions[·]?) = (s.entriesOf id).map some := by
  have hentries : s.entriesOf id =
      (s.actions.zipIdx.filter fun entry => entry.1.performer = some id).map Prod.fst := by
    unfold entriesOf
    conv_lhs => rw [← List.zipIdx_map_fst 0 s.actions, List.filter_map]
    rfl
  unfold performedBy
  rw [hentries, List.map_map, List.map_map]
  apply List.map_congr_left
  intro entry hentry
  exact List.mem_zipIdx_iff_getElem?.mp (List.mem_of_mem_filter hentry)

theorem getLast?_performedBy (s : Schedule α) (id : ObjectId) :
    (s.performedBy id).getLast?.bind (s.actions[·]?) = (s.entriesOf id).getLast? := by
  have hlast := congrArg List.getLast? (map_performedBy s id)
  rw [List.getLast?_map, List.getLast?_map] at hlast
  calc
    (s.performedBy id).getLast?.bind (s.actions[·]?) =
        ((s.performedBy id).getLast?.map (s.actions[·]?)).join := by
      cases (s.performedBy id).getLast? <;> rfl
    _ = (s.entriesOf id).getLast? := by
      rw [hlast]
      cases (s.entriesOf id).getLast? <;> rfl

theorem mem_entriesOf {s : Schedule α} {id : ObjectId} {a : ScheduledAction α} :
    a ∈ s.entriesOf id ↔ ∃ k : ℕ, s.actions[k]? = some a ∧ a.performer = some id := by
  unfold entriesOf
  rw [List.mem_filter, List.mem_iff_getElem?, decide_eq_true_iff, exists_and_right]

theorem find?_entriesOf {s : Schedule α} {id : ObjectId} {q : ScheduledAction α → Bool}
    {a : ScheduledAction α} :
    (s.entriesOf id).reverse.find? q = some a ↔
      ∃ k, IsLast s.actions (fun a => a.performer = some id ∧ q a = true) k a := by
  unfold entriesOf
  rw [← List.filter_reverse, List.find?_filter, find?_reverse_eq_some_iff]
  simp only [decide_eq_true_iff]

theorem find?_contains_entriesOf {s : Schedule ℚ} {id : ObjectId} {t : ℚ} {a : ScheduledAction ℚ} :
    (s.entriesOf id).reverse.find? (·.contains t) = some a ↔
      ∃ k, IsLast s.actions (fun a => a.performer = some id ∧ a.move.Covers t) k a := by
  rw [find?_entriesOf]
  simp only [ScheduledAction.contains_iff]

theorem getLast?_entriesOf {s : Schedule α} {id : ObjectId} {a : ScheduledAction α} :
    (s.entriesOf id).getLast? = some a ↔
      ∃ k, IsLast s.actions (fun a => a.performer = some id) k a := by
  have hfind : (s.entriesOf id).getLast? = (s.entriesOf id).reverse.find? fun _ => true := by
    rw [List.getLast?_eq_head?_reverse]
    cases (s.entriesOf id).reverse <;> rfl
  rw [hfind, find?_entriesOf]
  simp only [and_true]

theorem lastEnded?_entriesOf {s : Schedule ℚ} {id : ObjectId} {t : ℚ} {a : ScheduledAction ℚ} :
    lastEnded? (s.entriesOf id) t = some a ↔
      ∃ k, IsLatest s.actions (fun a => a.performer = some id ∧ a.endMs < t) k a := by
  unfold entriesOf
  rw [lastEnded?_eq_some_iff]
  simp only [decide_eq_true_iff]

end Schedule

namespace Track

section Rules

variable {α : Type} {track : Track α} {s : Schedule α} {id : ObjectId}

/-- The track of an object follows the entries of that object. -/
theorem entries_eq_entriesOf (htrack : track.actions = s.performedBy id) :
    track.entries s = s.entriesOf id := by
  unfold entries
  calc
    track.actions.filterMap (s.actions[·]?) =
        ((s.performedBy id).map (s.actions[·]?)).filterMap fun s => s := by
      rw [htrack, List.filterMap_map]
      rfl
    _ = s.entriesOf id := by
      rw [Schedule.map_performedBy, List.filterMap_map]
      exact List.filterMap_some

variable [Scalar α] {t : α} (htrack : track.actions = s.performedBy id)

include htrack

theorem positionAt_waits (hbusy : s.entriesOf id ≠ [])
    (hearly : ∀ a ∈ s.entriesOf id, ¬a.startMs < t) : track.positionAt s t = track.departing := by
  have hstarted : (s.entriesOf id).any (fun a => a.startMs < t) = false := by
    rw [List.any_eq_false]
    intro a ha
    simpa using hearly a ha
  unfold positionAt
  rw [entries_eq_entriesOf htrack]
  simp [hbusy, hstarted]

variable (hstarted : ∃ a ∈ s.entriesOf id, a.startMs < t)

include hstarted

omit htrack in
/-- Once an entry has started, the rules for busy objects that have not arrived apply. -/
theorem any_startMs_lt :
    s.entriesOf id ≠ [] ∧ (s.entriesOf id).any (fun a => a.startMs < t) = true := by
  obtain ⟨a, ha, hlt⟩ := hstarted
  exact ⟨List.ne_nil_of_mem ha, List.any_eq_true.mpr ⟨a, ha, decide_eq_true hlt⟩⟩

theorem positionAt_arrives (hover : ∀ a ∈ s.entriesOf id, ¬t < a.endMs) :
    track.positionAt s t = track.arriving := by
  obtain ⟨hbusy, hany⟩ := any_startMs_lt hstarted
  have hpending : (s.entriesOf id).any (fun a => t < a.endMs) = false := by
    rw [List.any_eq_false]
    intro a ha
    simpa using hover a ha
  unfold positionAt
  rw [entries_eq_entriesOf htrack]
  simp [hbusy, hany, hpending]

theorem positionAt_moves (hpending : ∃ a ∈ s.entriesOf id, t < a.endMs) {active : ScheduledAction α}
    (hactive : (s.entriesOf id).reverse.find? (·.contains t) = some active) :
    track.positionAt s t = active.positionAt t := by
  obtain ⟨hbusy, hany⟩ := any_startMs_lt hstarted
  have hpending : (s.entriesOf id).any (fun a => t < a.endMs) = true := by
    simpa using hpending
  unfold positionAt
  rw [entries_eq_entriesOf htrack]
  simp only [List.isEmpty_iff, if_neg hbusy, hany, hpending, hactive]
  rfl

theorem positionAt_rests (hpending : ∃ a ∈ s.entriesOf id, t < a.endMs)
    (hidle : (s.entriesOf id).reverse.find? (·.contains t) = none) {ended : ScheduledAction α}
    (hended : lastEnded? (s.entriesOf id) t = some ended) :
    track.positionAt s t = ended.target := by
  obtain ⟨hbusy, hany⟩ := any_startMs_lt hstarted
  have hpending : (s.entriesOf id).any (fun a => t < a.endMs) = true := by
    simpa using hpending
  unfold positionAt
  rw [entries_eq_entriesOf htrack]
  simp only [List.isEmpty_iff, if_neg hbusy, hany, hpending, hidle, hended]
  rfl

end Rules

/-- Without entries the object glides along with the time, if there is any. -/
theorem positionAt_glides {track : Track ℚ} {s : Schedule ℚ} {t : ℚ} (hidle : track.entries s = [])
    (hzero : 0 ≤ t) (htotal : t ≤ s.totalMs) :
    track.positionAt s t =
      if s.totalMs = 0 then track.departing
      else track.departing.partWay track.arriving (t / s.totalMs) := by
  have hnonneg : 0 ≤ s.totalMs := hzero.trans htotal
  unfold positionAt
  rw [hidle]
  by_cases hdwell : s.totalMs = 0
  · have hle : s.totalMs ≤ 0 := hdwell.le
    rw [if_pos hdwell]
    exact if_pos hle
  · have hlt : ¬s.totalMs ≤ 0 := not_le.mpr (lt_of_le_of_ne hnonneg (Ne.symm hdwell))
    rw [if_neg hdwell]
    exact (if_neg hlt).trans
      (Point.lerp_eq_partWay _ _ (div_nonneg hzero hnonneg) (div_le_one_of_le₀ htotal hnonneg))

end Track

end PlayDiagram
