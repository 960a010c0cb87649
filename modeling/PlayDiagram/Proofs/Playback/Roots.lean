import Mathlib.Data.Nat.Find
import PlayDiagram.Proofs.Playback.LayOut

/-!
# The times of a schedule in closed form

An action starts together with its root, the last action up to it that comes after the previous ones,
and the root starts when everything before it has ended.  So each time of a schedule is the greatest of
some ends (`ofActions_times`); the cursor that the actions are laid out with keeps just these.
-/

namespace PlayDiagram

section Roots

variable {α : Type}

/-- The action at an index comes after the previous ones: its trigger says so, or it is the first. -/
def IsRoot (actions : List (Action α)) (i : ℕ) : Prop :=
  i = 0 ∨ actions[i]?.map (·.timing.trigger) = some .afterPrevious

instance (actions : List (Action α)) : DecidablePred (IsRoot actions) := fun _ =>
  inferInstanceAs (Decidable (_ ∨ _))

/-- The index of the root of the action at an index: the last one up to it that comes after the previous
ones. -/
def rootOf (actions : List (Action α)) (j : ℕ) : ℕ :=
  Nat.findGreatest (IsRoot actions) j

theorem rootOf_of_isRoot {actions : List (Action α)} {j : ℕ} (hroot : IsRoot actions j) :
    rootOf actions j = j :=
  Nat.findGreatest_eq hroot

theorem rootOf_succ_of_not {actions : List (Action α)} {j : ℕ} (hroot : ¬IsRoot actions (j + 1)) :
    rootOf actions (j + 1) = rootOf actions j :=
  Nat.findGreatest_of_not hroot

theorem rootOf_le (actions : List (Action α)) (j : ℕ) : rootOf actions j ≤ j :=
  Nat.findGreatest_le j

theorem isRoot_rootOf (actions : List (Action α)) (j : ℕ) : IsRoot actions (rootOf actions j) :=
  Nat.findGreatest_spec (Nat.zero_le j) (Or.inl rfl)

/-- The trigger that is applied to the action at an index. -/
def triggerAt (j : ℕ) (a : Action α) : Trigger :=
  if j = 0 then .afterPrevious else a.timing.trigger

theorem Trigger.eq_withPrevious_of_ne {trigger : Trigger} (h : trigger ≠ .afterPrevious) :
    trigger = .withPrevious := by
  cases trigger with
  | afterPrevious => exact absurd rfl h
  | withPrevious => rfl

theorem isRoot_iff {actions : List (Action α)} {j : ℕ} {a : Action α} (ha : actions[j]? = some a) :
    IsRoot actions j ↔ triggerAt j a = .afterPrevious := by
  by_cases hj : j = 0
  · simp [IsRoot, triggerAt, hj]
  · simp [IsRoot, triggerAt, hj, ha]

theorem Schedule.rooted_getElem? {actions : List (Action α)} {j : ℕ} {a : Action α}
    (ha : actions[j]? = some a) :
    (rooted actions)[j]? = some (a.triggered (triggerAt j a)) := by
  rcases actions with _ | ⟨x, rest⟩
  · simp at ha
  · rcases j with _ | j
    · obtain rfl : x = a := by simpa using ha
      rfl
    · exact ha

/-- The entry at an index is the action there, placed by the cursor that those before it leave behind. -/
theorem Schedule.ofActions_getElem? [Scalar α] (tempo : Tempo α) {actions : List (Action α)} {j : ℕ}
    {a : Action α} (ha : actions[j]? = some a) :
    (ofActions tempo actions).actions[j]? =
      some ((a.triggered (triggerAt j a)).placed
        ((Cursor.after tempo ⟨0, 0⟩ (rooted (actions.take j))).place (triggerAt j a)
          (tempo.lengthMs a.timing)).1 (tempo.lengthMs a.timing)) := by
  rw [ofActions_eq_layOut, layOut_getElem? tempo _ (rooted_getElem? ha), rooted_take]
  rfl

end Roots

/-! ## Starts of roots -/

namespace Schedule

variable {α : Type} [Scalar α] (tempo : Tempo α)

/-- A root starts when everything before it has ended. -/
theorem ofActions_startMs_of_isRoot {actions : List (Action α)} {j : ℕ} {entry : ScheduledAction α}
    (hentry : (ofActions tempo actions).actions[j]? = some entry) (hroot : IsRoot actions j) :
    entry.startMs = (ofActions tempo (actions.take j)).totalMs := by
  obtain ⟨a, ha, -⟩ := exists_action_of_entry hentry
  rw [ofActions_getElem? tempo ha, (isRoot_iff ha).mp hroot] at hentry
  obtain rfl := Option.some.inj hentry
  rw [ofActions_eq_layOut, layOut_totalMs]
  rfl

@[simp] theorem ofActions_take (actions : List (Action α)) (k : ℕ) :
    (ofActions tempo (actions.take k)).actions = (ofActions tempo actions).actions.take k := by
  have hfirst := ofActions_append_take tempo (actions.take k) (actions.drop k)
  rw [List.take_append_drop, List.length_take] at hfirst
  rw [← hfirst, ← List.take_take, ← ofActions_length tempo actions, List.take_length]

/-- An entry that comes after the previous ones starts when all of them have ended. -/
theorem ofActions_endMs_le_startMs [LawfulScalar α] {actions : List (Action α)} {k j : ℕ}
    {s s' : ScheduledAction α} (hs : (ofActions tempo actions).actions[k]? = some s)
    (hs' : (ofActions tempo actions).actions[j]? = some s') (hkj : k < j)
    (hafter : s'.trigger = .afterPrevious) : s.endMs ≤ s'.startMs := by
  obtain ⟨a, ha, -⟩ := exists_action_of_entry hs'
  have hroot : IsRoot actions j := by
    rw [ofActions_getElem? tempo ha] at hs'
    obtain rfl := Option.some.inj hs'
    exact (isRoot_iff ha).mpr hafter
  have hbefore : s ∈ (ofActions tempo (actions.take j)).actions := by
    rw [ofActions_take]
    exact List.mem_of_getElem? ((List.getElem?_take_of_lt hkj).trans hs)
  rw [ofActions_startMs_of_isRoot tempo hs' hroot]
  exact (ofActions_window hbefore).2.2

end Schedule

/-! ## Ends -/

/-- The time is when the last of the entries ends: the greatest of their ends, or zero if there are
none. -/
def IsLatestEnd (entries : List (ScheduledAction ℚ)) (timeMs : ℚ) : Prop :=
  entries = [] ∧ timeMs = 0 ∨ IsGreatest {endMs | ∃ s ∈ entries, s.endMs = endMs} timeMs

namespace Schedule

variable (tempo : Tempo ℚ)

theorem layOut_totalMs_isGreatest (c : Cursor ℚ) (actions : List (Action ℚ)) :
    IsGreatest (insert c.freeMs {endMs | ∃ s ∈ (layOut tempo c actions).actions, s.endMs = endMs})
      (layOut tempo c actions).totalMs := by
  induction actions generalizing c with
  | nil =>
      constructor
      · exact Set.mem_insert _ _
      · rintro endMs (rfl | ⟨s, hs, -⟩)
        · exact le_rfl
        · simp [layOut] at hs
  | cons a rest ih =>
      obtain ⟨hmem, hupper⟩ := ih (c.afterAction tempo a)
      have hfree := c.place_freeMs a.timing.trigger (tempo.lengthMs_nonneg a.timing)
      have hnext := hupper (Set.mem_insert _ _)
      rw [Cursor.afterAction, hfree, max_le_iff] at hnext
      rw [layOut_cons]
      constructor
      · rcases hmem with heq | ⟨s, hs, hend⟩
        · rw [Cursor.afterAction, hfree] at heq
          rcases max_choice c.freeMs ((c.place a.timing.trigger (tempo.lengthMs a.timing)).1 +
              tempo.lengthMs a.timing) with hmax | hmax
          · exact Or.inl (heq.trans hmax)
          · exact Or.inr ⟨_, List.mem_cons_self, (heq.trans hmax).symm⟩
        · exact Or.inr ⟨s, List.mem_cons_of_mem _ hs, hend⟩
      · rintro endMs (rfl | ⟨s, hs, rfl⟩)
        · exact hnext.1
        · rcases List.mem_cons.mp hs with rfl | hs
          · exact hnext.2
          · exact hupper (Or.inr ⟨s, hs, rfl⟩)

/-- A schedule ends when the last of its entries does. -/
theorem ofActions_totalMs_isLatestEnd (actions : List (Action ℚ)) :
    IsLatestEnd (ofActions tempo actions).actions (ofActions tempo actions).totalMs := by
  obtain ⟨hmem, hupper⟩ := layOut_totalMs_isGreatest tempo ⟨0, 0⟩ (rooted actions)
  rw [← ofActions_eq_layOut] at hmem hupper
  rcases actions with _ | ⟨a, rest⟩
  · exact Or.inl ⟨rfl, rfl⟩
  · right
    refine ⟨?_, fun endMs hend => hupper (Or.inr hend)⟩
    rcases hmem with hzero | hmem
    · -- The first entry ends no earlier than the schedule starts.
      have hfirst : (a :: rest)[0]? = some a := rfl
      have hentry := List.mem_of_getElem? (ofActions_getElem? tempo hfirst)
      obtain ⟨hstart, hend, hlast⟩ := ofActions_window hentry
      exact ⟨_, hentry, le_antisymm hlast (hzero.le.trans (hstart.trans hend))⟩
    · exact hmem

/-! ## Starts -/

/-- Any other action starts with the one before it. -/
theorem ofActions_startMs_of_not_isRoot {actions : List (Action ℚ)} {j : ℕ}
    {entry before : ScheduledAction ℚ}
    (hentry : (ofActions tempo actions).actions[j + 1]? = some entry)
    (hbefore : (ofActions tempo actions).actions[j]? = some before)
    (hroot : ¬IsRoot actions (j + 1)) : entry.startMs = before.startMs := by
  obtain ⟨a, ha, -⟩ := exists_action_of_entry hentry
  obtain ⟨b, hb, -⟩ := exists_action_of_entry hbefore
  have htaken : rooted (actions.take (j + 1)) =
      rooted (actions.take j) ++ [b.triggered (triggerAt j b)] := by
    rw [← rooted_take, ← rooted_take, List.take_add_one, rooted_getElem? hb, Option.toList_some]
  have htrigger : triggerAt (j + 1) a = .withPrevious := by
    rw [isRoot_iff ha] at hroot
    exact Trigger.eq_withPrevious_of_ne hroot
  rw [ofActions_getElem? tempo ha, htrigger, htaken, Cursor.after_concat] at hentry
  rw [ofActions_getElem? tempo hb] at hbefore
  obtain rfl := Option.some.inj hentry
  obtain rfl := Option.some.inj hbefore
  exact Cursor.place_anchorMs _ _ _

/-- An action starts when everything before its root has ended. -/
theorem ofActions_startMs_eq {actions : List (Action ℚ)} {j : ℕ} {entry : ScheduledAction ℚ}
    (hentry : (ofActions tempo actions).actions[j]? = some entry) :
    entry.startMs = (ofActions tempo (actions.take (rootOf actions j))).totalMs := by
  induction j generalizing entry with
  | zero => exact ofActions_startMs_of_isRoot tempo hentry (Or.inl rfl)
  | succ j ih =>
      by_cases hroot : IsRoot actions (j + 1)
      · rw [rootOf_of_isRoot hroot]
        exact ofActions_startMs_of_isRoot tempo hentry hroot
      · have hj : j < (ofActions tempo actions).actions.length :=
          Nat.lt_of_succ_lt (List.getElem?_eq_some_iff.mp hentry).1
        have hbefore := List.getElem?_eq_getElem hj
        rw [rootOf_succ_of_not hroot, ← ih hbefore]
        exact ofActions_startMs_of_not_isRoot tempo hentry hbefore hroot

/-- A list takes no less time than its beginnings. -/
theorem ofActions_totalMs_le_append (xs ys : List (Action ℚ)) :
    (ofActions tempo xs).totalMs ≤ (ofActions tempo (xs ++ ys)).totalMs := by
  by_cases hxs : xs = []
  · rw [hxs]
    exact ofActions_totalMs_nonneg tempo ys
  · have hlater := (layOut_totalMs_isGreatest tempo (Cursor.after tempo ⟨0, 0⟩ (rooted xs)) ys).2
    rw [ofActions_eq_layOut, ofActions_eq_layOut, rooted_append hxs, layOut_append, layOut_totalMs]
    exact hlater (Set.mem_insert _ _)

theorem ofActions_totalMs_take_mono (actions : List (Action ℚ)) {i j : ℕ} (hij : i ≤ j) :
    (ofActions tempo (actions.take i)).totalMs ≤ (ofActions tempo (actions.take j)).totalMs := by
  obtain ⟨k, rfl⟩ := Nat.exists_eq_add_of_le hij
  rw [List.take_add]
  exact ofActions_totalMs_le_append tempo _ _

/-- No action starts before one that is listed earlier, and one that comes after the previous ones starts
when all of these have ended. -/
theorem ofActions_pairwise (actions : List (Action ℚ)) :
    (ofActions tempo actions).actions.Pairwise fun entry later =>
      entry.startMs ≤ later.startMs ∧
        (later.trigger = .afterPrevious → entry.endMs ≤ later.startMs) := by
  rw [List.pairwise_iff_getElem]
  intro i j hi hj hij
  have hentry := List.getElem?_eq_getElem hi
  have hlater := List.getElem?_eq_getElem hj
  constructor
  · rw [ofActions_startMs_eq tempo hentry, ofActions_startMs_eq tempo hlater]
    exact ofActions_totalMs_take_mono tempo actions (Nat.findGreatest_mono_right _ hij.le)
  · exact ofActions_endMs_le_startMs tempo hentry hlater hij

/-- The times of a schedule.  Each action starts when the last of the entries before its root ends, and
lasts as long as its duration at the speed; the schedule ends when the last of all entries does.  So the
actions of one root start together, and no action starts before one that is listed earlier. -/
theorem ofActions_times (actions : List (Action ℚ)) :
    let s := ofActions tempo actions
    s.actions.length = actions.length ∧
    (∀ j a, actions[j]? = some a → ∃ entry root, s.actions[j]? = some entry ∧
      entry.Depicts a ∧
      entry.trigger = (if j = 0 then .afterPrevious else a.timing.trigger) ∧
      IsLatestEnd (s.actions.take (rootOf actions j)) entry.startMs ∧
      entry.endMs = entry.startMs +
        ((max (a.timing.durationMs.getD tempo.config.defaultMs) tempo.config.floorMs).toNat : ℚ) /
          tempo.speed.value ∧
      s.actions[rootOf actions j]? = some root ∧ entry.startMs = root.startMs) ∧
    IsLatestEnd s.actions s.totalMs ∧
    s.actions.Pairwise fun entry later =>
      entry.startMs ≤ later.startMs ∧
        (later.trigger = .afterPrevious → entry.endMs ≤ later.startMs) := by
  intro s
  refine ⟨ofActions_length tempo actions, fun j a ha => ?_,
    ofActions_totalMs_isLatestEnd tempo actions, ofActions_pairwise tempo actions⟩
  have hentry := ofActions_getElem? tempo ha
  have hstart := ofActions_startMs_eq tempo hentry
  have hroot : rootOf actions j < s.actions.length :=
    (rootOf_le actions j).trans_lt (List.getElem?_eq_some_iff.mp hentry).1
  refine ⟨_, _, hentry, ⟨rfl, rfl, rfl, rfl, rfl, rfl⟩, rfl, ?_, rfl,
    List.getElem?_eq_getElem hroot, ?_⟩
  · rw [hstart, ← ofActions_take]
    exact ofActions_totalMs_isLatestEnd tempo _
  · rw [hstart, ofActions_startMs_eq tempo (List.getElem?_eq_getElem hroot),
      rootOf_of_isRoot (isRoot_rootOf actions j)]

/-- The fourth action goes with the second one, which lasts no longer than the floor, and the first one
has nothing to go with. -/
theorem ofActions_times_fourActions :
    let cut (id : String) (trigger : Trigger) : Action ℚ :=
      (Action.freehand ⟨id⟩ .cut ⟨0, 0⟩ ⟨0, 0⟩).triggered trigger
    let actions := [(cut "a1" .withPrevious).lasting 300, cut "a2" .afterPrevious,
      (cut "a3" .withPrevious).lasting 600, (cut "a4" .withPrevious).lasting 150]
    let tempo : Tempo ℚ := ⟨{ floorMs := 120, defaultMs := 50 }, 2, rfl, by decide⟩
    let s := ofActions tempo actions
    rootOf actions 3 = 1 ∧ s.totalMs = 450 ∧ IsLatestEnd s.actions 450 ∧
      ∃ entry root, s.actions[3]? = some entry ∧ s.actions[1]? = some root ∧
        entry.trigger = .withPrevious ∧ root.endMs = 210 ∧ entry.startMs = root.startMs ∧
        IsLatestEnd (s.actions.take 1) entry.startMs ∧ entry.endMs = entry.startMs + 150 / 2 := by
  intro cut actions tempo s
  have hroot : rootOf actions 3 = 1 := by decide
  have htotal : s.totalMs = 450 := by decide +kernel
  obtain ⟨-, hentries, hlatest, -⟩ := ofActions_times tempo actions
  obtain ⟨entry, root, hentry, -, htrigger, hstart, hend, hat, hsame⟩ := hentries 3 _ rfl
  rw [hroot] at hstart hat
  have hends : s.actions[1]?.map (·.endMs) = some 210 := by decide +kernel
  rw [show s.actions[1]? = some root from hat, Option.map_some, Option.some.injEq] at hends
  have hlength : ((max (150 : UInt32) 120).toNat : ℚ) / 2 = 150 / 2 := by decide +kernel
  exact ⟨hroot, htotal, htotal ▸ hlatest, entry, root, hentry, hat, htrigger, hends, hsame, hstart,
    hend.trans (congrArg (entry.startMs + ·) hlength)⟩

end Schedule

end PlayDiagram
