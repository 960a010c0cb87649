import PlayDiagram.Proofs.Playback.ScheduleEntries

/-!
# The first pass of a phase

Only the first action of a phase that passes the ball moves it.  The flip of the schedule is the one
that this action performs when its window ends (`Schedule.flip?_eq_some_iff`), whatever follows it.
-/

namespace PlayDiagram

/-- A search finds the first value that gives a result. -/
theorem findSome?_eq_some_iff_getElem? {β γ : Type} {f : β → Option γ} {l : List β} {c : γ} :
    l.findSome? f = some c ↔
      ∃ (k : ℕ) (b : β), l[k]? = some b ∧ f b = some c ∧
        ∀ (j : ℕ) (b' : β), j < k → l[j]? = some b' → f b' = none := by
  rw [List.findSome?_eq_some_iff]
  constructor
  · rintro ⟨before, b, after, rfl, hb, hbefore⟩
    refine ⟨before.length, b, by simp, hb, fun j b' hj hb' => hbefore b' ?_⟩
    rw [List.getElem?_append_left hj] at hb'
    exact List.mem_of_getElem? hb'
  · rintro ⟨k, b, hk, hb, hbefore⟩
    obtain ⟨hlt, rfl⟩ := List.getElem?_eq_some_iff.mp hk
    refine ⟨l.take k, l[k], l.drop (k + 1), by simp, hb, fun b' hb' => ?_⟩
    obtain ⟨j, hj, rfl⟩ := List.mem_take_iff_getElem.mp hb'
    exact hbefore j _ (by omega) (List.getElem?_eq_getElem (by omega))

variable {α : Type}

/-- The action at an index passes the ball from one object to another, and none before it does. -/
structure IsFirstPass (actions : List (Action α)) (k : ℕ) (a : Action α)
    (giver receiver : ObjectId) : Prop where
  listed : actions[k]? = some a
  passes : a.possessionChange? = some (giver, receiver)
  first : ∀ j b, j < k → actions[j]? = some b → b.possessionChange? = none

/-- What follows the first pass does not matter. -/
theorem IsFirstPass.take_append {actions : List (Action α)} {k : ℕ} {a : Action α}
    {giver receiver : ObjectId} (h : IsFirstPass actions k a giver receiver)
    (later : List (Action α)) :
    IsFirstPass (actions.take (k + 1) ++ later) k a giver receiver := by
  have hk : k < actions.length := (List.getElem?_eq_some_iff.mp h.listed).1
  have hsame : ∀ j, j ≤ k → (actions.take (k + 1) ++ later)[j]? = actions[j]? := by
    intro j hj
    rw [List.getElem?_append_left (by rw [List.length_take]; omega),
      List.getElem?_take_of_lt (Nat.lt_succ_of_le hj)]
  exact ⟨(hsame k (Nat.le_refl k)).trans h.listed, h.passes, fun j b hj hb =>
    h.first j b hj ((hsame j (Nat.le_of_lt hj)).symm.trans hb)⟩

theorem ScheduledAction.Depicts.flip? {s : ScheduledAction α} {a : Action α} (h : s.Depicts a) :
    s.flip? = a.possessionChange?.map fun (giver, receiver) => ⟨a.id, giver, receiver, s.endMs⟩ := by
  unfold ScheduledAction.flip?
  rw [h.possessionChange?, h.id]

namespace Schedule

variable [Scalar α] {tempo : Tempo α} {actions : List (Action α)}

/-- The flip of a schedule is that of the first pass, at the end of its window. -/
theorem flip?_eq_some_iff {flip : Flip α} :
    (ofActions tempo actions).flip? = some flip ↔
      ∃ k a s, IsFirstPass actions k a flip.giver flip.receiver ∧ flip.action = a.id ∧
        (ofActions tempo actions).actions[k]? = some s ∧ flip.atMs = s.endMs := by
  unfold flip?
  rw [findSome?_eq_some_iff_getElem?]
  constructor
  · rintro ⟨k, s, hs, hflip, hbefore⟩
    obtain ⟨a, ha, hdepicts⟩ := exists_action_of_entry hs
    rw [hdepicts.flip?, Option.map_eq_some_iff] at hflip
    obtain ⟨⟨giver, receiver⟩, hpasses, rfl⟩ := hflip
    refine ⟨k, a, s, ⟨ha, hpasses, ?_⟩, rfl, hs, rfl⟩
    intro j b hj hb
    obtain ⟨s', hs', hdepicts'⟩ := exists_entry_of_action tempo hb
    have hnone := hbefore j s' hj hs'
    rwa [hdepicts'.flip?, Option.map_eq_none_iff] at hnone
  · rintro ⟨k, a, s, hfirst, hid, hs, hend⟩
    obtain ⟨a', ha', hdepicts⟩ := exists_action_of_entry hs
    obtain rfl := Option.some.inj (hfirst.listed.symm.trans ha')
    refine ⟨k, s, hs, ?_, ?_⟩
    · rw [hdepicts.flip?, hfirst.passes, ← hid, ← hend]
      rfl
    · intro j s' hj hs'
      obtain ⟨b, hb, hdepicts'⟩ := exists_action_of_entry hs'
      rw [hdepicts'.flip?, hfirst.first j b hj hb]
      rfl

/-- There is a flip exactly if an action passes the ball. -/
theorem flip?_isSome_iff :
    (ofActions tempo actions).flip?.isSome = true ↔
      ∃ a ∈ actions, a.possessionChange?.isSome = true := by
  unfold flip?
  rw [List.findSome?_isSome_iff]
  constructor
  · rintro ⟨s, hs, hflip⟩
    obtain ⟨k, hk⟩ := List.mem_iff_getElem?.mp hs
    obtain ⟨a, ha, hdepicts⟩ := exists_action_of_entry hk
    rw [hdepicts.flip?, Option.isSome_map] at hflip
    exact ⟨a, List.mem_of_getElem? ha, hflip⟩
  · rintro ⟨a, ha, hpasses⟩
    obtain ⟨k, hk⟩ := List.mem_iff_getElem?.mp ha
    obtain ⟨s, hs, hdepicts⟩ := exists_entry_of_action tempo hk
    refine ⟨s, List.mem_of_getElem? hs, ?_⟩
    rw [hdepicts.flip?, Option.isSome_map]
    exact hpasses

end Schedule

end PlayDiagram
