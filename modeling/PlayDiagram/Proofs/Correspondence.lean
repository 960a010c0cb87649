import Mathlib.Data.List.Forall2

/-!
# Lists whose elements correspond

What two lists have in common whose elements correspond one by one.
-/

namespace PlayDiagram

variable {β γ δ : Type}

/-- Corresponding lists have corresponding values at an index. -/
theorem getElem?_of_forall₂ {R : β → γ → Prop} {l : List β} {m : List γ}
    (hlm : List.Forall₂ R l m) {i : ℕ} {x : β} {y : γ} (hx : l[i]? = some x) (hy : m[i]? = some y) :
    R x y := by
  obtain ⟨hi, rfl⟩ := List.getElem?_eq_some_iff.mp hx
  obtain ⟨hi', rfl⟩ := List.getElem?_eq_some_iff.mp hy
  exact hlm.get hi hi'

/-- Lists whose elements correspond have the same first result of a search. -/
theorem findSome?_eq_of_forall₂ {R : β → γ → Prop} {f : β → Option δ} {g : γ → Option δ} {l : List β}
    {m : List γ} (hlm : List.Forall₂ R l m) (hfg : ∀ b c, R b c → f b = g c) :
    l.findSome? f = m.findSome? g := by
  induction hlm with
  | nil => rfl
  | cons hhead _ ih => rw [List.findSome?_cons, List.findSome?_cons, hfg _ _ hhead, ih]

/-- Lists whose elements correspond have the same values. -/
theorem map_eq_of_forall₂ {R : β → γ → Prop} {f : β → δ} {g : γ → δ} {l : List β} {m : List γ}
    (hlm : List.Forall₂ R l m) (hfg : ∀ b c, R b c → f b = g c) : l.map f = m.map g := by
  rw [← List.forall₂_eq_eq_eq, List.forall₂_map_left_iff, List.forall₂_map_right_iff]
  exact hlm.imp hfg

/-- Lists whose elements correspond have the same elements that pass a test, if the test passes
elements and their counterparts alike, and only those that are equal. -/
theorem filter_eq_of_forall₂ {R : β → β → Prop} {test : β → Bool} {l m : List β}
    (hlm : List.Forall₂ R l m)
    (htest : ∀ x y, R x y → test y = test x ∧ (test x = true → y = x)) :
    m.filter test = l.filter test := by
  induction hlm with
  | nil => rfl
  | @cons x y l m hxy _ ih =>
      obtain ⟨hsame, heq⟩ := htest x y hxy
      by_cases hx : test x = true
      · rw [List.filter_cons_of_pos hx, List.filter_cons_of_pos (hsame.trans hx), heq hx, ih]
      · rw [List.filter_cons_of_neg hx, List.filter_cons_of_neg (hsame ▸ hx), ih]

end PlayDiagram
