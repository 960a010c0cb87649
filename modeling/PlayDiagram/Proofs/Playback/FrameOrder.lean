import Mathlib.Data.List.Induction
import Mathlib.Data.List.Nodup
import Mathlib.Data.String.Basic
import PlayDiagram.Playback.Frame
import PlayDiagram.Proofs.Lookup

/-!
# The order of the points in a frame

`orderByObject` lists each object once, in the order of the names, and keeps the point that was given
last for it.  Where every object is given once, it keeps all of them (`lookup_orderByObject`).
-/

namespace PlayDiagram

theorem ObjectId.lt_trans {a b c : ObjectId} (hab : a < b) (hbc : b < c) : a < c :=
  show a.text < c.text from String.lt_trans hab hbc

theorem ObjectId.lt_irrefl (a : ObjectId) : ¬a < a :=
  String.lt_irrefl a.text

/-- Names in strict order are different. -/
theorem nodup_of_sorted {names : List ObjectId} (hnames : names.Pairwise (· < ·)) : names.Nodup := by
  apply List.Pairwise.imp _ hnames
  rintro a _ hlt rfl
  exact ObjectId.lt_irrefl a hlt

theorem ObjectId.lt_of_not_lt_of_ne {a b : ObjectId} (hlt : ¬a < b) (hne : a ≠ b) : b < a := by
  have htext : a.text ≠ b.text := fun h => hne (congrArg ObjectId.mk h)
  have hle : b.text ≤ a.text := not_lt.mp (show ¬a.text < b.text from hlt)
  exact lt_of_le_of_ne hle htext.symm

variable {β : Type}

@[simp] theorem mem_keys_placeObject {id key : ObjectId} {p : β} {l : List (ObjectId × β)} :
    key ∈ (placeObject id p l).map Prod.fst ↔ key = id ∨ key ∈ l.map Prod.fst := by
  induction l with
  | nil => simp [placeObject]
  | cons entry rest ih =>
      obtain ⟨other, q⟩ := entry
      unfold placeObject
      split_ifs with hlt heq
      · simp
      · subst heq
        simp
      · rw [List.map_cons, List.map_cons, List.mem_cons, List.mem_cons, ih]
        exact or_left_comm

/-- Setting a point keeps the names in strict order. -/
theorem placeObject_sorted {id : ObjectId} {p : β} {l : List (ObjectId × β)}
    (hl : (l.map Prod.fst).Pairwise (· < ·)) :
    ((placeObject id p l).map Prod.fst).Pairwise (· < ·) := by
  induction l with
  | nil => simp [placeObject]
  | cons entry rest ih =>
      obtain ⟨other, q⟩ := entry
      have hrest := List.pairwise_cons.mp hl
      unfold placeObject
      split_ifs with hlt heq
      · refine List.pairwise_cons.mpr ⟨?_, hl⟩
        intro key hkey
        rcases List.mem_cons.mp hkey with rfl | hkey
        · exact hlt
        · exact ObjectId.lt_trans hlt (hrest.1 key hkey)
      · subst heq
        exact hl
      · refine List.pairwise_cons.mpr ⟨?_, ih hrest.2⟩
        intro key hkey
        rcases mem_keys_placeObject.mp hkey with rfl | hkey
        · exact ObjectId.lt_of_not_lt_of_ne hlt heq
        · exact hrest.1 key hkey

/-- Setting the point of one object leaves the others where they are. -/
@[simp] theorem lookup_placeObject (id key : ObjectId) (p : β) (l : List (ObjectId × β)) :
    (placeObject id p l).lookup key = if key = id then some p else l.lookup key := by
  induction l with
  | nil => rw [placeObject, lookup_cons_eq_ite]
  | cons entry rest ih =>
      obtain ⟨other, q⟩ := entry
      unfold placeObject
      by_cases hlt : id < other
      · rw [if_pos hlt, lookup_cons_eq_ite]
      · rw [if_neg hlt]
        by_cases heq : id = other
        · subst heq
          rw [if_pos rfl, lookup_cons_eq_ite, lookup_cons_eq_ite]
          by_cases hkey : key = id
          · rw [if_pos hkey, if_pos hkey]
          · rw [if_neg hkey, if_neg hkey, if_neg hkey]
        · rw [if_neg heq, lookup_cons_eq_ite, lookup_cons_eq_ite, ih]
          by_cases hkey : key = other
          · have hid : key ≠ id := fun h => heq (h.symm.trans hkey)
            rw [if_pos hkey, if_pos hkey, if_neg hid]
          · rw [if_neg hkey, if_neg hkey]

/-- Of several points of an object the last one counts. -/
theorem lookup_orderByObject_eq_reverse (placed : List (ObjectId × β)) (key : ObjectId) :
    (orderByObject placed).lookup key = placed.reverse.lookup key := by
  unfold orderByObject
  induction placed using List.reverseRecOn with
  | nil => rfl
  | append_singleton rest entry ih =>
      rw [List.foldl_append, List.foldl_cons, List.foldl_nil, lookup_placeObject, ih,
        List.reverse_append, List.reverse_singleton, List.singleton_append, lookup_cons_eq_ite]

theorem lookup_orderByObject {placed : List (ObjectId × β)}
    (hnodup : (placed.map Prod.fst).Nodup) (key : ObjectId) :
    (orderByObject placed).lookup key = placed.lookup key := by
  rw [lookup_orderByObject_eq_reverse]
  exact lookup_eq_of_perm (List.reverse_perm placed) hnodup key

@[simp] theorem mem_keys_orderByObject {placed : List (ObjectId × β)} {key : ObjectId} :
    key ∈ (orderByObject placed).map Prod.fst ↔ key ∈ placed.map Prod.fst := by
  unfold orderByObject
  induction placed using List.reverseRecOn with
  | nil => rfl
  | append_singleton rest entry ih =>
      rw [List.foldl_append, List.foldl_cons, List.foldl_nil, mem_keys_placeObject, ih]
      simp [or_comm]

theorem orderByObject_sorted (placed : List (ObjectId × β)) :
    ((orderByObject placed).map Prod.fst).Pairwise (· < ·) := by
  unfold orderByObject
  induction placed using List.reverseRecOn with
  | nil => exact List.Pairwise.nil
  | append_singleton rest entry ih =>
      rw [List.foldl_append, List.foldl_cons, List.foldl_nil]
      exact placeObject_sorted ih

/-- Lists in strict order of the names that place every object alike are the same. -/
theorem eq_of_lookup_eq {l m : List (ObjectId × β)} (hl : (l.map Prod.fst).Pairwise (· < ·))
    (hm : (m.map Prod.fst).Pairwise (· < ·)) (hsame : ∀ key, l.lookup key = m.lookup key) :
    l = m := by
  have hlnodup := nodup_of_sorted hl
  have hmnodup := nodup_of_sorted hm
  rw [List.pairwise_map] at hl hm
  refine List.Perm.eq_of_pairwise ?_ hl hm ?_
  · intro a b _ _ hab hba
    exact absurd (ObjectId.lt_trans hab hba) (ObjectId.lt_irrefl a.1)
  · apply (List.perm_ext_iff_of_nodup (List.Nodup.of_map _ hlnodup) (List.Nodup.of_map _ hmnodup)).mpr
    rintro ⟨key, p⟩
    rw [mem_iff_lookup hlnodup, mem_iff_lookup hmnodup, hsame]

end PlayDiagram
