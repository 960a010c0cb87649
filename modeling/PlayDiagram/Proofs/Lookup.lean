import Mathlib.Tactic.ByContra

/-!
# Looking keys up

What `List.lookup` finds in a list of keys with their values.
-/

namespace PlayDiagram

variable {κ β : Type} [DecidableEq κ]

theorem lookup_cons_eq_ite (key id : κ) (p : β) (l : List (κ × β)) :
    ((id, p) :: l).lookup key = if key = id then some p else l.lookup key := by
  rw [List.lookup_cons]
  by_cases hkey : key = id
  · simp [hkey]
  · rw [beq_eq_false_iff_ne.mpr hkey, if_neg hkey]

theorem lookup_eq_none_of_notMem {key : κ} {l : List (κ × β)}
    (hkey : key ∉ l.map Prod.fst) : l.lookup key = none := by
  rw [List.lookup_eq_none_iff]
  intro entry hentry
  have hne : key ≠ entry.1 := fun h => hkey (h ▸ List.mem_map_of_mem hentry)
  simpa using hne

theorem mem_keys_of_lookup {key : κ} {p : β} {l : List (κ × β)}
    (hlookup : l.lookup key = some p) : key ∈ l.map Prod.fst := by
  by_contra hkey
  rw [lookup_eq_none_of_notMem hkey] at hlookup
  cases hlookup

theorem lookup_eq_some_of_mem {key : κ} {p : β} {l : List (κ × β)}
    (hnodup : (l.map Prod.fst).Nodup) (hmem : (key, p) ∈ l) : l.lookup key = some p := by
  induction l with
  | nil => cases hmem
  | cons entry rest ih =>
      obtain ⟨id, q⟩ := entry
      have hrest := List.nodup_cons.mp hnodup
      rw [lookup_cons_eq_ite]
      rcases List.mem_cons.mp hmem with heq | htail
      · cases heq
        rw [if_pos rfl]
      · have hkeys : key ∈ rest.map Prod.fst := List.mem_map.mpr ⟨(key, p), htail, rfl⟩
        have hkey : key ≠ id := by
          rintro rfl
          exact hrest.1 hkeys
        rw [if_neg hkey, ih hrest.2 htail]

theorem mem_iff_lookup {key : κ} {p : β} {l : List (κ × β)} (hnodup : (l.map Prod.fst).Nodup) :
    (key, p) ∈ l ↔ l.lookup key = some p := by
  constructor
  · exact lookup_eq_some_of_mem hnodup
  · intro hlookup
    obtain ⟨before, after, rfl, -⟩ := List.lookup_eq_some_iff.mp hlookup
    exact List.mem_append_right _ List.mem_cons_self

/-- Where every key has one value, the order does not matter. -/
theorem lookup_eq_of_perm {l m : List (κ × β)} (hlm : l.Perm m) (hnodup : (m.map Prod.fst).Nodup)
    (key : κ) : l.lookup key = m.lookup key := by
  have hnodup' : (l.map Prod.fst).Nodup := (hlm.map Prod.fst).nodup_iff.mpr hnodup
  apply Option.ext
  intro p
  calc l.lookup key = some p ↔ (key, p) ∈ l := (mem_iff_lookup hnodup').symm
    _ ↔ (key, p) ∈ m := hlm.mem_iff
    _ ↔ m.lookup key = some p := mem_iff_lookup hnodup

end PlayDiagram
