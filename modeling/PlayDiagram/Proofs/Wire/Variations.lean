import Mathlib.Tactic.SplitIfs
import PlayDiagram.Proofs.Wire.Decoded

/-!
# Variations of records

A record says the same with a member that is no field of it, and with a field written out that was left
out before.  What makes it so is said once for each kind of record, in a `Schema`: which fields it has, what
may be written for an absent one, and which fields hold values that may vary in turn.  A field is read alike
from two variations if its decoder respects these (`Schema.Alike.readOptional_eq`).
-/

namespace PlayDiagram

open Json (Value)

/-! ## Changes in one place -/

/-- The members agree in every key but one. -/
def AgreeExcept (key : String) (members members' : List (String × Value)) : Prop :=
  ∀ other, other ≠ key → members'.lookup other = members.lookup other

/-- A member is added, under a key that was absent. -/
structure AddsMember (key : String) (v : Value) (members members' : List (String × Value)) : Prop where
  absent : members.lookup key = none
  added : members'.lookup key = some v
  agree : AgreeExcept key members members'

theorem agreeExcept_middle (before after : List (String × Value)) (key : String) (v v' : Value) :
    AgreeExcept key (before ++ (key, v) :: after) (before ++ (key, v') :: after) := by
  intro other hother
  rw [List.lookup_append, List.lookup_append, lookup_cons_eq_ite, lookup_cons_eq_ite, if_neg hother,
    if_neg hother]

theorem addsMember_append {key : String} {members : List (String × Value)}
    (habsent : members.lookup key = none) (v : Value) :
    AddsMember key v members (members ++ [(key, v)]) := by
  refine ⟨habsent, ?_, fun other hother => ?_⟩
  · rw [List.lookup_append, habsent, lookup_cons_eq_ite, if_pos rfl]
    rfl
  · rw [List.lookup_append, lookup_cons_eq_ite, if_neg hother]
    exact Option.or_none

/-- The value of one field changes, in a record that is an object or an array. -/
inductive ChangesField (fields : List String) (key : String) (change : Value → Value → Prop) :
    Value → Value → Prop where
  | member {members members' : List (String × Value)} {v v' : Value}
      (hbefore : members.lookup key = some v) (hafter : members'.lookup key = some v')
      (hagree : AgreeExcept key members members') (hchange : change v v') :
      ChangesField fields key change (.object members) (.object members')
  | item {items : List Value} {index : ℕ} {v v' : Value} (hfield : fields[index]? = some key)
      (hbefore : items[index]? = some v) (hchange : change v v') :
      ChangesField fields key change (.array items) (.array (items.set index v'))

/-- One item of a list changes. -/
inductive ChangesItem (index : ℕ) (change : Value → Value → Prop) : Value → Value → Prop where
  | item {items : List Value} {v v' : Value} (hbefore : items[index]? = some v)
      (hchange : change v v') :
      ChangesItem index change (.array items) (.array (items.set index v'))

/-- Some item of a list changes. -/
def ChangesSomeItem (change : Value → Value → Prop) (v v' : Value) : Prop :=
  ∃ index, ChangesItem index change v v'

/-! ## Schemas -/

/-- What a kind of record leaves open about how it is written. -/
structure Schema where
  /-- The fields, in the order in which an array lists them. -/
  fields : List String
  /-- What may be written for a field that is absent. -/
  defaults : List (String × Value)
  /-- The fields whose values may be varied. -/
  nested : List (String × (Value → Value → Prop))

namespace Schema

/-- A record is varied in one place. -/
inductive Varies (s : Schema) : Value → Value → Prop where
  /-- A member is added that is no field. -/
  | unknown {key : String} {v : Value} {members members' : List (String × Value)}
      (hkey : key ∉ s.fields) (hadds : AddsMember key v members members') :
      s.Varies (.object members) (.object members')
  /-- An absent field is written out. -/
  | default {key : String} {v : Value} {members members' : List (String × Value)}
      (hdefault : (key, v) ∈ s.defaults) (hadds : AddsMember key v members members') :
      s.Varies (.object members) (.object members')
  /-- The value of a field is varied. -/
  | nested {key : String} {vary : Value → Value → Prop} {v v' : Value}
      (hnested : (key, vary) ∈ s.nested) (hchanges : ChangesField s.fields key vary v v') :
      s.Varies v v'

/-- What variations of a record hold in one field. -/
inductive Alike (s : Schema) (key : String) : Option Value → Option Value → Prop where
  | same (v? : Option Value) : s.Alike key v? v?
  | default {v : Value} (hdefault : (key, v) ∈ s.defaults) : s.Alike key none (some v)
  | nested {vary : Value → Value → Prop} {v v' : Value} (hnested : (key, vary) ∈ s.nested)
      (hvary : vary v v') : s.Alike key (some v) (some v')

/-- The members of two objects that are alike in every field. -/
def AlikeMembers (s : Schema) (members members' : List (String × Value)) : Prop :=
  ∀ key ∈ s.fields, s.Alike key (members.lookup key) (members'.lookup key)

/-- The items of two arrays that are alike in every field, and as many. -/
def AlikeItems (s : Schema) (items items' : List Value) : Prop :=
  items.length = items'.length ∧
    ∀ (index : ℕ) key, s.fields[index]? = some key → s.Alike key items[index]? items'[index]?

variable {s : Schema}

theorem alikeMembers_of_addsMember {key : String} {v : Value} {members members' : List (String × Value)}
    (hadds : AddsMember key v members members')
    (hkey : key ∈ s.fields → (key, v) ∈ s.defaults) : s.AlikeMembers members members' := by
  intro other hother
  by_cases heq : other = key
  · subst heq
    rw [hadds.absent, hadds.added]
    exact .default (hkey hother)
  · rw [hadds.agree other heq]
    exact .same _

/-- Variations of a record are both objects or both arrays, and are alike in every field. -/
theorem Varies.cases {v v' : Value} (h : s.Varies v v') :
    (∃ members members', v = .object members ∧ v' = .object members' ∧
      s.AlikeMembers members members') ∨
    ∃ items items', v = .array items ∧ v' = .array items' ∧ s.AlikeItems items items' := by
  cases h with
  | unknown hkey hadds =>
      exact Or.inl ⟨_, _, rfl, rfl, alikeMembers_of_addsMember hadds fun hfield => absurd hfield hkey⟩
  | default hdefault hadds =>
      exact Or.inl ⟨_, _, rfl, rfl, alikeMembers_of_addsMember hadds fun _ => hdefault⟩
  | @nested key vary _ _ hnested hchanges =>
      cases hchanges with
      | member hbefore hafter hagree hvary =>
          refine Or.inl ⟨_, _, rfl, rfl, fun other _ => ?_⟩
          by_cases heq : other = key
          · rw [heq, hbefore, hafter]
            exact .nested hnested hvary
          · rw [hagree other heq]
            exact .same _
      | item hfield hbefore hvary =>
          refine Or.inr ⟨_, _, rfl, rfl, List.length_set.symm, fun index other hother => ?_⟩
          rw [List.getElem?_set]
          split_ifs with hindex hlt
          · rw [← hindex, hfield] at hother
            rw [← hindex, hbefore, ← Option.some.inj hother]
            exact .nested hnested hvary
          · rw [List.getElem?_eq_none_iff.mpr (Nat.not_lt.mp hlt)] at hbefore
            cases hbefore
          · exact .same _

/-! ## Reading fields -/

section Reading

variable {β γ : Type} {index : ℕ} {key : String} {decode : Decoder β} {keep : Option β → γ}

/-- A field is read by a decoder that respects its variations, as far as the result is kept. -/
structure Reads (s : Schema) (index : ℕ) (key : String) (decode : Decoder β) (keep : Option β → γ) :
    Prop where
  field : s.fields[index]? = some key
  default : ∀ v, (key, v) ∈ s.defaults → (decode v).map (fun b => keep (some b)) = .ok (keep none)
  nested : ∀ vary, (key, vary) ∈ s.nested → ∀ v v', vary v v' → decode v = decode v'

theorem Reads.mem_fields (hreads : s.Reads index key decode keep) : key ∈ s.fields :=
  List.mem_of_getElem? hreads.field

/-- A field of which nothing is left open is kept as it is. -/
theorem Reads.plain (hfield : s.fields[index]? = some key) (hdefault : key ∉ s.defaults.map Prod.fst)
    (hnested : key ∉ s.nested.map Prod.fst) : s.Reads index key decode id :=
  ⟨hfield, fun _ hv => absurd (List.mem_map_of_mem hv) hdefault,
    fun _ hvary => absurd (List.mem_map_of_mem hvary) hnested⟩

/-- A field that may be absent may be `null`, if that is read as no value. -/
theorem Reads.nullable (hfield : s.fields[index]? = some key)
    (hdefault : ∀ v, (key, v) ∈ s.defaults → v = .null) (hnested : key ∉ s.nested.map Prod.fst) :
    s.Reads index key (Decode.nullable decode) Option.join := by
  refine ⟨hfield, fun v hv => ?_, fun _ hvary => absurd (List.mem_map_of_mem hvary) hnested⟩
  rw [hdefault v hv]
  rfl

/-- What is read of a field that may be absent. -/
def readOptional (decode : Decoder β) : Option Value → Except ShapeError (Option β)
  | some v => (decode v).map some
  | none => .ok none

theorem Alike.readOptional_eq {v? v'? : Option Value} (halike : s.Alike key v? v'?)
    (hreads : s.Reads index key decode keep) :
    (readOptional decode v?).map keep = (readOptional decode v'?).map keep := by
  cases halike with
  | same => rfl
  | @default v hdefault =>
      have hread := hreads.default v hdefault
      unfold readOptional
      dsimp only
      cases hv : decode v with
      | error fault =>
          rw [hv] at hread
          cases hread
      | ok b =>
          rw [hv] at hread
          exact hread.symm
  | nested hnested hvary =>
      unfold readOptional
      simp only [hreads.nested _ hnested _ _ hvary]

section Members

variable {members members' : List (String × Value)} (halike : s.AlikeMembers members members')

include halike

/-- The same is kept of a field of two objects that are alike. -/
theorem AlikeMembers.member?_eq (hreads : s.Reads index key decode keep) :
    (Decode.member? members key decode).map keep =
      (Decode.member? members' key decode).map keep := by
  have hmember : ∀ members, Decode.member? members key decode =
      readOptional decode (members.lookup key) := by
    intro members
    unfold Decode.member? readOptional
    cases members.lookup key <;> rfl
  rw [hmember, hmember]
  exact (halike key hreads.mem_fields).readOptional_eq hreads

/-- A field that is kept as it is, is read alike. -/
theorem AlikeMembers.plain_eq (hreads : s.Reads index key decode id) :
    Decode.member? members key decode = Decode.member? members' key decode := by
  have hread := halike.member?_eq hreads
  rwa [Except.map_id, id, id] at hread

end Members

section Items

variable {items items' : List Value} (halike : s.AlikeItems items items')

include halike

/-- The same is kept of a field of two arrays that are alike. -/
theorem AlikeItems.item?_eq (hreads : s.Reads index key decode keep) :
    (Decode.item? items index decode).map keep = (Decode.item? items' index decode).map keep := by
  have hitem : ∀ items, Decode.item? items index decode =
      readOptional decode (items[index]? : Option Value) := by
    intro items
    unfold Decode.item? readOptional
    cases (items[index]? : Option Value) <;> rfl
  rw [hitem, hitem]
  exact (halike.2 index key hreads.field).readOptional_eq hreads

/-- A field that must be there is read alike. -/
theorem AlikeItems.item_eq (hreads : s.Reads index key decode id) (expected : String) :
    Decode.item expected items index decode = Decode.item expected items' index decode := by
  have hitem : ∀ items, Decode.item expected items index decode =
      (Decode.item? items index decode).bind fun b? =>
        b?.elim (.error (.wrongLength index expected)) .ok := by
    intro items
    unfold Decode.item Decode.item?
    cases (items[index]? : Option Value) with
    | none => rfl
    | some v => cases hv : decode v <;> simp only [hv] <;> rfl
  have hread := halike.item?_eq hreads
  rw [Except.map_id, id, id] at hread
  rw [hitem, hitem, hread]

theorem AlikeItems.noMore_eq (count : ℕ) :
    Decode.noMore items count = Decode.noMore items' count := by
  unfold Decode.noMore
  rw [halike.1]

end Items

end Reading

end Schema

namespace Decode

variable {β γ δ : Type}

/-- Of two results of which the same is kept, any use that asks for no more makes the same. -/
theorem bind_eq_of_map_eq {ε : Type} {e e' : Except ε β} {keep : β → γ} {f f' : β → Except ε δ}
    (hkeep : e.map keep = e'.map keep) (huse : ∀ b b', keep b = keep b' → f b = f' b') :
    (e >>= f) = (e' >>= f') := by
  cases e with
  | error fault =>
      cases e' with
      | error fault' => exact congrArg Except.error (Except.error.inj hkeep)
      | ok b' => cases hkeep
  | ok b =>
      cases e' with
      | error fault' => cases hkeep
      | ok b' => exact huse b b' (Except.ok.inj hkeep)

/-- Records that vary are read alike if their members and their items are. -/
theorem record_eq_of_varies {s : Schema} {name : String}
    {ofMembers : List (String × Value) → Except ShapeError β}
    {ofItems : List Value → Except ShapeError β}
    (hmembers : ∀ members members', s.AlikeMembers members members' →
      ofMembers members = ofMembers members')
    (hitems : ∀ items items', s.AlikeItems items items' → ofItems items = ofItems items')
    {v v' : Value} (h : s.Varies v v') :
    record name ofMembers ofItems v = record name ofMembers ofItems v' := by
  rcases h.cases with ⟨members, members', rfl, rfl, halike⟩ | ⟨items, items', rfl, rfl, halike⟩
  · exact hmembers members members' halike
  · exact hitems items items' halike

/-! ## Reading lists -/

section Lists

variable {decode : Decoder β}

theorem each_eq_of_map_eq {items items' : List Value}
    (hmap : items.map decode = items'.map decode) : each decode items = each decode items' := by
  induction items generalizing items' with
  | nil => rw [List.map_eq_nil_iff.mp hmap.symm]
  | cons v rest ih =>
      obtain ⟨v', rest', rfl, hv, hrest⟩ := List.map_eq_cons_iff.mp hmap.symm
      rw [each, each, hv, ih hrest.symm]

/-- A list is read alike after a change that its items are read alike after. -/
theorem list_eq_of_changesSomeItem {change : Value → Value → Prop}
    (hchange : ∀ v v', change v v' → decode v = decode v') (v v' : Value)
    (h : ChangesSomeItem change v v') : list decode v = list decode v' := by
  obtain ⟨index, h⟩ := h
  cases h with
  | item hbefore hv =>
      obtain ⟨hindex, rfl⟩ := List.getElem?_eq_some_iff.mp hbefore
      refine each_eq_of_map_eq ?_
      rw [List.map_set, ← hchange _ _ hv, ← List.map_set, List.set_getElem_self]

/-- With another item in one place, a list is read with what that item is read as in the same place. -/
theorem each_set {items : List Value} {l : List β} (hread : each decode items = .ok l) {index : ℕ}
    {v : Value} (hv : items[index]? = some v) :
    ∃ b, decode v = .ok b ∧ l[index]? = some b ∧
      ∀ v' b', decode v' = .ok b' → each decode (items.set index v') = .ok (l.set index b') := by
  induction items generalizing l index with
  | nil => cases hv
  | cons first rest ih =>
      rw [each] at hread
      obtain ⟨head, hhead, hread⟩ := bind_eq_ok_iff.mp hread
      obtain ⟨tail, htail, heq⟩ := bind_eq_ok_iff.mp hread
      cases heq
      cases index with
      | zero =>
          cases hv
          refine ⟨head, hhead, rfl, fun v' b' hb' => ?_⟩
          rw [List.set_cons_zero, each, hb', htail]
          rfl
      | succ index =>
          obtain ⟨b, hb, hentry, hset⟩ := ih htail hv
          refine ⟨b, hb, hentry, fun v' b' hb' => ?_⟩
          rw [List.set_cons_succ, each, hhead, hset v' b' hb']
          rfl

end Lists

end Decode

end PlayDiagram
