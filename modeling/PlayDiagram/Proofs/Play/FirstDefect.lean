import Mathlib.Data.List.Lex
import PlayDiagram.Proofs.Play.Soundness

/-!
# The first defect

`HasDefect` lists the defects of a document, each with its place.  A place is a list of numbers,
like that of a paragraph: `[1, i]` is the name of the phase at index `i`, and `2 :: i :: place` a
place in that phase.  Validation reports the defect with the least place in the order of paragraphs
(`validate_reports_first_defect`).
-/

namespace PlayDiagram

theorem cons_le_cons_of_lt {m n : ℕ} (hlt : m < n) (place place' : List ℕ) :
    m :: place ≤ n :: place' :=
  le_of_lt (List.Lex.rel hlt)

/-! ## Finding what comes first -/

section Search

variable {ι κ β δ ε : Type}

/-- A search finds nothing if there is nothing, and else what has the least place. -/
def FindsFirst [LE ι] (F : ι → δ → Prop) : Option δ → Prop
  | none => ∀ place x, ¬F place x
  | some x => ∃ place, F place x ∧ ∀ place' x', F place' x' → place ≤ place'

variable [LE ι] [LE κ] {F G : ι → δ → Prop} {found? other? : Option δ}

theorem FindsFirst.not_of_none (hF : FindsFirst F found?) (hnone : found? = none) (place : ι)
    (x : δ) : ¬F place x := by
  subst hnone
  exact hF place x

theorem FindsFirst.least_of_some (hF : FindsFirst F found?) {x : δ} (hx : found? = some x) :
    ∃ place, F place x ∧ ∀ place' x', F place' x' → place ≤ place' := by
  subst hx
  exact hF

theorem FindsFirst.congr (hF : FindsFirst F found?) (hFG : ∀ place x, F place x ↔ G place x) :
    FindsFirst G found? := by
  have heq : F = G := funext₂ fun place x => propext (hFG place x)
  exact heq ▸ hF

/-- A search that goes on elsewhere when it has found nothing. -/
theorem FindsFirst.or (hF : FindsFirst F found?) (hG : FindsFirst G other?)
    (hbefore : ∀ place x place' x', F place x → G place' x' → place ≤ place') :
    FindsFirst (fun place x => F place x ∨ G place x) (found?.or other?) := by
  cases found? with
  | some x =>
      obtain ⟨place, hx, hfirst⟩ := hF
      refine ⟨place, Or.inl hx, ?_⟩
      rintro place' x' (hx' | hx')
      · exact hfirst place' x' hx'
      · exact hbefore place x place' x' hx hx'
  | none =>
      refine hG.congr fun place x => ?_
      rw [or_iff_right (hF place x)]

/-- The same search, with the places moved in order. -/
theorem FindsFirst.moved (hF : FindsFirst F found?) {g : ι → κ} (hg : ∀ i j, i ≤ j → g i ≤ g j) :
    FindsFirst (fun place x => ∃ i, F i x ∧ place = g i) found? := by
  cases found? with
  | none =>
      rintro place x ⟨i, hx, -⟩
      exact hF i x hx
  | some x =>
      obtain ⟨i, hx, hfirst⟩ := hF
      refine ⟨g i, ⟨i, hx, rfl⟩, ?_⟩
      rintro _ x' ⟨j, hx', rfl⟩
      exact hg i j (hfirst j x' hx')

theorem FindsFirst.map (hF : FindsFirst F found?) (f : δ → ε) :
    FindsFirst (fun place y => ∃ x, F place x ∧ y = f x) (found?.map f) := by
  cases found? with
  | none =>
      rintro place y ⟨x, hx, -⟩
      exact hF place x hx
  | some x =>
      obtain ⟨place, hx, hfirst⟩ := hF
      refine ⟨place, ⟨x, hx, rfl⟩, ?_⟩
      rintro place' _ ⟨x', hx', -⟩
      exact hfirst place' x' hx'

end Search

section Lists

variable {ι β δ : Type}

/-- A search along a list, which goes on as long as nothing is found. -/
theorem FindsFirst.findSome? {F : β → List ℕ → δ → Prop} {f : β → Option δ}
    (hf : ∀ b, FindsFirst (F b) (f b)) (l : List β) :
    FindsFirst (fun place x => ∃ i b rest, l[i]? = some b ∧ F b rest x ∧ place = i :: rest)
      (l.findSome? f) := by
  cases hfound : l.findSome? f with
  | none =>
      rintro _ x ⟨i, b, rest, hb, hx, rfl⟩
      have hnone := List.findSome?_eq_none_iff.mp hfound b (List.mem_of_getElem? hb)
      exact (hf b).not_of_none hnone rest x hx
  | some x =>
      obtain ⟨before, b, after, rfl, hb, hbefore⟩ := List.findSome?_eq_some_iff.mp hfound
      obtain ⟨rest, hx, hfirst⟩ := (hf b).least_of_some hb
      refine ⟨before.length :: rest, ⟨before.length, b, rest, by simp, hx, rfl⟩, ?_⟩
      rintro _ x' ⟨i, b', rest', hb', hx', rfl⟩
      -- The search has found nothing at the indices before, and within the element it is least.
      rcases lt_trichotomy before.length i with hlt | rfl | hgt
      · exact cons_le_cons_of_lt hlt _ _
      · rw [List.getElem?_append_right le_rfl, Nat.sub_self] at hb'
        cases hb'
        exact List.cons_le_cons _ (hfirst rest' x' hx')
      · rw [List.getElem?_append_left hgt] at hb'
        have hnone := hbefore b' (List.mem_of_getElem? hb')
        exact absurd hx' ((hf b').not_of_none hnone rest' x')

theorem firstRepeat?_findsFirst [DecidableEq ι] (seen l : List ι) :
    FindsFirst (fun j x => l[j]? = some x ∧ (x ∈ seen ∨ x ∈ l.take j)) (firstRepeat? seen l) := by
  induction l generalizing seen with
  | nil =>
      rintro j x ⟨hx, -⟩
      cases hx
  | cons a rest ih =>
      by_cases ha : a ∈ seen
      · rw [firstRepeat?, if_pos ha]
        exact ⟨0, ⟨rfl, Or.inl ha⟩, fun j _ _ => Nat.zero_le j⟩
      · rw [firstRepeat?, if_neg ha]
        refine ((ih (a :: seen)).moved fun i j => Nat.succ_le_succ).congr fun j x => ?_
        constructor
        · rintro ⟨i, ⟨hx, hrepeats⟩, rfl⟩
          refine ⟨hx, ?_⟩
          rw [List.mem_cons] at hrepeats
          rw [List.take_succ_cons, List.mem_cons]
          tauto
        · rintro ⟨hx, hrepeats⟩
          cases j with
          | zero =>
              cases hx
              exact absurd (hrepeats.resolve_right List.not_mem_nil) ha
          | succ i =>
              refine ⟨i, ⟨hx, ?_⟩, rfl⟩
              rw [List.take_succ_cons, List.mem_cons] at hrepeats
              rw [List.mem_cons]
              tauto

/-- The value at an index has the name of an earlier one. -/
structure Repeats (name : β → ι) (l : List β) (j : ℕ) (b : β) : Prop where
  listed : l[j]? = some b
  earlier : name b ∈ (l.take j).map name

/-- The first repeated name of a list, reported under a number. -/
theorem findsFirst_repeats [DecidableEq ι] (name : β → ι) (l : List β) (n : ℕ) (report : ι → δ) :
    FindsFirst (fun place x => ∃ j b, Repeats name l j b ∧ place = [n, j] ∧ x = report (name b))
      ((firstRepeat? [] (l.map name)).map report) := by
  have hplaces : ∀ i j : ℕ, i ≤ j → [n, i] ≤ [n, j] := by
    intro i j hij
    rcases hij.lt_or_eq with hlt | rfl
    · exact List.cons_le_cons n (cons_le_cons_of_lt hlt [] [])
    · exact le_rfl
  refine (((firstRepeat?_findsFirst [] (l.map name)).moved hplaces).map report).congr
    fun place x => ?_
  simp only [List.getElem?_map, Option.map_eq_some_iff, List.not_mem_nil, false_or, ← List.map_take]
  constructor
  · rintro ⟨_, ⟨j, ⟨⟨b, hb, rfl⟩, hrepeats⟩, rfl⟩, rfl⟩
    exact ⟨j, b, ⟨hb, hrepeats⟩, rfl, rfl⟩
  · rintro ⟨j, b, ⟨hb, hrepeats⟩, rfl, rfl⟩
    exact ⟨name b, ⟨j, ⟨⟨b, hb, rfl⟩, hrepeats⟩, rfl⟩, rfl⟩

end Lists

/-! ## Defects and their places -/

variable {α : Type}

/-- A defect of a phase, at a place. -/
inductive Phase.HasDefect (p : Phase α) : List ℕ → Defect → Prop
  /-- First come the objects, -/
  | object {j : ℕ} {o : CourtObject α} (hrepeats : Repeats (·.id) p.objects j o) :
      HasDefect p [0, j] (.duplicateObject p.id o.id)
  /-- then the actions, -/
  | action {j : ℕ} {a : Action α} (hrepeats : Repeats (·.id) p.actions j a) :
      HasDefect p [1, j] (.duplicateAction p.id a.id)
  /-- then what the actions refer to, for each action its performer -/
  | performer {j : ℕ} {a : Action α} {id : ObjectId} (ha : p.actions[j]? = some a)
      (hperformer : a.performer = some id) (habsent : p.containsObject id = false) :
      HasDefect p [2, j, 0] (.danglingReference p.id a.id .performer id)
  /-- before its receiver, -/
  | receiver {j : ℕ} {a : Action α} {id : ObjectId} (ha : p.actions[j]? = some a)
      (hreceiver : a.receiver = some id) (habsent : p.containsObject id = false) :
      HasDefect p [2, j, 1] (.danglingReference p.id a.id .receiver id)
  /-- and last the owner of the ball. -/
  | owner {id : ObjectId} (howner : p.ballOwner = .owner id)
      (habsent : p.containsObject id = false) :
      HasDefect p [3] (.danglingOwner p.id id)

/-- A defect of a document, at a place. -/
inductive Document.HasDefect (d : Document α) : List ℕ → Defect → Prop
  | noPhases (hnone : d.phases = []) : HasDefect d [0] .noPhases
  | duplicatePhase {i : ℕ} {p : Phase α} (hrepeats : Repeats (·.id) d.phases i p) :
      HasDefect d [1, i] (.duplicatePhase p.id)
  | inPhase {i : ℕ} {p : Phase α} {place : List ℕ} {defect : Defect} (hp : d.phases[i]? = some p)
      (hdefect : p.HasDefect place defect) :
      HasDefect d (2 :: i :: place) defect

/-! ## One defect at a place -/

theorem Phase.HasDefect.unique {p : Phase α} {place : List ℕ} {x x' : Defect}
    (h : p.HasDefect place x) (h' : p.HasDefect place x') : x = x' := by
  cases h with
  | object hrepeats =>
      cases h' with
      | object hrepeats' =>
          cases hrepeats.listed.symm.trans hrepeats'.listed
          rfl
  | action hrepeats =>
      cases h' with
      | action hrepeats' =>
          cases hrepeats.listed.symm.trans hrepeats'.listed
          rfl
  | performer ha hperformer =>
      cases h' with
      | performer ha' hperformer' =>
          cases ha.symm.trans ha'
          cases hperformer.symm.trans hperformer'
          rfl
  | receiver ha hreceiver =>
      cases h' with
      | receiver ha' hreceiver' =>
          cases ha.symm.trans ha'
          cases hreceiver.symm.trans hreceiver'
          rfl
  | owner howner =>
      cases h' with
      | owner howner' =>
          cases howner.symm.trans howner'
          rfl

theorem Document.HasDefect.unique {d : Document α} {place : List ℕ} {x x' : Defect}
    (h : d.HasDefect place x) (h' : d.HasDefect place x') : x = x' := by
  cases h with
  | noPhases =>
      cases h' with
      | noPhases => rfl
  | duplicatePhase hrepeats =>
      cases h' with
      | duplicatePhase hrepeats' =>
          cases hrepeats.listed.symm.trans hrepeats'.listed
          rfl
  | inPhase hp hdefect =>
      cases h' with
      | inPhase hp' hdefect' =>
          cases hp.symm.trans hp'
          exact hdefect.unique hdefect'

/-! ## What the checks find -/

theorem BallOwner.id?_eq_some_iff {owner : BallOwner} {id : ObjectId} :
    owner.id? = some id ↔ owner = .owner id := by
  cases owner <;> simp [BallOwner.id?]

namespace Phase

variable (p : Phase α)

/-- A name that is not in the phase, reported under a number. -/
theorem findsFirst_absent (n : ℕ) (named? : Option ObjectId) (report : ObjectId → Defect) :
    FindsFirst
      (fun place x =>
        ∃ id, named? = some id ∧ p.containsObject id = false ∧ place = [n] ∧ x = report id)
      (named?.bind fun id => if p.containsObject id then none else some (report id)) := by
  cases named? with
  | none =>
      rintro place x ⟨id, hid, -⟩
      cases hid
  | some id =>
      rw [Option.bind_some]
      cases habsent : p.containsObject id with
      | true =>
          rintro place x ⟨_, hid, habsent', -⟩
          cases hid
          rw [habsent] at habsent'
          cases habsent'
      | false =>
          refine ⟨[n], ⟨id, rfl, habsent, rfl, rfl⟩, ?_⟩
          rintro _ x ⟨_, -, -, rfl, -⟩
          exact le_rfl

theorem danglingReference?_eq (a : Action α) :
    p.danglingReference? a =
      (a.performer.bind fun id => if p.containsObject id then none
        else some (.danglingReference p.id a.id .performer id)).or
      (a.receiver.bind fun id => if p.containsObject id then none
        else some (.danglingReference p.id a.id .receiver id)) := by
  unfold danglingReference? Action.namedObjects
  rw [List.findSome?_append]
  cases a.performer <;> cases a.receiver <;> simp

theorem danglingOwner?_eq :
    p.danglingOwner? =
      p.ballOwner.id?.bind fun id => if p.containsObject id then none
        else some (.danglingOwner p.id id) := by
  unfold danglingOwner?
  cases p.ballOwner <;> rfl

/-- The references of the actions, reported under the number 2. -/
theorem findsFirst_references :
    FindsFirst
      (fun place x => ∃ j a id, p.actions[j]? = some a ∧ p.containsObject id = false ∧
        (a.performer = some id ∧ place = [2, j, 0] ∧ x = .danglingReference p.id a.id .performer id ∨
          a.receiver = some id ∧ place = [2, j, 1] ∧ x = .danglingReference p.id a.id .receiver id))
      (p.actions.findSome? p.danglingReference?) := by
  have haction : ∀ a : Action α, FindsFirst _ (p.danglingReference? a) := fun a =>
    p.danglingReference?_eq a ▸ (p.findsFirst_absent 0 a.performer _).or
      (p.findsFirst_absent 1 a.receiver _) (by
        rintro _ _ _ _ ⟨_, -, -, rfl, -⟩ ⟨_, -, -, rfl, -⟩
        exact cons_le_cons_of_lt Nat.one_pos _ _)
  have hactions := (FindsFirst.findSome? haction p.actions).moved fun _ _ => List.cons_le_cons 2
  refine hactions.congr fun place x => ?_
  constructor
  · rintro ⟨_, ⟨j, a, _, ha, hdangling, rfl⟩, rfl⟩
    rcases hdangling with ⟨id, hid, habsent, rfl, rfl⟩ | ⟨id, hid, habsent, rfl, rfl⟩
    · exact ⟨j, a, id, ha, habsent, Or.inl ⟨hid, rfl, rfl⟩⟩
    · exact ⟨j, a, id, ha, habsent, Or.inr ⟨hid, rfl, rfl⟩⟩
  · rintro ⟨j, a, id, ha, habsent, ⟨hid, rfl, rfl⟩ | ⟨hid, rfl, rfl⟩⟩
    · exact ⟨_, ⟨j, a, _, ha, Or.inl ⟨id, hid, habsent, rfl, rfl⟩, rfl⟩, rfl⟩
    · exact ⟨_, ⟨j, a, _, ha, Or.inr ⟨id, hid, habsent, rfl, rfl⟩, rfl⟩, rfl⟩

/-- The checks of a phase find its first defect. -/
theorem findsFirst_defect? : FindsFirst p.HasDefect p.defect? := by
  have hobjects := findsFirst_repeats (·.id) p.objects 0 (Defect.duplicateObject p.id)
  have hactions := findsFirst_repeats (·.id) p.actions 1 (Defect.duplicateAction p.id)
  have howner := p.findsFirst_absent 3 p.ballOwner.id? (Defect.danglingOwner p.id)
  rw [← danglingOwner?_eq] at howner
  -- The numbers in front put the places of each check before those of the next one.
  have hfromReferences := p.findsFirst_references.or howner (by
    rintro _ _ _ _ ⟨_, _, _, -, -, ⟨-, rfl, -⟩ | ⟨-, rfl, -⟩⟩ ⟨_, -, -, rfl, -⟩
    all_goals exact cons_le_cons_of_lt (by decide) _ _)
  have hfromActions := hactions.or hfromReferences (by
    rintro _ _ _ _ ⟨_, _, -, rfl, -⟩ (⟨_, _, _, -, -, ⟨-, rfl, -⟩ | ⟨-, rfl, -⟩⟩ | ⟨_, -, -, rfl, -⟩)
    all_goals exact cons_le_cons_of_lt (by decide) _ _)
  have hall := hobjects.or hfromActions (by
    rintro _ _ _ _ ⟨_, _, -, rfl, -⟩ (⟨_, _, -, rfl, -⟩ |
      ⟨_, _, _, -, -, ⟨-, rfl, -⟩ | ⟨-, rfl, -⟩⟩ | ⟨_, -, -, rfl, -⟩)
    all_goals exact cons_le_cons_of_lt (by decide) _ _)
  refine hall.congr fun place x => ?_
  constructor
  · rintro (⟨j, o, hrepeats, rfl, rfl⟩ | ⟨j, a, hrepeats, rfl, rfl⟩ |
      ⟨j, a, id, ha, habsent, ⟨hid, rfl, rfl⟩ | ⟨hid, rfl, rfl⟩⟩ | ⟨id, hid, habsent, rfl, rfl⟩)
    · exact .object hrepeats
    · exact .action hrepeats
    · exact .performer ha hid habsent
    · exact .receiver ha hid habsent
    · exact .owner (BallOwner.id?_eq_some_iff.mp hid) habsent
  · rintro (hrepeats | hrepeats | ⟨ha, hid, habsent⟩ | ⟨ha, hid, habsent⟩ | ⟨howner, habsent⟩)
    · exact Or.inl ⟨_, _, hrepeats, rfl, rfl⟩
    · exact Or.inr (Or.inl ⟨_, _, hrepeats, rfl, rfl⟩)
    · exact Or.inr (Or.inr (Or.inl ⟨_, _, _, ha, habsent, Or.inl ⟨hid, rfl, rfl⟩⟩))
    · exact Or.inr (Or.inr (Or.inl ⟨_, _, _, ha, habsent, Or.inr ⟨hid, rfl, rfl⟩⟩))
    · exact Or.inr (Or.inr (Or.inr ⟨_, BallOwner.id?_eq_some_iff.mpr howner, habsent, rfl, rfl⟩))

end Phase

namespace Document

/-- The checks of a document find its first defect. -/
theorem findsFirst_defect? (d : Document α) : FindsFirst d.HasDefect d.defect? := by
  unfold defect?
  by_cases hnone : d.phases = []
  · rw [if_pos (List.isEmpty_iff.mpr hnone)]
    refine ⟨[0], .noPhases hnone, ?_⟩
    rintro _ _ (_ | hrepeats | ⟨hp, hdefect⟩)
    · exact le_rfl
    all_goals exact cons_le_cons_of_lt (by decide) _ _
  · rw [if_neg (mt List.isEmpty_iff.mp hnone)]
    have hnames := findsFirst_repeats (·.id) d.phases 1 Defect.duplicatePhase
    have hphases := (FindsFirst.findSome? Phase.findsFirst_defect? d.phases).moved
      fun _ _ => List.cons_le_cons 2
    have hall := hnames.or hphases (by
      rintro _ _ _ _ ⟨_, _, -, rfl, -⟩ ⟨_, -, rfl⟩
      exact cons_le_cons_of_lt (by decide) _ _)
    refine hall.congr fun place x => ?_
    constructor
    · rintro (⟨i, p, hrepeats, rfl, rfl⟩ | ⟨_, ⟨i, p, place, hp, hdefect, rfl⟩, rfl⟩)
      · exact .duplicatePhase hrepeats
      · exact .inPhase hp hdefect
    · rintro (hempty | hrepeats | ⟨hp, hdefect⟩)
      · exact absurd hempty hnone
      · exact Or.inl ⟨_, _, hrepeats, rfl, rfl⟩
      · exact Or.inr ⟨_, ⟨_, _, _, hp, hdefect, rfl⟩, rfl⟩

/-- The defect that the checks find is the one with the least place. -/
theorem defect?_eq_some_iff {d : Document α} {x : Defect} :
    d.defect? = some x ↔
      ∃ place, d.HasDefect place x ∧ ∀ place' x', d.HasDefect place' x' → place ≤ place' := by
  have hfirst := d.findsFirst_defect?
  refine ⟨hfirst.least_of_some, ?_⟩
  rintro ⟨place, hx, hleast⟩
  cases hfound : d.defect? with
  | none => exact absurd hx (hfirst.not_of_none hfound place x)
  | some x' =>
      obtain ⟨place', hx', hleast'⟩ := hfirst.least_of_some hfound
      have hsame : place = place' := le_antisymm (hleast place' x' hx') (hleast' place x hx)
      subst hsame
      rw [hx'.unique hx]

/-- Validation accepts the documents that have a phase and whose phases have different names and are
well formed; any other it refuses, with the first of its defects. -/
theorem validate_reports_first_defect (d : Document α) :
    (d.validate = .ok d ↔
      d.phases ≠ [] ∧ (d.phases.map (·.id)).Nodup ∧ ∀ p ∈ d.phases, p.WellFormed) ∧
    (d.validate ≠ .ok d → ∃ x, d.validate = .error x) ∧
    ∀ x, d.validate = .error x ↔
      ∃ place, d.HasDefect place x ∧ ∀ place' x', d.HasDefect place' x' → place ≤ place' := by
  rw [← isSound_iff]
  simp only [← defect?_eq_some_iff, IsSound, validate]
  cases d.defect? with
  | none => simp
  | some x => simp

end Document

end PlayDiagram
