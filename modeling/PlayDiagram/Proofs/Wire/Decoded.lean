import PlayDiagram.Proofs.Number.FiniteDouble
import PlayDiagram.Proofs.Wire.RoundTrip

/-!
# What is read is finite

Every number of a document that was read from a JSON value is finite, whether its records were
objects or arrays (`document_yields`).
-/

namespace PlayDiagram

open Json (Value)

/-- Whatever the decoder reads has the property. -/
def Decoder.Yields {β : Type} (decode : Decoder β) (P : β → Prop) : Prop :=
  ∀ v b, decode v = .ok b → P b

namespace Decode

variable {β : Type} {P : β → Prop}

section Combinators

theorem bind_eq_ok_iff {ε γ : Type} {e : Except ε β} {f : β → Except ε γ} {c : γ} :
    (e >>= f) = .ok c ↔ ∃ b, e = .ok b ∧ f b = .ok c := by
  cases e with
  | error fault =>
      constructor
      · intro h
        cases h
      · rintro ⟨b, hb, -⟩
        cases hb
  | ok b =>
      constructor
      · intro h
        exact ⟨b, rfl, h⟩
      · rintro ⟨b', hb', hc⟩
        cases hb'
        exact hc

theorem map_eq_ok_iff {ε γ : Type} {e : Except ε β} {f : β → γ} {c : γ} :
    e.map f = .ok c ↔ ∃ b, e = .ok b ∧ f b = c := by
  cases e with
  | error fault => simp [Except.map]
  | ok b => simp [Except.map]

theorem nullable_yields {decode : Decoder β} (hdecode : decode.Yields P) :
    Decoder.Yields (nullable decode) fun x? => ∀ b, x? = some b → P b := by
  intro v x? hread b hb
  subst hb
  unfold nullable at hread
  split at hread
  · cases hread
  · obtain ⟨b', hb', heq⟩ := map_eq_ok_iff.mp hread
    cases heq
    exact hdecode v b hb'

theorem each_yields {decode : Decoder β} (hdecode : decode.Yields P) {items : List Value}
    {l : List β} (hread : each decode items = .ok l) : ∀ b ∈ l, P b := by
  induction items generalizing l with
  | nil =>
      cases hread
      intro b hb
      cases hb
  | cons v rest ih =>
      unfold each at hread
      obtain ⟨head, hhead, hread⟩ := bind_eq_ok_iff.mp hread
      obtain ⟨tail, htail, hread⟩ := bind_eq_ok_iff.mp hread
      cases hread
      intro b hb
      rcases List.mem_cons.mp hb with rfl | hb
      · exact hdecode v _ hhead
      · exact ih htail b hb

theorem list_yields {decode : Decoder β} (hdecode : decode.Yields P) :
    Decoder.Yields (list decode) fun l => ∀ b ∈ l, P b := by
  intro v l hread
  unfold list at hread
  split at hread
  · exact each_yields hdecode hread
  · cases hread

theorem record_yields {name : String} {ofMembers : List (String × Value) → Except ShapeError β}
    {ofItems : List Value → Except ShapeError β}
    (hmembers : ∀ members b, ofMembers members = .ok b → P b)
    (hitems : ∀ items b, ofItems items = .ok b → P b) :
    Decoder.Yields (record name ofMembers ofItems) P := by
  intro v b hread
  unfold record at hread
  split at hread
  · exact hmembers _ b hread
  · exact hitems _ b hread
  · cases hread

theorem member?_yields {decode : Decoder β} (hdecode : decode.Yields P)
    {members : List (String × Value)} {key : String} {x? : Option β}
    (hread : member? members key decode = .ok x?) : ∀ b, x? = some b → P b := by
  intro b hb
  subst hb
  unfold member? at hread
  split at hread
  · obtain ⟨b', hb', heq⟩ := map_eq_ok_iff.mp hread
    cases heq
    exact hdecode _ b hb'
  · cases hread

theorem item?_yields {decode : Decoder β} (hdecode : decode.Yields P) {items : List Value}
    {index : Nat} {x? : Option β} (hread : item? items index decode = .ok x?) :
    ∀ b, x? = some b → P b := by
  intro b hb
  subst hb
  unfold item? at hread
  split at hread
  · obtain ⟨b', hb', heq⟩ := map_eq_ok_iff.mp hread
    cases heq
    exact hdecode _ b hb'
  · cases hread

theorem item_yields {decode : Decoder β} (hdecode : decode.Yields P) {expected : String}
    {items : List Value} {index : Nat} {b : β} (hread : item expected items index decode = .ok b) :
    P b := by
  unfold item at hread
  split at hread
  · exact hdecode _ b hread
  · cases hread

theorem required_eq_ok {key : String} {x? : Option β} {b : β} (hread : required key x? = .ok b) :
    x? = some b := by
  cases x? with
  | none => cases hread
  | some b' =>
      cases hread
      rfl

theorem getD_of_forall {x? : Option β} {fallback : β} (hx : ∀ b, x? = some b → P b)
    (hfallback : P fallback) : P (x?.getD fallback) := by
  cases x? with
  | none => exact hfallback
  | some b => exact hx b rfl

theorem join_of_forall {x? : Option (Option β)}
    (hx : ∀ y?, x? = some y? → ∀ b, y? = some b → P b) : ∀ b, x?.join = some b → P b := by
  intro b hb
  cases x? with
  | none => cases hb
  | some y? => exact hx y? rfl b hb

end Combinators

theorem float_yields : Decoder.Yields float fun x => x.isFinite = true := by
  intro v x hread
  unfold float at hread
  split at hread
  · cases hread
    exact Json.Number.toFloat_isFinite _
  · cases hread

theorem point_yields : Decoder.Yields point Point.IsFinite := by
  apply record_yields
  · intro members p hread
    simp only [pointOfMembers, bind_eq_ok_iff] at hread
    obtain ⟨x?, hx?, y?, hy?, x, hx, y, hy, heq⟩ := hread
    cases heq
    exact ⟨member?_yields float_yields hx? x (required_eq_ok hx),
      member?_yields float_yields hy? y (required_eq_ok hy)⟩
  · intro items p hread
    simp only [pointOfItems, bind_eq_ok_iff] at hread
    obtain ⟨x, hx, y, hy, -, -, heq⟩ := hread
    cases heq
    exact ⟨item_yields float_yields hx, item_yields float_yields hy⟩

theorem object_yields : Decoder.Yields object CourtObject.IsFinite := by
  have hrecorded : (CourtObject.recordedSize : Float).isFinite = true := by decide
  apply record_yields
  · intro members o hread
    simp only [objectOfMembers, bind_eq_ok_iff] at hread
    obtain ⟨height?, hheight, id?, -, label?, -, position?, hposition?, size?, hsize, kind?, -,
      width?, hwidth, id, -, kind, -, position, hposition, heq⟩ := hread
    cases heq
    exact {
      position := member?_yields point_yields hposition? position (required_eq_ok hposition)
      size := getD_of_forall (member?_yields float_yields hsize) hrecorded
      width := join_of_forall (member?_yields (nullable_yields float_yields) hwidth)
      height := join_of_forall (member?_yields (nullable_yields float_yields) hheight) }
  · intro items o hread
    simp only [objectOfItems, bind_eq_ok_iff] at hread
    obtain ⟨id, -, kind, -, label?, -, position, hposition, size?, hsize, width?, hwidth, height?,
      hheight, -, -, heq⟩ := hread
    cases heq
    exact {
      position := item_yields point_yields hposition
      size := getD_of_forall (item?_yields float_yields hsize) hrecorded
      width := join_of_forall (item?_yields (nullable_yields float_yields) hwidth)
      height := join_of_forall (item?_yields (nullable_yields float_yields) hheight) }

theorem action_yields : Decoder.Yields action Action.IsFinite := by
  apply record_yields
  · intro members a hread
    simp only [actionOfMembers, bind_eq_ok_iff] at hread
    obtain ⟨timing?, -, origin?, horigin?, performer?, -, id?, -, target?, htarget?, receiver?, -,
      kind?, -, id, -, kind, -, origin, horigin, target, htarget, heq⟩ := hread
    cases heq
    exact ⟨member?_yields point_yields horigin? origin (required_eq_ok horigin),
      member?_yields point_yields htarget? target (required_eq_ok htarget)⟩
  · intro items a hread
    simp only [actionOfItems, bind_eq_ok_iff] at hread
    obtain ⟨id, -, kind, -, origin, horigin, target, htarget, performer?, -, receiver?, -, timing?,
      -, -, -, heq⟩ := hread
    cases heq
    exact ⟨item_yields point_yields horigin, item_yields point_yields htarget⟩

theorem phase_yields : Decoder.Yields phase Phase.IsFinite := by
  have hnoObjects : ∀ o ∈ ([] : List (CourtObject Float)), o.IsFinite := by
    intro o ho
    cases ho
  have hnoActions : ∀ a ∈ ([] : List (Action Float)), a.IsFinite := by
    intro a ha
    cases ha
  apply record_yields
  · intro members p hread
    simp only [phaseOfMembers, bind_eq_ok_iff] at hread
    obtain ⟨actions?, hactions, owner?, -, id?, -, name?, -, objects?, hobjects, id, -, name, -,
      heq⟩ := hread
    cases heq
    exact {
      objects := getD_of_forall (member?_yields (list_yields object_yields) hobjects) hnoObjects
      actions := getD_of_forall (member?_yields (list_yields action_yields) hactions) hnoActions }
  · intro items p hread
    simp only [phaseOfItems, bind_eq_ok_iff] at hread
    obtain ⟨id, -, name, -, objects?, hobjects, actions?, hactions, owner?, -, -, -, heq⟩ := hread
    cases heq
    exact {
      objects := getD_of_forall (item?_yields (list_yields object_yields) hobjects) hnoObjects
      actions := getD_of_forall (item?_yields (list_yields action_yields) hactions) hnoActions }

/-- A document that was read has finite numbers only. -/
theorem document_yields : Decoder.Yields document Document.IsFinite := by
  apply record_yields
  · intro members d hread
    simp only [documentOfMembers, bind_eq_ok_iff] at hread
    obtain ⟨court?, -, phases?, hphases?, version?, -, version, -, court, -, phases, hphases,
      heq⟩ := hread
    cases heq
    exact member?_yields (list_yields phase_yields) hphases? phases (required_eq_ok hphases)
  · intro items d hread
    simp only [documentOfItems, bind_eq_ok_iff] at hread
    obtain ⟨version, -, court, -, phases, hphases, -, -, heq⟩ := hread
    cases heq
    exact item_yields (list_yields phase_yields) hphases

end Decode

end PlayDiagram
