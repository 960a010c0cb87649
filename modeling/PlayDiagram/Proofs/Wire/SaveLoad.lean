import PlayDiagram.Proofs.Wire.Decoded
import PlayDiagram.Wire.Load

/-!
# Saving and loading

Loading what was saved gives the document back, or the defect for which it is refused
(`save_load`).  A loaded document can always be saved and loaded again, and so can the empty one,
which stands in for what cannot be loaded.
-/

namespace PlayDiagram.Document

open Json (Value)

theorem isSound_empty : (empty : Document Float).IsSound :=
  rfl

theorem isFinite_empty : (empty : Document Float).IsFinite := by
  intro p hp
  rw [List.mem_singleton.mp hp]
  constructor
  · intro o ho
    cases ho
  · intro a ha
    cases ha

theorem validate_eq_ok_iff {d d' : Document Float} :
    d.validate = .ok d' ↔ d = d' ∧ d'.IsSound := by
  unfold validate IsSound
  constructor
  · intro hvalid
    split at hvalid
    · cases hvalid
      exact ⟨rfl, ‹_›⟩
    · cases hvalid
  · rintro ⟨rfl, hsound⟩
    rw [hsound]

/-- A value is loaded exactly if it is read as a sound document. -/
theorem ofJson_eq_ok_iff {v : Value} {d : Document Float} :
    ofJson v = .ok d ↔ Decode.document v = .ok d ∧ d.IsSound := by
  unfold ofJson
  cases Decode.document v with
  | error fault => simp
  | ok d' =>
      rw [Except.ok.injEq, ← validate_eq_ok_iff]
      cases hvalidate : d'.validate with
      | ok sound => simp [hvalidate]
      | error defect => simp [hvalidate]

theorem ofJson_encode_of_isSound {d : Document Float} (hfinite : d.IsFinite) (hsound : d.IsSound) :
    ofJson (Encode.document d) = .ok d :=
  ofJson_eq_ok_iff.mpr ⟨Decode.document_encode hfinite, hsound⟩

theorem ofJson_isFinite {v : Value} {d : Document Float} (hload : ofJson v = .ok d) :
    d.IsFinite :=
  Decode.document_yields v d (ofJson_eq_ok_iff.mp hload).1

/-- What is loaded, or taken for it, is sound and finite. -/
theorem ofJsonOrEmpty_isSound_isFinite (v : Value) :
    (ofJsonOrEmpty v).IsSound ∧ (ofJsonOrEmpty v).IsFinite := by
  unfold ofJsonOrEmpty
  cases hload : ofJson v with
  | ok d => exact ⟨(ofJson_eq_ok_iff.mp hload).2, ofJson_isFinite hload⟩
  | error reason => exact ⟨isSound_empty, isFinite_empty⟩

/-- Saving and loading loses nothing. -/
theorem save_load :
    (∀ d : Document Float, d.IsFinite →
      (d.IsSound → ofJson (Encode.document d) = .ok d) ∧
      ∀ defect, d.validate = .error defect →
        ofJson (Encode.document d) = .error (.unsound defect)) ∧
    (∀ v d, ofJson v = .ok d → ofJson (Encode.document d) = .ok d) ∧
    ∀ v, (ofJsonOrEmpty v).IsSound ∧
      ofJsonOrEmpty (Encode.document (ofJsonOrEmpty v)) = ofJsonOrEmpty v := by
  refine ⟨?_, ?_, ?_⟩
  · intro d hfinite
    refine ⟨ofJson_encode_of_isSound hfinite, ?_⟩
    intro defect hdefect
    unfold ofJson
    rw [Decode.document_encode hfinite]
    simp only [hdefect]
  · intro v d hload
    exact ofJson_encode_of_isSound (ofJson_isFinite hload) (ofJson_eq_ok_iff.mp hload).2
  · intro v
    obtain ⟨hsound, hfinite⟩ := ofJsonOrEmpty_isSound_isFinite v
    refine ⟨hsound, ?_⟩
    have hload := ofJson_encode_of_isSound hfinite hsound
    rw [ofJsonOrEmpty]
    simp only [hload]

/-- A drawing in whole numbers, with nobody on the ball, survives being saved; one without phases is
refused as what it is. -/
theorem save_load_wholeNumbers :
    let cone : CourtObject Float :=
      { id := ⟨"c1"⟩, kind := .cone, label := none, position := ⟨0, 2⟩, size := 28,
        width := none, height := none }
    let play : Document Float :=
      .new .full
        [{ id := ⟨"p1"⟩, name := "Setup", objects := [cone], actions := [], ballOwner := .nobody }]
    let saved : Value :=
      .object
        [("phases", .array [.object
          [("id", .string "p1"), ("name", .string "Setup"), ("ballOwnerObjectId", .null),
            ("objects", .array [.object
              [("type", .string "cone"), ("id", .string "c1"),
                ("position", .array
                  [.number (.ofUInt32 0), .number (.ofUInt32 2)])]])]]),
          ("courtTemplate", .string "full_court"), ("schemaVersion", .number (.ofInt64 1))]
    let blank : Document Float := .new .full []
    ofJson saved = .ok play ∧ ofJson (Encode.document play) = .ok play ∧
      blank.IsFinite ∧ ofJson (Encode.document blank) = .error (.unsound .noPhases) := by
  intro cone play saved blank
  obtain ⟨hsave, hreload, -⟩ := save_load
  have hload : ofJson saved = .ok play := rfl
  have hblank : blank.IsFinite := by
    intro p hp
    cases hp
  exact ⟨hload, hreload saved play hload, hblank, (hsave blank hblank).2 .noPhases rfl⟩

end PlayDiagram.Document
