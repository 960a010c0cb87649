import PlayDiagram.Number.Shortest

/-!
# Requests that playback refuses
-/

namespace PlayDiagram

/-- Why a request about playback is refused. -/
inductive PlaybackError (α : Type) where
  /-- A speed that is not finite or not positive. -/
  | invalidSpeed (value : α)
  /-- A text that names no speed. -/
  | unknownSpeed (text : String)
  /-- No transition leaves a phase at the index. -/
  | phaseOutOfRange (index transitions : Nat)
  deriving DecidableEq, Repr

/-- The text of a refusal. -/
def PlaybackError.message : PlaybackError Float → String
  | invalidSpeed value =>
    "speed multiplier must be a finite number greater than zero, got " ++
      FloatFormat.plain.render value
  | unknownSpeed text => s!"unknown playback speed \"{text}\" (expected 0.5, 1, 1.5, or 2)"
  | phaseOutOfRange index transitions =>
    s!"phase {index} has no transition (play has {transitions} transitions)"

end PlayDiagram
