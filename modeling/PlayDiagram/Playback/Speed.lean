import PlayDiagram.Play.Action
import PlayDiagram.Playback.Error
import PlayDiagram.Text.Blank

/-!
# Speeds and durations

A speed is a finite factor greater than zero.  The time that an action takes is its nominal
duration, raised to a floor, over the speed.
-/

namespace PlayDiagram

/-- How many times faster than normal a play runs. -/
structure Speed (α : Type) [Scalar α] where
  value : α
  finite : Scalar.isFinite value = true
  positive : 0 < value

namespace Speed

/-- The speed of a given factor. -/
def ofScalar {α : Type} [Scalar α] (value : α) : Except (PlaybackError α) (Speed α) :=
  if h : Scalar.isFinite value = true ∧ 0 < value then .ok ⟨value, h.1, h.2⟩
  else .error (.invalidSpeed value)

/-- The time in milliseconds that something takes which takes `ms` at normal speed. -/
def scale {α : Type} [Scalar α] (s : Speed α) (ms : UInt32) : α :=
  Scalar.ofWord ms / s.value

/-- The factor and an `x`. -/
def text (s : Speed Float) : String :=
  FloatFormat.plain.render s.value ++ "x"

end Speed

/-- The speeds offered to choose from. -/
inductive SpeedPreset where
  | half
  | normal
  | oneAndHalf
  | double
  deriving DecidableEq, Repr

namespace SpeedPreset

/-- All presets, the slowest first. -/
def all : List SpeedPreset :=
  [half, normal, oneAndHalf, double]

/-- The speed of a preset. -/
def speed : SpeedPreset → Speed Float
  | half => ⟨0.5, by decide, by decide⟩
  | normal => ⟨1, by decide, by decide⟩
  | oneAndHalf => ⟨1.5, by decide, by decide⟩
  | double => ⟨2, by decide, by decide⟩

/-- The spellings of a preset's factor. -/
def spellings : SpeedPreset → List String
  | half => ["0.5", ".5"]
  | normal => ["1", "1.0"]
  | oneAndHalf => ["1.5"]
  | double => ["2", "2.0"]

/-- The characters without an `x` at the end. -/
def withoutMark (cs : List Char) : List Char :=
  if cs.getLast? = some 'x' then cs.dropLast else cs

/-- The preset that a text names.  Blanks around the text, and an `x` after the factor, are
allowed. -/
def ofText (text : String) : Except (PlaybackError Float) SpeedPreset :=
  let factor := String.ofList (withoutMark (trimBlanks text.toList))
  match all.find? fun preset => preset.spellings.contains factor with
  | some preset => .ok preset
  | none => .error (.unknownSpeed text)

end SpeedPreset

/-- The durations that hold for every action of a play. -/
structure PlaybackConfig where
  /-- The least duration of an action, at normal speed. -/
  floorMs : UInt32 := 120
  /-- The duration of an action that has none of its own. -/
  defaultMs : UInt32 := 800
  deriving DecidableEq, Repr

/-- The nominal duration of an action: its own or the default, and at least the floor. -/
def PlaybackConfig.effectiveMs (c : PlaybackConfig) (durationMs : Option UInt32) : UInt32 :=
  max (durationMs.getD c.defaultMs) c.floorMs

/-- What decides how long an action takes: the configured durations and the speed. -/
structure Tempo (α : Type) [Scalar α] where
  config : PlaybackConfig
  speed : Speed α

/-- The time in milliseconds that an action of the given timing takes. -/
def Tempo.lengthMs {α : Type} [Scalar α] (tempo : Tempo α) (timing : Timing) : α :=
  tempo.speed.scale (tempo.config.effectiveMs timing.durationMs)

end PlayDiagram
