import PlayDiagram.Playback.Frame

/-!
# The clock

A clock holds a position in a compiled play: a transition and a time in it.  It is driven by ticks
of any length and rolls from one transition into the next.

A transition without length is not skipped: the tick that reaches it ends there, and what is left
of the tick is dropped.
-/

namespace PlayDiagram

/-- A position in a play whose transitions have the given durations. -/
structure Clock (α : Type) where
  durations : List α
  /-- The index of the transition. -/
  index : Nat
  /-- The time in the transition. -/
  elapsedMs : α
  deriving DecidableEq, Repr

/-- What can be done to a clock. -/
inductive ClockStep (α : Type) where
  | advance (deltaMs : α)
  | restart
  | jump (index : Nat)

namespace Clock

variable {α : Type} [Scalar α]

/-- A clock at the start of a play. -/
def start (play : CompiledPlay α) : Clock α :=
  { durations := play.transitions.map (·.schedule.totalMs), index := 0, elapsedMs := 0 }

/-- Whether the last transition is over.  A play without transitions is. -/
def isFinished (c : Clock α) : Bool :=
  match c.durations.getLast? with
  | none => true
  | some last => c.index + 1 = c.durations.length && last ≤ c.elapsedMs

/-- Rolls a time in the transition at an index, whose duration comes first in the list, over into
the later ones. -/
def rollOver (index : Nat) (elapsedMs : α) : List α → Nat × α
  | [] => (index, elapsedMs)
  | [last] => (index, Scalar.lesser elapsedMs last)
  | duration :: next :: rest =>
    if duration ≤ elapsedMs then
      if next == 0 then (index + 1, 0)
      else rollOver (index + 1) (elapsedMs - duration) (next :: rest)
    else (index, elapsedMs)

/-- A tick as time to add: only a finite time above zero counts. -/
def addTick (elapsedMs deltaMs : α) : α :=
  if Scalar.isFinite deltaMs ∧ 0 < deltaMs then elapsedMs + deltaMs else elapsedMs

/-- The clock after a tick, and whether there is more to play then.  A finished clock stands
still. -/
def tick (c : Clock α) (deltaMs : α) : Clock α × Bool :=
  if c.isFinished then (c, false)
  else
    let (index, elapsedMs) :=
      rollOver c.index (addTick c.elapsedMs deltaMs) (c.durations.drop c.index)
    let next := { c with index, elapsedMs }
    (next, !next.isFinished)

/-- The clock after a tick. -/
def advance (c : Clock α) (deltaMs : α) : Clock α :=
  (c.tick deltaMs).1

/-- The clock back at the start of the play. -/
def restart (c : Clock α) : Clock α :=
  { c with index := 0, elapsedMs := 0 }

/-- The clock at the start of the transition that leaves the phase at an index. -/
def jump (c : Clock α) (index : Nat) : Except (PlaybackError α) (Clock α) :=
  if index < c.durations.length then .ok { c with index, elapsedMs := 0 }
  else .error (.phaseOutOfRange index c.durations.length)

/-- The frame of a play at the clock's position, if the play has that transition. -/
def frame? (c : Clock α) (play : CompiledPlay α) : Option (Frame α) :=
  play.transitions[c.index]?.map fun t => t.frameAt c.elapsedMs

/-- The clock after a step; a jump that is refused changes nothing. -/
def step (c : Clock α) : ClockStep α → Clock α
  | .advance deltaMs => c.advance deltaMs
  | .restart => c.restart
  | .jump index => (c.jump index).toOption.getD c

/-- The clock after a run of steps. -/
def run (c : Clock α) (steps : List (ClockStep α)) : Clock α :=
  steps.foldl step c

end Clock

end PlayDiagram
