import PlayDiagram.Playback.Possession

/-!
# Compiled plays

A compiled play has one transition for each phase but the last: what happens on the way to the
next phase, with all times computed.
-/

namespace PlayDiagram

/-- How an object moves through a transition. -/
structure Track (α : Type) where
  object : ObjectId
  /-- Where the object stands when the transition starts. -/
  departing : Point α
  /-- Where it stands when the transition ends. -/
  arriving : Point α
  /-- The indices of the scheduled actions that it performs, in order. -/
  actions : List Nat
  deriving DecidableEq, BEq, Repr

/-- The entries of the schedule that the track follows. -/
def Track.entries {α : Type} (track : Track α) (s : Schedule α) : List (ScheduledAction α) :=
  track.actions.filterMap (s.actions[·]?)

theorem Track.mem_actions_of_mem_entries {α : Type} {track : Track α} {s : Schedule α}
    {a : ScheduledAction α} (ha : a ∈ track.entries s) : a ∈ s.actions := by
  obtain ⟨k, -, hk⟩ := List.mem_filterMap.mp ha
  exact List.mem_of_getElem? hk

/-- The way from one phase to the next. -/
structure Transition (α : Type) where
  /-- The index of the phase that it leaves. -/
  index : Nat
  departingPhase : PhaseId
  arrivingPhase : PhaseId
  schedule : Schedule α
  tracks : List (Track α)
  startOwner : Option ObjectId
  flip? : Option (Flip α)
  deriving DecidableEq, BEq, Repr

/-- A play compiled at one speed. -/
structure CompiledPlay (α : Type) where
  transitions : List (Transition α)
  /-- Who has the ball when each phase starts. -/
  startOwners : List (Option ObjectId)
  /-- The factor of the speed. -/
  speed : α
  deriving DecidableEq, BEq, Repr

/-- Who has the ball when the transition has ended. -/
def Transition.endOwner {α : Type} (t : Transition α) : Option ObjectId :=
  ownerAfter t.startOwner t.flip?

section Tracks

variable {α : Type}

/-- Where an object ends that stands at `position` and performs the actions at the given indices:
where the next phase records it; an object that is not there ends where its last action does, or
stays. -/
def arrivalOf (arriving : Phase α) (s : Schedule α) (o : CourtObject α) (actions : List Nat) :
    Point α :=
  match arriving.object? o.id with
  | some there => there.position
  | none =>
    match actions.getLast?.bind (s.actions[·]?) with
    | some last => last.target
    | none => o.position

/-- The tracks of the objects of the departing phase.  Of objects with one name, which a sound
phase does not have, the first performs the actions. -/
def departingTracks (arriving : Phase α) (s : Schedule α) (seen : List ObjectId) :
    List (CourtObject α) → List (Track α)
  | [] => []
  | o :: rest =>
    let actions := if o.id ∈ seen then [] else s.performedBy o.id
    { object := o.id
      departing := o.position
      arriving := arrivalOf arriving s o actions
      actions } :: departingTracks arriving s (o.id :: seen) rest

/-- The tracks of the objects that only the arriving phase has: they stand still. -/
def arrivingTracks (departing arriving : Phase α) : List (Track α) :=
  (arriving.objects.filter fun o => !departing.containsObject o.id).map fun o =>
    { object := o.id, departing := o.position, arriving := o.position, actions := [] }

/-- One track for each object of either phase: those of the departing phase first. -/
def tracksBetween (departing arriving : Phase α) (s : Schedule α) : List (Track α) :=
  departingTracks arriving s [] departing.objects ++ arrivingTracks departing arriving

end Tracks

variable {α : Type} [Scalar α]

/-- The transition between two neighbouring phases. -/
def Transition.between (tempo : Tempo α) (index : Nat) (departing arriving : Phase α)
    (owner : Option ObjectId) : Transition α :=
  let schedule := Schedule.ofActions tempo departing.actions
  { index
    departingPhase := departing.id
    arrivingPhase := arriving.id
    schedule
    tracks := tracksBetween departing arriving schedule
    startOwner := owner
    flip? := schedule.flip? }

/-- The transitions out of the phases from an index on, and who has the ball when each phase
starts, if `carried` has it before. -/
def compileFrom (tempo : Tempo α) (index : Nat) (carried : Option ObjectId) :
    List (Phase α) → List (Transition α) × List (Option ObjectId)
  | [] => ([], [])
  | [last] => ([], [last.startOwner index carried])
  | departing :: arriving :: rest =>
    let owner := departing.startOwner index carried
    let transition := Transition.between tempo index departing arriving owner
    let (transitions, owners) :=
      compileFrom tempo (index + 1) transition.endOwner (arriving :: rest)
    (transition :: transitions, owner :: owners)

/-- Compiles a document. -/
def Document.compile (d : Document α) (tempo : Tempo α) : CompiledPlay α :=
  let (transitions, startOwners) := compileFrom tempo 0 none d.phases
  { transitions, startOwners, speed := tempo.speed.value }

/-- The length of a whole play. -/
def CompiledPlay.totalMs (c : CompiledPlay α) : α :=
  c.transitions.foldl (fun sum t => sum + t.schedule.totalMs) 0

end PlayDiagram
