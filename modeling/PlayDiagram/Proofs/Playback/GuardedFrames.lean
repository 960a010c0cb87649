import PlayDiagram.Proofs.Number.DoubleSum
import PlayDiagram.Proofs.Playback.TrackPartition
import PlayDiagram.Proofs.Playback.WindowBounds

/-!
# Compiling and showing plays under guard

Three operations of playback make demands: a time is clamped only between bounds in order, an entry is
read only at an index that the list has, and one is taken only from a number above zero.  Everywhere else
these modules have values for arguments that meet no demand.  Here each demand is guarded, and what
violates it is a `Fault`: compiling any document, sound or not, and showing a frame of it at any time meets
none, and yields what it does without guards (`Document.guardedCompile_eq`,
`Transition.guardedFrameAt_eq`).
-/

namespace PlayDiagram

/-! ## Guarded operations -/

/-- A demand that was not met. -/
inductive Fault where
  /-- Bounds that are not in order, or of which one is no number. -/
  | noInterval
  /-- An index beyond the end of a list. -/
  | beyondEnd (index length : ℕ)
  /-- One less than zero. -/
  | belowZero
  deriving DecidableEq, Repr

variable {α β : Type}

/-- Clamps between bounds in order. -/
def guardedClamp [Scalar α] (low high x : α) : Except Fault α :=
  if low ≤ high then .ok (Scalar.clamp low high x) else .error .noInterval

/-- Reads the entry at an index of the list. -/
def guardedEntry (xs : List β) (index : ℕ) : Except Fault β :=
  match xs[index]? with
  | some x => .ok x
  | none => .error (.beyondEnd index xs.length)

/-- Takes one from a number above zero. -/
def guardedPred : ℕ → Except Fault ℕ
  | 0 => .error .belowZero
  | n + 1 => .ok n

theorem guardedClamp_eq [Scalar α] {low high : α} (hbounds : low ≤ high) (x : α) :
    guardedClamp low high x = .ok (Scalar.clamp low high x) :=
  if_pos hbounds

theorem guardedEntry_eq {xs : List β} {index : ℕ} {x : β} (hx : xs[index]? = some x) :
    guardedEntry xs index = .ok x := by
  simp only [guardedEntry, hx]

theorem mapM_eq_ok {f : α → Except Fault β} {g : α → β} {xs : List α}
    (hf : ∀ x ∈ xs, f x = .ok (g x)) : xs.mapM f = .ok (xs.map g) := by
  induction xs with
  | nil => rfl
  | cons x rest ih =>
      rw [List.mapM_cons, hf x List.mem_cons_self, ih fun y hy => hf y (List.mem_cons_of_mem x hy)]
      rfl

/-! ## Compiling -/

section Tracks

variable (arriving : Phase α) (s : Schedule α)

/-- `arrivalOf` under guard: the last action is read off the schedule at its index. -/
def guardedArrivalOf (o : CourtObject α) (actions : List ℕ) : Except Fault (Point α) :=
  match arriving.object? o.id with
  | some there => .ok there.position
  | none =>
    match actions.getLast? with
    | some last => return (← guardedEntry s.actions last).target
    | none => .ok o.position

/-- `departingTracks` under guard. -/
def guardedDepartingTracks (seen : List ObjectId) : List (CourtObject α) → Except Fault (List (Track α))
  | [] => .ok []
  | o :: rest => do
    let actions := if o.id ∈ seen then [] else s.performedBy o.id
    let arrival ← guardedArrivalOf arriving s o actions
    let later ← guardedDepartingTracks (o.id :: seen) rest
    return { object := o.id, departing := o.position, arriving := arrival, actions } :: later

/-- Indices of the schedule are read without fault. -/
theorem guardedArrivalOf_eq (o : CourtObject α) {actions : List ℕ}
    (hactions : ∀ k ∈ actions, k < s.actions.length) :
    guardedArrivalOf arriving s o actions = .ok (arrivalOf arriving s o actions) := by
  unfold guardedArrivalOf arrivalOf
  cases arriving.object? o.id with
  | some there => rfl
  | none =>
      cases hlast : actions.getLast? with
      | none => rfl
      | some last =>
          have hentry := List.getElem?_eq_getElem (hactions last (List.mem_of_getLast? hlast))
          simp only [guardedEntry_eq hentry, Option.bind_some, hentry]
          rfl

/-- Whatever names the objects have, also with repetitions, their tracks hold indices of the schedule. -/
theorem guardedDepartingTracks_eq (seen : List ObjectId) (objects : List (CourtObject α)) :
    guardedDepartingTracks arriving s seen objects = .ok (departingTracks arriving s seen objects) := by
  induction objects generalizing seen with
  | nil => rfl
  | cons o rest ih =>
      have hactions : ∀ k ∈ (if o.id ∈ seen then [] else s.performedBy o.id), k < s.actions.length := by
        intro k hk
        split_ifs at hk with hseen
        · exact absurd hk List.not_mem_nil
        · exact Schedule.lt_length_of_mem_performedBy hk
      simp only [guardedDepartingTracks, guardedArrivalOf_eq arriving s o hactions, ih]
      rfl

end Tracks

variable [Scalar α]

/-- `Transition.between` under guard. -/
def Transition.guardedBetween (tempo : Tempo α) (index : ℕ) (departing arriving : Phase α)
    (owner : Option ObjectId) : Except Fault (Transition α) := do
  let schedule := Schedule.ofActions tempo departing.actions
  let tracks ← guardedDepartingTracks arriving schedule [] departing.objects
  return {
    index
    departingPhase := departing.id
    arrivingPhase := arriving.id
    schedule
    tracks := tracks ++ arrivingTracks departing arriving
    startOwner := owner
    flip? := schedule.flip? }

/-- `compileFrom` under guard. -/
def guardedCompileFrom (tempo : Tempo α) (index : ℕ) (carried : Option ObjectId) :
    List (Phase α) → Except Fault (List (Transition α) × List (Option ObjectId))
  | [] => .ok ([], [])
  | [last] => .ok ([], [last.startOwner index carried])
  | departing :: arriving :: rest => do
    let owner := departing.startOwner index carried
    let transition ← Transition.guardedBetween tempo index departing arriving owner
    let (transitions, owners) ←
      guardedCompileFrom tempo (index + 1) transition.endOwner (arriving :: rest)
    return (transition :: transitions, owner :: owners)

/-- `Document.compile` under guard. -/
def Document.guardedCompile (d : Document α) (tempo : Tempo α) : Except Fault (CompiledPlay α) := do
  let (transitions, startOwners) ← guardedCompileFrom tempo 0 none d.phases
  return { transitions, startOwners, speed := tempo.speed.value }

theorem Transition.guardedBetween_eq (tempo : Tempo α) (index : ℕ) (departing arriving : Phase α)
    (owner : Option ObjectId) :
    Transition.guardedBetween tempo index departing arriving owner =
      .ok (Transition.between tempo index departing arriving owner) := by
  simp only [guardedBetween, guardedDepartingTracks_eq]
  rfl

theorem guardedCompileFrom_eq (tempo : Tempo α) (index : ℕ) (carried : Option ObjectId)
    (phases : List (Phase α)) :
    guardedCompileFrom tempo index carried phases = .ok (compileFrom tempo index carried phases) := by
  induction phases generalizing index carried with
  | nil => rfl
  | cons departing rest ih =>
      cases rest with
      | nil => rfl
      | cons arriving rest =>
          rw [guardedCompileFrom, Transition.guardedBetween_eq]
          simp only [bind, Except.bind, ih]
          rfl

/-- No document, sound or not, is compiled with a fault. -/
theorem Document.guardedCompile_eq (d : Document α) (tempo : Tempo α) :
    d.guardedCompile tempo = .ok (d.compile tempo) := by
  unfold guardedCompile
  rw [guardedCompileFrom_eq]
  rfl

/-! ## Showing -/

/-- `ScheduledAction.progress` under guard. -/
def ScheduledAction.guardedProgress (a : ScheduledAction α) (t : α) : Except Fault α :=
  let span := a.durationMs
  if span ≤ 0 then .ok 1 else guardedClamp 0 1 ((t - a.startMs) / span)

/-- `ScheduledAction.positionAt` under guard. -/
def ScheduledAction.guardedPositionAt (a : ScheduledAction α) (t : α) : Except Fault (Point α) :=
  return a.origin.lerp a.target (← a.guardedProgress t)

/-- `Track.positionAt` under guard. -/
def Track.guardedPositionAt (track : Track α) (s : Schedule α) (t : α) : Except Fault (Point α) :=
  let actions := track.entries s
  if actions.isEmpty then
    if s.totalMs ≤ 0 then .ok track.departing
    else .ok (track.departing.lerp track.arriving (t / s.totalMs))
  else if !actions.any fun a => a.startMs < t then .ok track.departing
  else if !actions.any fun a => t < a.endMs then .ok track.arriving
  else
    match actions.reverse.find? (·.contains t) with
    | some active => active.guardedPositionAt t
    | none =>
      match lastEnded? actions t with
      | some ended => .ok ended.target
      | none => .ok track.departing

/-- `Transition.instant` under guard. -/
def Transition.guardedInstant (transition : Transition α) (t : α) : Except Fault α :=
  if Scalar.isNaN t then .ok 0 else guardedClamp 0 transition.schedule.totalMs t

/-- `Transition.frameAt` under guard. -/
def Transition.guardedFrameAt (transition : Transition α) (t : α) : Except Fault (Frame α) := do
  let instant ← transition.guardedInstant t
  let placed ← transition.tracks.mapM fun track => do
    return (track.object, ← track.guardedPositionAt transition.schedule instant)
  return {
    positions := orderByObject placed
    ballOwner := ownerAt transition.startOwner transition.flip?.toList instant }

section Rounded

theorem float_zero_le_one : (0 : Float) ≤ 1 := by
  decide

theorem ScheduledAction.guardedPositionAt_eq (a : ScheduledAction Float) (t : Float) :
    a.guardedPositionAt t = .ok (a.positionAt t) := by
  unfold guardedPositionAt positionAt guardedProgress progress
  dsimp only
  split_ifs
  · rfl
  · rw [guardedClamp_eq float_zero_le_one]
    rfl

theorem Track.guardedPositionAt_eq (track : Track Float) (s : Schedule Float) (t : Float) :
    track.guardedPositionAt s t = .ok (track.positionAt s t) := by
  unfold guardedPositionAt positionAt
  dsimp only
  split_ifs
  · rfl
  · rfl
  · rfl
  · rfl
  · cases List.find? (·.contains t) (track.entries s).reverse with
    | some active => exact active.guardedPositionAt_eq t
    | none => cases lastEnded? (track.entries s) t <;> rfl

/-- A transition of a length that is not below zero is shown at any time without a fault. -/
theorem Transition.guardedFrameAt_eq {transition : Transition Float}
    (htotal : 0 ≤ transition.schedule.totalMs) (t : Float) :
    transition.guardedFrameAt t = .ok (transition.frameAt t) := by
  have hinstant : transition.guardedInstant t = .ok (transition.instant t) := by
    unfold guardedInstant instant
    rw [guardedClamp_eq htotal]
    split_ifs <;> rfl
  have hplaced : ∀ track ∈ transition.tracks,
      (do return (track.object,
        ← track.guardedPositionAt transition.schedule (transition.instant t)) : Except Fault _) =
      .ok (track.object, track.positionAt transition.schedule (transition.instant t)) := by
    intro track _
    rw [Track.guardedPositionAt_eq]
    rfl
  unfold guardedFrameAt
  rw [hinstant]
  simp only [bind, Except.bind] at hplaced ⊢
  rw [mapM_eq_ok hplaced]
  rfl

end Rounded

namespace Document

/-- The tracks of a play hold indices of their schedules, also if its objects share names. -/
theorem track_actions_lt {d : Document α} {tempo : Tempo α} {t : Transition α}
    (ht : t ∈ (d.compile tempo).transitions) :
    ∀ track ∈ t.tracks, ∀ k ∈ track.actions, k < t.schedule.actions.length := by
  obtain ⟨i, hi⟩ := List.mem_iff_getElem?.mp ht
  obtain ⟨departing, arriving, -, -, rfl⟩ := exists_between_of_transition hi
  intro track htrack k hk
  rcases tracksBetween_actions htrack with hnone | hall
  · rw [hnone] at hk
    exact absurd hk List.not_mem_nil
  · rw [hall] at hk
    exact Schedule.lt_length_of_mem_performedBy hk

end Document

end PlayDiagram
