import PlayDiagram.Proofs.Play.Renaming
import PlayDiagram.Proofs.Playback.FrameOrder
import PlayDiagram.Proofs.Playback.LayOut
import PlayDiagram.Proofs.Playback.MappedEntries

/-!
# Renamed plays

The play compiled from a renamed document is the play of the document, renamed
(`Document.compile_rename`): windows, points, the order of the tracks and the indices of their actions
stay what they are.  Only a frame reads the order of the names, as it lists the objects; what it shows
of each object is the same (`Transition.position?_rename`).
-/

namespace PlayDiagram

variable {α : Type} (ρ : Renaming)

def ScheduledAction.rename (a : ScheduledAction α) : ScheduledAction α :=
  { a with
    id := ρ.action a.id
    performer := a.performer.map ρ.object
    receiver := a.receiver.map ρ.object }

def Schedule.rename (s : Schedule α) : Schedule α :=
  { s with actions := s.actions.map (·.rename ρ) }

def Flip.rename (flip : Flip α) : Flip α :=
  { flip with
    action := ρ.action flip.action
    giver := ρ.object flip.giver
    receiver := ρ.object flip.receiver }

def Track.rename (track : Track α) : Track α :=
  { track with object := ρ.object track.object }

def Transition.rename (t : Transition α) : Transition α :=
  { t with
    departingPhase := ρ.phase t.departingPhase
    arrivingPhase := ρ.phase t.arrivingPhase
    schedule := t.schedule.rename ρ
    tracks := t.tracks.map (·.rename ρ)
    startOwner := t.startOwner.map ρ.object
    flip? := t.flip?.map (·.rename ρ) }

def CompiledPlay.rename (c : CompiledPlay α) : CompiledPlay α :=
  { c with
    transitions := c.transitions.map (·.rename ρ)
    startOwners := c.startOwners.map (·.map ρ.object) }

/-- The placed objects under new names. -/
def renamePlaced {β : Type} (placed : List (ObjectId × β)) : List (ObjectId × β) :=
  placed.map fun (id, p) => (ρ.object id, p)

/-- The frame with its objects under new names, listed in the order of these. -/
def Frame.rename (f : Frame α) : Frame α :=
  { positions := orderByObject (renamePlaced ρ f.positions)
    ballOwner := f.ballOwner.map ρ.object }

/-- Two objects that exchange their names exchange their places in the list. -/
example (p q : Point α) :
    (Frame.mk [(⟨"A1"⟩, p), (⟨"A2"⟩, q)] none).rename (.swap ⟨"A1"⟩ ⟨"A2"⟩) =
      ⟨[(⟨"A1"⟩, q), (⟨"A2"⟩, p)], none⟩ := by
  rfl

/-! ## Tracks -/

@[simp] theorem Schedule.actions_rename (s : Schedule α) :
    (s.rename ρ).actions = s.actions.map (·.rename ρ) :=
  rfl

@[simp] theorem Schedule.performedBy_rename (s : Schedule α) (id : ObjectId) :
    (s.rename ρ).performedBy (ρ.object id) = s.performedBy id :=
  performedBy_of_map (s.actions_rename ρ) fun _ =>
    (Option.map_injective ρ.object_injective).eq_iff (b := some id)

theorem arrivalOf_rename (arriving : Phase α) (s : Schedule α) (o : CourtObject α)
    (actions : List ℕ) :
    arrivalOf (arriving.rename ρ) (s.rename ρ) (o.rename ρ) actions =
      arrivalOf arriving s o actions := by
  have hthere : (arriving.rename ρ).object? (o.rename ρ).id = _ := arriving.object?_rename ρ o.id
  rw [← arrivalOf_of_map (s.actions_rename ρ) (fun _ => rfl) arriving o]
  unfold arrivalOf
  rw [hthere]
  cases arriving.object? o.id <;> rfl

theorem departingTracks_rename (arriving : Phase α) (s : Schedule α) (seen : List ObjectId)
    (objects : List (CourtObject α)) :
    departingTracks (arriving.rename ρ) (s.rename ρ) (seen.map ρ.object)
        (objects.map (·.rename ρ)) =
      (departingTracks arriving s seen objects).map (·.rename ρ) := by
  induction objects generalizing seen with
  | nil => rfl
  | cons o rest ih =>
      have hseen : (o.rename ρ).id ∈ seen.map ρ.object ↔ o.id ∈ seen :=
        List.mem_map_of_injective ρ.object_injective
      have hperformed : (s.rename ρ).performedBy (o.rename ρ).id = s.performedBy o.id :=
        s.performedBy_rename ρ o.id
      have hrest := ih (o.id :: seen)
      rw [List.map_cons] at hrest
      simp only [List.map_cons, departingTracks, hseen, hperformed, arrivalOf_rename]
      exact congrArg (List.cons _) hrest

theorem arrivingTracks_rename (departing arriving : Phase α) :
    arrivingTracks (departing.rename ρ) (arriving.rename ρ) =
      (arrivingTracks departing arriving).map (·.rename ρ) := by
  have hthere : ∀ o : CourtObject α,
      (departing.rename ρ).containsObject (o.rename ρ).id = departing.containsObject o.id :=
    fun o => departing.containsObject_rename ρ o.id
  have hobjects : (arriving.rename ρ).objects = arriving.objects.map (·.rename ρ) := rfl
  unfold arrivingTracks
  rw [hobjects, List.filter_map, List.map_map, List.map_map]
  simp only [Function.comp_def, hthere]
  rfl

theorem tracksBetween_rename (departing arriving : Phase α) (s : Schedule α) :
    tracksBetween (departing.rename ρ) (arriving.rename ρ) (s.rename ρ) =
      (tracksBetween departing arriving s).map (·.rename ρ) := by
  unfold tracksBetween
  rw [List.map_append, arrivingTracks_rename, ← departingTracks_rename]
  rfl

/-! ## Possession -/

theorem ScheduledAction.flip?_rename (a : ScheduledAction α) :
    (a.rename ρ).flip? = a.flip?.map (·.rename ρ) := by
  unfold flip? possessionChange? rename
  cases a.kind.transfersPossession with
  | false => rfl
  | true => cases a.performer <;> cases a.receiver <;> rfl

theorem Schedule.flip?_rename (s : Schedule α) :
    (s.rename ρ).flip? = s.flip?.map (·.rename ρ) := by
  unfold flip? rename
  rw [List.findSome?_map, List.map_findSome?]
  exact congrArg (List.findSome? · _) (funext (ScheduledAction.flip?_rename ρ))

theorem Phase.startOwner_rename (p : Phase α) (index : ℕ) (carried : Option ObjectId) :
    (p.rename ρ).startOwner index (carried.map ρ.object) =
      (p.startOwner index carried).map ρ.object := by
  have howner : (p.rename ρ).ballOwner = p.ballOwner.rename ρ := rfl
  unfold startOwner
  rw [howner, firstPlayer?_rename]
  cases p.ballOwner with
  | owner id => rfl
  | nobody => rfl
  | inherit =>
      simp only [BallOwner.rename, apply_ite (Option.map _), Option.map_map]
      rfl

theorem Transition.endOwner_rename (t : Transition α) :
    (t.rename ρ).endOwner = t.endOwner.map ρ.object := by
  unfold endOwner rename
  cases t.flip? <;> rfl

variable [Scalar α]

/-! ## Compiling -/

variable (tempo : Tempo α)

theorem Schedule.ofActions_rename (actions : List (Action α)) :
    ofActions tempo (actions.map (·.rename ρ)) = (ofActions tempo actions).rename ρ :=
  ofActions_map tempo (·.rename ρ) (·.rename ρ) (fun _ => rfl) (fun _ _ _ => rfl) (fun _ _ => rfl)
    actions

theorem Transition.between_rename (index : ℕ) (departing arriving : Phase α)
    (owner : Option ObjectId) :
    between tempo index (departing.rename ρ) (arriving.rename ρ) (owner.map ρ.object) =
      (between tempo index departing arriving owner).rename ρ := by
  have hschedule : Schedule.ofActions tempo (departing.rename ρ).actions = _ :=
    Schedule.ofActions_rename ρ tempo departing.actions
  simp only [between, rename, hschedule, tracksBetween_rename, Schedule.flip?_rename]
  rfl

theorem compileFrom_rename (n : ℕ) (carried : Option ObjectId) (phases : List (Phase α)) :
    compileFrom tempo n (carried.map ρ.object) (phases.map (·.rename ρ)) =
      ((compileFrom tempo n carried phases).1.map (·.rename ρ),
        (compileFrom tempo n carried phases).2.map (·.map ρ.object)) :=
  compileFrom_map (·.rename ρ) (·.rename ρ) (·.map ρ.object) (fun p => p.startOwner_rename ρ)
    (Transition.between_rename ρ tempo) (Transition.endOwner_rename ρ) n carried phases

theorem Document.compile_rename (d : Document α) :
    (d.rename ρ).compile tempo = (d.compile tempo).rename ρ := by
  have hphases := compileFrom_rename ρ tempo 0 none d.phases
  rw [Option.map_none] at hphases
  exact congrArg (fun compiled => CompiledPlay.mk compiled.1 compiled.2 tempo.speed.value) hphases

/-! ## Frames -/

section Placed

variable {β : Type}

theorem reverse_renamePlaced (placed : List (ObjectId × β)) :
    (renamePlaced ρ placed).reverse = renamePlaced ρ placed.reverse :=
  List.map_reverse.symm

@[simp] theorem lookup_renamePlaced (placed : List (ObjectId × β)) (id : ObjectId) :
    (renamePlaced ρ placed).lookup (ρ.object id) = placed.lookup id := by
  induction placed with
  | nil => rfl
  | cons entry rest ih =>
      obtain ⟨other, p⟩ := entry
      have hcons : renamePlaced ρ ((other, p) :: rest) =
        (ρ.object other, p) :: renamePlaced ρ rest := rfl
      rw [hcons, lookup_cons_eq_ite, lookup_cons_eq_ite, ih]
      simp only [ρ.object_injective.eq_iff]

theorem lookup_renamePlaced_of_notMem_range (placed : List (ObjectId × β)) {key : ObjectId}
    (hkey : key ∉ Set.range ρ.object) : (renamePlaced ρ placed).lookup key = none := by
  apply lookup_eq_none_of_notMem
  intro hmem
  obtain ⟨_, hentry, rfl⟩ := List.mem_map.mp hmem
  obtain ⟨entry, -, rfl⟩ := List.mem_map.mp hentry
  exact hkey ⟨entry.1, rfl⟩

/-- The last point of an object under its new name is the last one under its old name. -/
theorem lookup_orderByObject_renamePlaced (placed : List (ObjectId × β)) (id : ObjectId) :
    (orderByObject (renamePlaced ρ placed)).lookup (ρ.object id) =
      (orderByObject placed).lookup id := by
  rw [lookup_orderByObject_eq_reverse, lookup_orderByObject_eq_reverse, reverse_renamePlaced,
    lookup_renamePlaced]

/-- It does not matter whether objects are ordered before they get new names. -/
theorem orderByObject_renamePlaced (placed : List (ObjectId × β)) :
    orderByObject (renamePlaced ρ placed) =
      orderByObject (renamePlaced ρ (orderByObject placed)) := by
  refine eq_of_lookup_eq (orderByObject_sorted _) (orderByObject_sorted _) ?_
  intro key
  have hnodup := nodup_of_sorted (orderByObject_sorted placed)
  by_cases hkey : key ∈ Set.range ρ.object
  · obtain ⟨id, rfl⟩ := hkey
    rw [lookup_orderByObject_renamePlaced, lookup_orderByObject_renamePlaced,
      lookup_orderByObject hnodup]
  · have hnone : ∀ l : List (ObjectId × β), (orderByObject (renamePlaced ρ l)).lookup key = none := by
      intro l
      rw [lookup_orderByObject_eq_reverse, reverse_renamePlaced,
        lookup_renamePlaced_of_notMem_range ρ _ hkey]
    rw [hnone, hnone]

end Placed

theorem Track.positionAt_rename (track : Track α) (s : Schedule α) (t : α) :
    (track.rename ρ).positionAt (s.rename ρ) t = track.positionAt s t := by
  have hmoves : KeepsMoves (·.rename ρ : ScheduledAction α → ScheduledAction α) :=
    ⟨fun _ => rfl, fun _ => rfl, fun _ => rfl, fun _ => rfl⟩
  exact Track.positionAt_of_map (s.actions_rename ρ) rfl hmoves track t

theorem ownerAt_rename (start : Option ObjectId) (flip? : Option (Flip α)) (t : α) :
    ownerAt (start.map ρ.object) (flip?.map (·.rename ρ)).toList t =
      (ownerAt start flip?.toList t).map ρ.object := by
  cases flip? with
  | none => rfl
  | some flip =>
      simp only [ownerAt, Option.map_some, Option.toList_some, List.foldl_cons, List.foldl_nil,
        apply_ite (Option.map _)]
      rfl

namespace Transition

variable (t : Transition α)

theorem frameAt_rename (time : α) : (t.rename ρ).frameAt time = (t.frameAt time).rename ρ := by
  have hplaced : (t.rename ρ).tracks.map (fun track =>
        (track.object, track.positionAt (t.rename ρ).schedule ((t.rename ρ).instant time))) =
      renamePlaced ρ (t.tracks.map fun track =>
        (track.object, track.positionAt t.schedule (t.instant time))) := by
    unfold renamePlaced
    rw [List.map_map, rename, List.map_map]
    exact List.map_congr_left fun track _ =>
      congrArg (Prod.mk (ρ.object track.object)) (track.positionAt_rename ρ t.schedule _)
  simp only [frameAt, Frame.rename, hplaced, ← ownerAt_rename]
  rw [← orderByObject_renamePlaced]
  rfl

theorem position?_rename (time : α) (id : ObjectId) :
    ((t.rename ρ).frameAt time).position? (ρ.object id) = (t.frameAt time).position? id := by
  have hsorted := orderByObject_sorted (t.tracks.map fun track =>
    (track.object, track.positionAt t.schedule (t.instant time)))
  rw [frameAt_rename]
  unfold Frame.position? Frame.rename
  rw [lookup_orderByObject_renamePlaced, lookup_orderByObject]
  exact nodup_of_sorted hsorted

end Transition

/-- Names are opaque: a renamed document is accepted or refused alike, and what is compiled from it,
shown of it and warned about is the same under the new names. -/
theorem Document.results_rename (d : Document α) :
    (d.rename ρ).validate = (d.validate.map (·.rename ρ)).mapError (·.rename ρ) ∧
      (d.rename ρ).compile tempo = (d.compile tempo).rename ρ ∧
      (∀ (t : Transition α) (time : α),
        (t.rename ρ).frameAt time = (t.frameAt time).rename ρ ∧
          ∀ id, ((t.rename ρ).frameAt time).position? (ρ.object id) =
            (t.frameAt time).position? id) ∧
      (d.rename ρ).warnings = d.warnings.map fun (p, w) => (p.rename ρ, w.rename ρ) := by
  refine ⟨d.validate_rename ρ, d.compile_rename ρ tempo, ?_, d.warnings_rename ρ⟩
  intro t time
  exact ⟨t.frameAt_rename ρ time, t.position?_rename ρ time⟩

/-- A player with the ball cuts past another one and passes to nobody.  When the two exchange their names,
the frames list the other one first. -/
theorem Document.results_rename_swap :
    let player (name : String) (x : Float) : CourtObject Float := .new ⟨name⟩ .offensePlayer ⟨x, 0⟩
    let action (name : String) (kind : ActionKind) (target : Point Float) : Action Float :=
      (Action.freehand ⟨name⟩ kind ⟨0, 0⟩ target).performedBy ⟨"o1"⟩
    let first : Phase Float :=
      { id := ⟨"p1"⟩, name := "Cut", objects := [player "o1" 0, player "o2" 500]
        actions := [action "a1" .cut ⟨80, 0⟩, action "a2" .pass ⟨500, 0⟩]
        ballOwner := .owner ⟨"o1"⟩ }
    let play : Document Float := .new .half [first, { first with id := ⟨"p2"⟩, actions := [] }]
    let tempo : Tempo Float := ⟨{}, SpeedPreset.normal.speed⟩
    let ρ := Renaming.swap ⟨"o1"⟩ ⟨"o2"⟩
    (play.rename ρ).validate = .ok (play.rename ρ) ∧
      (play.rename ρ).warnings = [(first.rename ρ, ⟨⟨"a2"⟩, .pass⟩)] ∧
      ∃ t, (play.compile tempo).transitions[0]? = some t ∧
        ((play.rename ρ).compile tempo).transitions[0]? = some (t.rename ρ) ∧
        t.frameAt 200 = ⟨[(⟨"o1"⟩, ⟨20, 0⟩), (⟨"o2"⟩, ⟨500, 0⟩)], some ⟨"o1"⟩⟩ ∧
        (t.rename ρ).frameAt 200 = ⟨[(⟨"o1"⟩, ⟨500, 0⟩), (⟨"o2"⟩, ⟨20, 0⟩)], some ⟨"o2"⟩⟩ := by
  intro player action first play tempo ρ
  obtain ⟨hvalid, hcompile, hframes, hwarnings⟩ := Document.results_rename ρ tempo play
  have hsound : play.validate = .ok play := rfl
  have hframe : (play.compile tempo).transitions[0]?.map (·.frameAt 200) =
      some ⟨[(⟨"o1"⟩, ⟨20, 0⟩), (⟨"o2"⟩, ⟨500, 0⟩)], some ⟨"o1"⟩⟩ := by
    decide +kernel
  obtain ⟨t, ht, hshown⟩ := Option.map_eq_some_iff.mp hframe
  refine ⟨?_, ?_, t, ht, ?_, hshown, ?_⟩
  · rw [hvalid, hsound]
    rfl
  · rw [hwarnings]
    rfl
  · rw [hcompile, CompiledPlay.rename, List.getElem?_map, ht, Option.map_some]
  · rw [(hframes t 200).1, hshown]
    decide +kernel

end PlayDiagram
