import PlayDiagram.Proofs.Play.Warnings
import PlayDiagram.Proofs.Playback.FirstPass
import PlayDiagram.Proofs.Playback.LayOut
import PlayDiagram.Proofs.Playback.LookBack
import PlayDiagram.Proofs.Playback.MappedEntries
import PlayDiagram.Proofs.Playback.Redrawing

/-!
# Passes that nobody receives

All that playback reads from the kind of an action is whether the ball is passed.  In the sketch of a
document every action that does not pass it is a cut.  The play compiled from the sketch is the sketch
of the compiled play (`Document.compile_sketch`), and a sketched transition shows the same frames.  A
pass without a receiver is a cut in the sketch, whatever else its author makes of it, so it changes
nothing (`Document.warnings_inert`).
-/

namespace PlayDiagram

variable {α : Type}

/-! ## Sketches -/

/-- The action with its kind, if it passes the ball, and else as a cut. -/
def Action.sketch (a : Action α) : Action α :=
  { a with kind := if a.possessionChange?.isSome then a.kind else .cut }

def ScheduledAction.sketch (a : ScheduledAction α) : ScheduledAction α :=
  { a with kind := if a.possessionChange?.isSome then a.kind else .cut }

def Schedule.sketch (s : Schedule α) : Schedule α :=
  { s with actions := s.actions.map (·.sketch) }

def Transition.sketch (t : Transition α) : Transition α :=
  { t with schedule := t.schedule.sketch }

def CompiledPlay.sketch (c : CompiledPlay α) : CompiledPlay α :=
  { c with transitions := c.transitions.map (·.sketch) }

def Phase.sketch (p : Phase α) : Phase α :=
  { p with actions := p.actions.map (·.sketch) }

def Document.sketch (d : Document α) : Document α :=
  { d with phases := d.phases.map (·.sketch) }

theorem Action.sketch_of_not_passes {a : Action α} (ha : a.possessionChange? = none) :
    a.sketch = { a with kind := .cut } := by
  simp [sketch, ha]

@[simp] theorem ScheduledAction.flip?_sketch (a : ScheduledAction α) : a.sketch.flip? = a.flip? := by
  cases hpasses : a.possessionChange? with
  | some _ =>
      have hkept : a.sketch = a := by simp [sketch, hpasses]
      rw [hkept]
  | none =>
      have hcut : a.sketch = { a with kind := .cut } := by simp [sketch, hpasses]
      have hnone : a.flip? = none := by
        rw [flip?, hpasses]
        rfl
      rw [hcut, hnone]
      rfl

@[simp] theorem Schedule.flip?_sketch (s : Schedule α) : s.sketch.flip? = s.flip? := by
  unfold flip? sketch
  rw [List.findSome?_map]
  exact congrArg (List.findSome? · s.actions) (funext ScheduledAction.flip?_sketch)

theorem departingTracks_sketch (arriving : Phase α) (s : Schedule α) (seen : List ObjectId)
    (objects : List (CourtObject α)) :
    departingTracks arriving.sketch s seen objects = departingTracks arriving s seen objects := by
  induction objects generalizing seen with
  | nil => rfl
  | cons o rest ih =>
      rw [departingTracks, ih]
      rfl

theorem tracksBetween_sketch (departing arriving : Phase α) (s : Schedule α) :
    tracksBetween departing.sketch arriving.sketch s.sketch = tracksBetween departing arriving s := by
  have hmapped : s.sketch.actions = s.actions.map (·.sketch) := rfl
  rw [tracksBetween_of_map hmapped (fun _ => rfl) (fun _ => rfl)]
  unfold tracksBetween
  rw [departingTracks_sketch]
  rfl

/-! ## Muting -/

namespace Document

/-- The document warns about the action of the phase. -/
def WarnsAbout (d : Document α) (p : Phase α) (a : Action α) : Prop :=
  a ∈ p.actions ∧ ∃ w, (p, w) ∈ d.warnings ∧ w.action = a.id

end Document

/-- The same action, or one with the property as an action of a kind that does not transfer
possession. -/
def Action.MutedAs (muted : Action α → Prop) (a a' : Action α) : Prop :=
  a' = a ∨ muted a ∧ ∃ kind, kind.transfersPossession = false ∧ a' = { a with kind }

/-- The same phase, but for the kinds of some of the muted actions. -/
structure Phase.MutedAs (muted : Action α → Prop) (p p' : Phase α) : Prop where
  id_eq : p'.id = p.id
  name_eq : p'.name = p.name
  objects_eq : p'.objects = p.objects
  ballOwner_eq : p'.ballOwner = p.ballOwner
  actions : List.Forall₂ (Action.MutedAs muted) p.actions p'.actions

/-- The same document, but some of the actions that it warns about are of kinds that do not transfer
possession. -/
structure Document.MutedAs (d d' : Document α) : Prop where
  schemaVersion_eq : d'.schemaVersion = d.schemaVersion
  court_eq : d'.court = d.court
  phases : List.Forall₂ (fun p p' => p.MutedAs (d.WarnsAbout p) p') d.phases d'.phases

theorem Document.IsSound.lacksReceiver {d : Document α} (hd : d.IsSound) {p : Phase α} {a : Action α}
    (ha : d.WarnsAbout p a) : a.lacksReceiver = true := by
  obtain ⟨hmem, w, hw, hid⟩ := ha
  obtain ⟨hp, hw⟩ := mem_warnings.mp hw
  exact (((isSound_iff d).mp hd).2.2 p hp).lacksReceiver hmem hw hid

/-- A muted action is a cut in the sketch, as it was before. -/
theorem Action.MutedAs.sketch_eq {muted : Action α → Prop} {a a' : Action α}
    (hmuted : ∀ a, muted a → a.lacksReceiver = true) (h : a.MutedAs muted a') :
    a'.sketch = a.sketch := by
  rcases h with rfl | ⟨ha, kind, hkind, rfl⟩
  · rfl
  · have hbefore := possessionChange?_of_lacksReceiver (hmuted a ha)
    have hafter : ({ a with kind } : Action α).possessionChange? = none := by
      simp [possessionChange?, hkind]
    rw [sketch_of_not_passes hbefore, sketch_of_not_passes hafter]

theorem Document.MutedAs.sketch_eq {d d' : Document α} (hd : d.IsSound) (h : d.MutedAs d') :
    d'.sketch = d.sketch := by
  have hphases : d'.phases.map (·.sketch) = d.phases.map (·.sketch) := by
    refine (map_eq_of_forall₂ h.phases fun p p' hp => ?_).symm
    have hactions : p.actions.map (·.sketch) = p'.actions.map (·.sketch) :=
      map_eq_of_forall₂ hp.actions fun a a' ha =>
        (ha.sketch_eq fun a ha => hd.lacksReceiver ha).symm
    simp only [Phase.sketch, hactions, hp.id_eq, hp.name_eq, hp.objects_eq, hp.ballOwner_eq]
  simp only [sketch, hphases, h.schemaVersion_eq, h.court_eq]

/-! ## Compiling -/

@[simp] theorem Transition.windows_sketch (t : Transition α) :
    t.sketch.schedule.windows = t.schedule.windows := by
  simp only [sketch, Schedule.sketch, Schedule.windows, List.map_map]
  rfl

variable [Scalar α] (tempo : Tempo α)

theorem Schedule.ofActions_sketch (actions : List (Action α)) :
    ofActions tempo (actions.map (·.sketch)) = (ofActions tempo actions).sketch :=
  ofActions_map tempo (·.sketch) (·.sketch) (fun _ => rfl) (fun _ _ _ => rfl) (fun _ _ => rfl) actions

theorem Transition.between_sketch (index : ℕ) (departing arriving : Phase α)
    (owner : Option ObjectId) :
    between tempo index departing.sketch arriving.sketch owner =
      (between tempo index departing arriving owner).sketch := by
  have hschedule : Schedule.ofActions tempo departing.sketch.actions = _ :=
    Schedule.ofActions_sketch tempo departing.actions
  simp only [between, sketch, hschedule, tracksBetween_sketch, Schedule.flip?_sketch]
  rfl

/-- Compiling a sketch is the same as sketching what is compiled. -/
theorem Document.compile_sketch (d : Document α) :
    d.sketch.compile tempo = (d.compile tempo).sketch := by
  have hphases := compileFrom_map (·.sketch) (·.sketch) id (fun _ _ _ => rfl)
    (Transition.between_sketch tempo) (fun _ => rfl) 0 none d.phases
  rw [List.map_id] at hphases
  exact congrArg (fun compiled => CompiledPlay.mk compiled.1 compiled.2 tempo.speed.value) hphases

/-- A frame does not show what an action is, unless it passes the ball. -/
theorem Transition.frameAt_sketch (t : Transition α) (time : α) :
    t.sketch.frameAt time = t.frameAt time := by
  have hmoves : KeepsMoves (·.sketch : ScheduledAction α → ScheduledAction α) :=
    ⟨fun _ => rfl, fun _ => rfl, fun _ => rfl, fun _ => rfl⟩
  have hmapped : t.sketch.schedule.actions = t.schedule.actions.map (·.sketch) := rfl
  have hposition : ∀ track : Track α,
      track.positionAt t.sketch.schedule (t.instant time) =
        track.positionAt t.schedule (t.instant time) := fun track =>
    track.positionAt_of_map hmapped rfl hmoves (t.instant time)
  have hinstant : t.sketch.instant time = t.instant time := rfl
  simp only [frameAt, hinstant, hposition]
  rfl

namespace Document

variable {d d' : Document α} (hd : d.IsSound)

include hd

/-- What is warned about does not pass the ball. -/
theorem IsSound.warned_ne_flip {i : ℕ} {t : Transition α} {p : Phase α} {flip : Flip α}
    (ht : (d.compile tempo).transitions[i]? = some t) (hp : d.phases[i]? = some p)
    (hflip : t.flip? = some flip) {w : Warning} (hw : (p, w) ∈ d.warnings) :
    w.action ≠ flip.action := by
  obtain ⟨departing, arriving, hdeparting, -, rfl⟩ := exists_between_of_transition ht
  obtain rfl := Option.some.inj (hp.symm.trans hdeparting)
  obtain ⟨k, a, s, hfirst, hid, -, -⟩ := Schedule.flip?_eq_some_iff.mp hflip
  intro hwarned
  have hlacks := hd.lacksReceiver
    ⟨List.mem_of_getElem? hfirst.listed, w, hw, hwarned.trans hid⟩
  cases hfirst.passes.symm.trans (Action.possessionChange?_of_lacksReceiver hlacks)

theorem MutedAs.compile_sketch_eq (h : d.MutedAs d') :
    (d'.compile tempo).sketch = (d.compile tempo).sketch := by
  rw [← compile_sketch, ← compile_sketch, h.sketch_eq hd]

theorem MutedAs.transition_sketch_eq (h : d.MutedAs d') {i : ℕ} {t t' : Transition α}
    (ht : (d.compile tempo).transitions[i]? = some t)
    (ht' : (d'.compile tempo).transitions[i]? = some t') : t'.sketch = t.sketch := by
  have htransitions := congrArg CompiledPlay.transitions (h.compile_sketch_eq tempo hd)
  have hsame := congrArg (·[i]?) htransitions
  simp only [CompiledPlay.sketch, List.getElem?_map, ht, ht', Option.map_some] at hsame
  exact Option.some.inj hsame

omit hd

/-- Warnings are true.  A sound document warns about every action that is a pass or a handoff of somebody to
nobody, about each once, in their order, and about no other.  What it warns about never is what passes the
ball.  And if some of the actions that it warns about are made actions of other kinds, which do not pass the
ball, then the same object has the ball at the start of every phase, the ball is passed at the same times
between the same objects, all actions take place at the same times, and all frames are the same. -/
theorem warnings_inert {d : Document α} (hd : d.IsSound) :
    (∀ p ∈ d.phases, ∀ a ∈ p.actions,
      (d.warnings.filter fun (q, w) => q.id = p.id ∧ w.action = a.id) =
        if (a.kind = .pass ∨ a.kind = .handoff) ∧ a.performer ≠ none ∧ a.receiver = none then
          [(p, ⟨a.id, a.kind⟩)] else []) ∧
    (d.warnings.map fun (p, w) => (p.id, w.action)).Sublist
      (d.placedActions.map fun (p, a) => (p.id, a.id)) ∧
    ∀ tempo : Tempo α,
      (∀ (i : ℕ) t p flip, (d.compile tempo).transitions[i]? = some t → d.phases[i]? = some p →
        t.flip? = some flip → ∀ w, (p, w) ∈ d.warnings → w.action ≠ flip.action) ∧
      ∀ d', d.MutedAs d' →
        (d'.compile tempo).startOwners = (d.compile tempo).startOwners ∧
        (d'.compile tempo).transitions.length = (d.compile tempo).transitions.length ∧
        ∀ (i : ℕ) t t', (d.compile tempo).transitions[i]? = some t →
          (d'.compile tempo).transitions[i]? = some t' →
          t'.flip? = t.flip? ∧ t'.schedule.totalMs = t.schedule.totalMs ∧
          t'.schedule.windows = t.schedule.windows ∧
          ∀ time, t'.frameAt time = t.frameAt time := by
  refine ⟨fun p hp a ha => ?_, d.warnings_sublist, fun tempo => ⟨?_, fun d' h => ⟨?_, ?_, ?_⟩⟩⟩
  · have honce := hd.filter_warnings hp ha
    simp only [Action.lacksReceiver_iff] at honce
    exact honce
  · exact fun i t p flip ht hp hflip w hw => hd.warned_ne_flip tempo ht hp hflip hw
  · have howners := congrArg CompiledPlay.startOwners (h.compile_sketch_eq tempo hd)
    exact howners
  · have hlength := congrArg (·.transitions.length) (h.compile_sketch_eq tempo hd)
    simpa only [CompiledPlay.sketch, List.length_map] using hlength
  · intro i t t' ht ht'
    have hsame := h.transition_sketch_eq tempo hd ht ht'
    have hflip := congrArg Transition.flip? hsame
    have htotal := congrArg (·.schedule.totalMs) hsame
    refine ⟨hflip, htotal, ?_, fun time => ?_⟩
    · rw [← t'.windows_sketch, hsame, t.windows_sketch]
    · rw [← t'.frameAt_sketch, hsame, t.frameAt_sketch]

/-- A pass to nobody that is made a shot, while the ball is handed on. -/
theorem warnings_inert_shot :
    let player (name : String) (position : Point ℚ) : CourtObject ℚ :=
      .new ⟨name⟩ .offensePlayer position
    let action (kind : ActionKind) : Action ℚ :=
      ((Action.freehand ⟨"a1"⟩ kind ⟨0, 0⟩ ⟨80, 0⟩).performedBy ⟨"o1"⟩).triggered .withPrevious
    let handoff : Action ℚ :=
      { action .handoff with id := ⟨"a2"⟩, receiver := some ⟨"o2"⟩ }
    let phase (name : String) (actions : List (Action ℚ)) : Phase ℚ :=
      { id := ⟨name⟩, name, objects := [player "o1" ⟨0, 0⟩, player "o2" ⟨80, 80⟩], actions
        ballOwner := .inherit }
    let first : Phase ℚ := phase "p1" [action .pass, handoff]
    let play : Document ℚ := .new .half [first, phase "p2" []]
    let muted : Document ℚ := .new .half [phase "p1" [action .shot, handoff], phase "p2" []]
    let tempo : Tempo ℚ := ⟨{}, 2, rfl, by decide⟩
    play.IsSound ∧ play.MutedAs muted ∧
      (play.warnings.filter fun (q, w) => q.id = first.id ∧ w.action = ⟨"a1"⟩) =
        [(first, ⟨⟨"a1"⟩, .pass⟩)] ∧
      ∃ t t' : Transition ℚ, (play.compile tempo).transitions[0]? = some t ∧
        (muted.compile tempo).transitions[0]? = some t' ∧ t' ≠ t ∧
        t.flip? = some ⟨⟨"a2"⟩, ⟨"o1"⟩, ⟨"o2"⟩, 400⟩ ∧ t'.flip? = t.flip? ∧
        t'.frameAt 100 = t.frameAt 100 := by
  intro player action handoff phase first play muted tempo
  have hsound : play.IsSound := by decide
  have hwarned : play.WarnsAbout first (action .pass) :=
    ⟨List.mem_cons_self, ⟨⟨"a1"⟩, .pass⟩, List.mem_cons_self, rfl⟩
  have hactions : List.Forall₂ (Action.MutedAs (play.WarnsAbout first))
      [action .pass, handoff] [action .shot, handoff] :=
    .cons (Or.inr ⟨hwarned, .shot, rfl, rfl⟩) (.cons (Or.inl rfl) .nil)
  have hmuted : play.MutedAs muted :=
    ⟨rfl, rfl, .cons ⟨rfl, rfl, rfl, rfl, hactions⟩ (.cons ⟨rfl, rfl, rfl, rfl, .nil⟩ .nil)⟩
  obtain ⟨honce, -, hplays⟩ := warnings_inert hsound
  obtain ⟨-, -, hsame⟩ := (hplays tempo).2 muted hmuted
  obtain ⟨hflip, -, -, hframe⟩ := hsame 0 _ _ rfl rfl
  refine ⟨hsound, hmuted, honce first List.mem_cons_self (action .pass) List.mem_cons_self, _, _, rfl,
    rfl, ?_, ?_, hflip, hframe 100⟩
  · decide +kernel
  · decide +kernel

end Document

end PlayDiagram
