import PlayDiagram.Proofs.Playback.LookBack
import PlayDiagram.Proofs.Playback.Tracks

/-!
# Where the owner of the ball comes from

The names in a phase are those of its own objects, but the owner of the ball is carried from phase to
phase.  Whoever has the ball was recorded in a phase since which every phase has inherited its owner
(`RecordedSince`).  Where objects never leave, the owner of the ball can therefore be seen in every
frame (`ballOwner_recorded`).
-/

namespace PlayDiagram

variable {α : Type}

namespace Phase

/-- Who has the ball when a sound phase starts is one of its objects, or is inherited. -/
theorem WellFormed.startOwner_cases {p : Phase α} (hp : p.WellFormed) {n : ℕ}
    {carried : Option ObjectId} {id : ObjectId} (howner : p.startOwner n carried = some id) :
    p.containsObject id = true ∨ p.ballOwner = .inherit ∧ carried = some id := by
  cases hball : p.ballOwner with
  | owner other =>
      simp only [startOwner, hball, Option.some.injEq] at howner
      exact Or.inl (hp.owner_mem id (howner ▸ hball))
  | nobody => simp [startOwner, hball] at howner
  | inherit =>
      simp only [startOwner, hball] at howner
      by_cases hn : n = 0
      · rw [if_pos hn, Option.map_eq_some_iff] at howner
        obtain ⟨player, hplayer, rfl⟩ := howner
        exact Or.inl (containsObject_iff.mpr
          (List.mem_map_of_mem (List.mem_of_find?_eq_some hplayer)))
      · rw [if_neg hn] at howner
        exact Or.inr ⟨rfl, howner⟩

theorem WellFormed.contains_of_handOver? {p : Phase α} (hp : p.WellFormed) {id : ObjectId}
    (hid : p.handOver? = some id) : p.containsObject id = true := by
  obtain ⟨⟨giver, receiver⟩, hchange, rfl⟩ := Option.map_eq_some_iff.mp hid
  obtain ⟨a, ha, hpass⟩ := List.exists_of_findSome?_eq_some hchange
  exact hp.receiver_mem a ha receiver (Action.possessionChange?_eq_some_iff.mp hpass).2.2

end Phase

namespace Document

/-- The object is recorded in a phase up to the one at an index, and the phases after it up to there
inherit their owners. -/
def RecordedSince (d : Document α) (i : ℕ) (id : ObjectId) : Prop :=
  ∃ j p, j ≤ i ∧ d.phases[j]? = some p ∧ p.containsObject id = true ∧
    ∀ m q, j < m → m ≤ i → d.phases[m]? = some q → q.ballOwner = .inherit

/-- No phase lacks an object of the phase before it. -/
def KeepsObjects (d : Document α) : Prop :=
  ∀ i p q, d.phases[i]? = some p → d.phases[i + 1]? = some q →
    ∀ id, p.containsObject id = true → q.containsObject id = true

variable {d : Document α} {i : ℕ} {p q : Phase α} {id : ObjectId}

theorem exists_phase_before (hq : d.phases[i + 1]? = some q) : ∃ p, d.phases[i]? = some p :=
  ⟨_, List.getElem?_eq_getElem (Nat.lt_of_succ_lt (List.getElem?_eq_some_iff.mp hq).1)⟩

theorem recordedSince_self (hp : d.phases[i]? = some p) (hid : p.containsObject id = true) :
    d.RecordedSince i id :=
  ⟨i, p, le_rfl, hp, hid, fun m _ him hmi => absurd him (by omega)⟩

theorem RecordedSince.succ (h : d.RecordedSince i id) (hq : d.phases[i + 1]? = some q)
    (hinherit : q.ballOwner = .inherit) : d.RecordedSince (i + 1) id := by
  obtain ⟨j, p, hji, hp, hid, hsince⟩ := h
  refine ⟨j, p, by omega, hp, hid, ?_⟩
  intro m r hjm hmi hr
  rcases Nat.le_succ_iff.mp hmi with hmi | rfl
  · exact hsince m r hjm hmi hr
  · rw [hq] at hr
    exact Option.some.inj hr ▸ hinherit

/-- Objects that never leave are still there when the ball gets to them. -/
theorem RecordedSince.contains_of_keepsObjects (h : d.RecordedSince i id) (hkeeps : d.KeepsObjects)
    (hp : d.phases[i]? = some p) : p.containsObject id = true := by
  obtain ⟨j, first, hji, hfirst, hid, -⟩ := h
  induction i, hji using Nat.le_induction generalizing p with
  | base =>
      rw [hfirst] at hp
      exact Option.some.inj hp ▸ hid
  | succ i _ ih =>
      obtain ⟨before, hbefore⟩ := exists_phase_before hp
      exact hkeeps i before p hbefore hp id (ih hbefore)

/-- Whoever has the ball at the end of a transition got it in the phase, or had it at the start. -/
theorem recordedSince_of_endOwner (hd : d.IsSound) (hp : d.phases[i]? = some p)
    {owner : Option ObjectId} (howner : ∀ id, owner = some id → d.RecordedSince i id)
    (hend : p.handOver?.or owner = some id) : d.RecordedSince i id := by
  rcases Option.or_eq_some_iff.mp hend with hpassed | ⟨-, hkept⟩
  · exact recordedSince_self hp ((hd.wellFormed hp).contains_of_handOver? hpassed)
  · exact howner id hkept

theorem recordedSince_of_ownerByLookBack (hd : d.IsSound) (hp : d.phases[i]? = some p)
    (howner : d.ownerByLookBack i = some id) : d.RecordedSince i id := by
  induction i generalizing p id with
  | zero =>
      rw [ownerByLookBack_zero hp] at howner
      rcases (hd.wellFormed hp).startOwner_cases howner with hid | ⟨-, hcarried⟩
      · exact recordedSince_self hp hid
      · exact absurd hcarried (Option.some_ne_none id).symm
  | succ i ih =>
      obtain ⟨before, hbefore⟩ := exists_phase_before hp
      rw [ownerByLookBack_succ hbefore hp] at howner
      rcases (hd.wellFormed hp).startOwner_cases howner with hid | ⟨hinherit, hcarried⟩
      · exact recordedSince_self hp hid
      · have hrecorded : d.RecordedSince i id :=
          recordedSince_of_endOwner hd hbefore (fun _ => ih hbefore) hcarried
        exact hrecorded.succ hp hinherit

end Document

variable [Scalar α]

/-- At every instant the ball is with its owner at the start or with its owner at the end. -/
theorem Transition.ballOwner_cases (t : Transition α) (time : α) :
    (t.frameAt time).ballOwner = t.startOwner ∨ (t.frameAt time).ballOwner = t.endOwner := by
  have howner : (t.frameAt time).ballOwner = ownerAt t.startOwner t.flip?.toList (t.instant time) :=
    rfl
  rw [howner, endOwner]
  cases t.flip? with
  | none => exact Or.inl rfl
  | some flip =>
      simp only [ownerAt, Option.toList_some, List.foldl_cons, List.foldl_nil, ownerAfter]
      split_ifs
      · exact Or.inr rfl
      · exact Or.inl rfl

namespace Document

/-- Whoever has the ball in a sound play, when a phase starts or in any frame, is recorded in a phase
since which every phase has inherited its owner; and if objects never leave, the frame shows them. -/
theorem ballOwner_recorded {d : Document α} (hd : d.IsSound) (tempo : Tempo α) :
    (∀ i id, (d.compile tempo).startOwners[i]? = some (some id) → d.RecordedSince i id) ∧
    ∀ i t, (d.compile tempo).transitions[i]? = some t →
      ∀ time id, (t.frameAt time).ballOwner = some id →
        d.RecordedSince i id ∧
        (d.KeepsObjects → id ∈ (t.frameAt time).positions.map Prod.fst) := by
  constructor
  · intro i id howner
    have hi := (List.getElem?_eq_some_iff.mp howner).1
    rw [compile_startOwners_length] at hi
    rw [compile_startOwner d tempo hi] at howner
    exact recordedSince_of_ownerByLookBack hd (List.getElem?_eq_getElem hi)
      (Option.some.inj howner)
  · intro i t ht time id howner
    obtain ⟨p, q, hp, hq, hbetween⟩ := exists_between_of_transition ht
    have hstart : ∀ id, d.ownerByLookBack i = some id → d.RecordedSince i id := fun _ =>
      recordedSince_of_ownerByLookBack hd hp
    have hrecorded : d.RecordedSince i id := by
      rcases t.ballOwner_cases time with hball | hball
      · rw [howner, hbetween] at hball
        exact hstart id hball.symm
      · rw [howner, hbetween, Transition.between_endOwner] at hball
        exact recordedSince_of_endOwner hd hp hstart hball.symm
    refine ⟨hrecorded, fun hkeeps => ?_⟩
    rw [Transition.mem_keys_frameAt (hd.wellFormed hp) hbetween time id]
    exact Or.inl (hrecorded.contains_of_keepsObjects hkeeps hp)

/-- The receiver of a pass still has the ball in the next transition, and is seen there. -/
theorem ballOwner_recorded_receiver :
    let player (name : String) : CourtObject Float := .new ⟨name⟩ .offensePlayer ⟨500, 500⟩
    let pass : Action Float :=
      ((Action.freehand ⟨"a1"⟩ .pass ⟨500, 500⟩ ⟨250, 0⟩).performedBy ⟨"o1"⟩).receivedBy ⟨"o2"⟩
    let first : Phase Float :=
      { id := ⟨"p1"⟩, name := "Pass", objects := [player "o1", player "o2"], actions := [pass]
        ballOwner := .owner ⟨"o1"⟩ }
    let second : Phase Float :=
      { id := ⟨"p2"⟩, name := "Screen", objects := [player "o3", player "o2", player "o1"]
        actions := [], ballOwner := .inherit }
    let play : Document Float := .new .half [first, second, { second with id := ⟨"p3"⟩ }]
    let tempo : Tempo Float := ⟨{}, SpeedPreset.half.speed⟩
    play.IsSound ∧ play.KeepsObjects ∧
      ∃ t, (play.compile tempo).transitions[1]? = some t ∧ ∀ time,
        (t.frameAt time).ballOwner = some ⟨"o2"⟩ ∧ play.RecordedSince 1 ⟨"o2"⟩ ∧
        ⟨"o2"⟩ ∈ (t.frameAt time).positions.map Prod.fst := by
  intro player pass first second play tempo
  have hsound : play.IsSound := by decide
  have hkeeps : play.KeepsObjects := by
    rintro (_ | _ | i) p q hp hq id hid
    · obtain rfl := Option.some.inj hp
      obtain rfl := Option.some.inj hq
      simp only [Phase.containsObject_iff, first, second, List.map_cons, List.map_nil, player,
        CourtObject.new, List.mem_cons] at hid ⊢
      tauto
    · obtain rfl := Option.some.inj hp
      obtain rfl := Option.some.inj hq
      exact hid
    · simp [play, Document.new] at hq
  refine ⟨hsound, hkeeps, _, rfl, fun time => ?_⟩
  obtain ⟨hrecorded, hseen⟩ := (ballOwner_recorded hsound tempo).2 1 _ rfl time ⟨"o2"⟩ rfl
  exact ⟨rfl, hrecorded, hseen hkeeps⟩

end Document

end PlayDiagram
