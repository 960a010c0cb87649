import PlayDiagram.Proofs.Number.DoubleSum
import PlayDiagram.Proofs.Play.EditHistory
import PlayDiagram.Proofs.Playback.Placement
import PlayDiagram.Proofs.Playback.Roots

/-!
# Where an object comes to rest

Of an object that performs several actions, the list has a last one, and the clock has one.  The phase
that is added after the last one goes by the list, and so does the track of an object that leaves the
play; frames go by the clock.  Where the two disagree, a frame shows the object on its way to the one
target, and the next frame shows it at the other (`comesToRestAt_iff`).  This is so in doubles as in exact
numbers.
-/

namespace PlayDiagram

/-! ## One track for an object -/

section Tracks

variable {α : Type} {departing arriving : Phase α} {s : Schedule α} {o : CourtObject α}
  {track : Track α}

/-- An object of the departing phase has one track only. -/
theorem mem_tracksBetween_iff (hdeparting : departing.WellFormed) (ho : o ∈ departing.objects) :
    track ∈ tracksBetween departing arriving s ∧ track.object = o.id ↔
      track = departingTrack arriving s o := by
  rw [tracksBetween_eq hdeparting, List.mem_append, List.mem_map]
  constructor
  · rintro ⟨⟨other, hother, rfl⟩ | htrack, hid⟩
    · rw [List.inj_on_of_nodup_map hdeparting.objects_nodup hother ho hid]
    · obtain ⟨other, -, habsent, rfl⟩ := mem_arrivingTracks.mp htrack
      have hpresent : departing.containsObject o.id = true :=
        Phase.containsObject_iff.mpr (List.mem_map_of_mem ho)
      rw [← hid, habsent] at hpresent
      cases hpresent
  · rintro rfl
    exact ⟨Or.inl ⟨o, ho, rfl⟩, rfl⟩

end Tracks

namespace Phase

section LastListed

variable {α : Type} {p : Phase α} {id : ObjectId}

theorem lastActionOf?_eq_some_iff {a : Action α} :
    p.lastActionOf? id = some a ↔ ∃ k, IsLast p.actions (fun a => a.performer = some id) k a := by
  unfold lastActionOf?
  rw [find?_reverse_eq_some_iff]
  simp only [decide_eq_true_iff]

variable [Scalar α]

/-- The entry of an object that is listed last. -/
abbrev IsListedLast (tempo : Tempo α) (p : Phase α) (id : ObjectId) (j : ℕ) (s : ScheduledAction α) :
    Prop :=
  IsLast (Schedule.ofActions tempo p.actions).actions (fun a => a.performer = some id) j s

/-- The entry of an object that ends last; of several that end together, the one listed last. -/
abbrev FinishesLast (tempo : Tempo α) (p : Phase α) (id : ObjectId) (k : ℕ) (s : ScheduledAction α) :
    Prop :=
  IsLatest (Schedule.ofActions tempo p.actions).actions (fun a => a.performer = some id) k s

/-- An object comes to rest at a point: the phase that follows records it there, as near as the court
allows, and on the way to a phase without it, its track leads there. -/
def ComesToRestAt (tempo : Tempo α) (p : Phase α) (id : ObjectId) (point : Point α) : Prop :=
  (∀ next name, ((p.nextSnapshot next name).object? id).map (·.position) = some point.clamped) ∧
    ∀ index arriving owner, arriving.containsObject id = false →
      ∃ track ∈ (Transition.between tempo index p arriving owner).tracks,
        track.object = id ∧ track.arriving = point

variable {tempo : Tempo α} {j : ℕ} {last : ScheduledAction α}

theorem exists_entry_of_performer (tempo : Tempo α)
    (hbusy : ∃ a ∈ p.actions, a.performer = some id) :
    ∃ s ∈ (Schedule.ofActions tempo p.actions).actions, s.performer = some id := by
  obtain ⟨a, ha, hperformer⟩ := hbusy
  obtain ⟨k, hk⟩ := List.mem_iff_getElem?.mp ha
  obtain ⟨s, hs, hdepicts⟩ := Schedule.exists_entry_of_action tempo hk
  exact ⟨s, List.mem_of_getElem? hs, hdepicts.performer.trans hperformer⟩

theorem exists_isListedLast (tempo : Tempo α) (hbusy : ∃ a ∈ p.actions, a.performer = some id) :
    ∃ j last, p.IsListedLast tempo id j last := by
  obtain ⟨s, hs, hperformer⟩ := exists_entry_of_performer tempo hbusy
  obtain ⟨k, hk⟩ := List.mem_iff_getElem?.mp hs
  have hentries : (Schedule.ofActions tempo p.actions).entriesOf id ≠ [] :=
    List.ne_nil_of_mem (Schedule.mem_entriesOf.mpr ⟨k, hk, hperformer⟩)
  obtain ⟨j, hj⟩ := Schedule.getLast?_entriesOf.mp (List.getLast?_eq_some_getLast hentries)
  exact ⟨j, _, hj⟩

/-- The entry listed last depicts the action listed last. -/
theorem exists_isLast_of_isListedLast (hlast : p.IsListedLast tempo id j last) :
    ∃ a, IsLast p.actions (fun a => a.performer = some id) j a ∧ last.Depicts a := by
  obtain ⟨a, ha, hdepicts⟩ := Schedule.exists_action_of_entry hlast.listed
  refine ⟨a, ⟨ha, hdepicts.performer.symm.trans hlast.holds, ?_⟩, hdepicts⟩
  intro k b hb hperformer
  obtain ⟨s, hs, hdepicts'⟩ := Schedule.exists_entry_of_action tempo hb
  exact hlast.upTo k s hs (hdepicts'.performer.trans hperformer)

theorem exists_object_of_isListedLast (hlast : p.IsListedLast tempo id j last)
    (hp : p.WellFormed) : ∃ o ∈ p.objects, o.id = id := by
  obtain ⟨a, ha, -⟩ := exists_isLast_of_isListedLast hlast
  exact List.mem_map.mp (containsObject_iff.mp
    (hp.performer_mem a (List.mem_of_getElem? ha.listed) id ha.holds))

theorem departingTrack_arriving_of_isListedLast {arriving : Phase α} {o : CourtObject α}
    (hlast : p.IsListedLast tempo o.id j last)
    (habsent : arriving.containsObject o.id = false) :
    (departingTrack arriving (Schedule.ofActions tempo p.actions) o).arriving = last.target :=
  departingTrack_arriving_of_last (containsObject_eq_false_iff.mp habsent)
    (Schedule.getLast?_entriesOf.mpr ⟨j, hlast⟩)

/-- Both the phase that follows and the track go by the list. -/
theorem comesToRestAt_iff_of_isListedLast (hlast : p.IsListedLast tempo id j last)
    (hp : p.WellFormed) {point : Point α} :
    p.ComesToRestAt tempo id point ↔ point = last.target := by
  obtain ⟨o, hmem, rfl⟩ := exists_object_of_isListedLast hlast hp
  constructor
  · -- The phase that follows tells places off the court only up to its edge; the track tells them all.
    rintro ⟨-, htracks⟩
    obtain ⟨track, htrack, hobject, rfl⟩ := htracks 0 (Phase.empty ⟨""⟩ "") none rfl
    obtain rfl := (mem_tracksBetween_iff hp hmem).mp ⟨htrack, hobject⟩
    exact departingTrack_arriving_of_isListedLast hlast rfl
  · rintro rfl
    constructor
    · intro next name
      obtain ⟨a, ha, hdepicts⟩ := exists_isLast_of_isListedLast hlast
      rw [hp.nextSnapshot_object? hmem, hdepicts.target, Option.map_some, nextPosition,
        lastActionOf?_eq_some_iff.mpr ⟨j, ha⟩]
    · intro index arriving owner habsent
      obtain ⟨htrack, hobject⟩ := (mem_tracksBetween_iff hp hmem).mpr
        (Eq.refl (departingTrack arriving (Schedule.ofActions tempo p.actions) o))
      exact ⟨_, htrack, hobject, departingTrack_arriving_of_isListedLast hlast habsent⟩

end LastListed

/-! ## The entry that ends last -/

variable {α : Type} [Scalar α] [LawfulScalar α] {tempo : Tempo α} {p : Phase α} {id : ObjectId}
  {k j : ℕ} {s last : ScheduledAction α}

theorem exists_finishesLast (tempo : Tempo α) (hbusy : ∃ a ∈ p.actions, a.performer = some id) :
    ∃ k s, p.FinishesLast tempo id k s := by
  refine exists_isLatest (fun s hs => ?_) (exists_entry_of_performer tempo hbusy)
  obtain ⟨-, hlasts, -⟩ := Schedule.ofActions_window hs
  exact (LawfulScalar.isNaN_of_le hlasts).2

/-- An entry that comes after the previous ones ends no earlier than they do. -/
theorem index_eq_of_afterPrevious (hs : p.FinishesLast tempo id k s)
    (hlast : p.IsListedLast tempo id j last) (hafter : last.trigger = .afterPrevious) : k = j := by
  have hle : k ≤ j := hlast.upTo k s hs.listed hs.holds
  rcases hle.lt_or_eq with hkj | heq
  · -- If it were listed before, it would have ended when the last one starts.
    have hearlier : s.endMs ≤ last.endMs :=
      LawfulScalar.le_trans
        (Schedule.ofActions_endMs_le_startMs tempo hs.listed hlast.listed hkj hafter)
        (Schedule.ofActions_window (List.mem_of_getElem? hlast.listed)).2.1
    rcases hs.upTo j last hlast.listed hlast.holds with hlt | ⟨-, hjk⟩
    · exact absurd hlt (LawfulScalar.not_lt_of_le hearlier)
    · exact absurd hjk hkj.not_ge
  · exact heq

/-! ## Frames around the last end -/

/-- Of finitely many times, those before a given one are bounded away from it. -/
theorem exists_bound_of_lt (times : List α) {lowMs endMs : α} (hlow : lowMs < endMs) :
    ∃ boundMs < endMs, lowMs ≤ boundMs ∧ ∀ t ∈ times, t < endMs → t ≤ boundMs := by
  induction times with
  | nil =>
      obtain ⟨hnumber, -⟩ := LawfulScalar.isNaN_of_le (LawfulScalar.le_of_lt hlow)
      exact ⟨lowMs, hlow, LawfulScalar.le_refl hnumber, fun t ht => absurd ht List.not_mem_nil⟩
  | cons x rest ih =>
      obtain ⟨boundMs, hbound, hle, hrest⟩ := ih
      by_cases hx : x < endMs ∧ boundMs < x
      · obtain ⟨hend, hgreater⟩ := hx
        obtain ⟨-, hnumber⟩ := LawfulScalar.isNaN_of_le (LawfulScalar.le_of_lt hgreater)
        refine ⟨x, hend, LawfulScalar.le_trans hle (LawfulScalar.le_of_lt hgreater), ?_⟩
        intro t ht hlt
        rcases List.mem_cons.mp ht with rfl | ht
        · exact LawfulScalar.le_refl hnumber
        · exact LawfulScalar.le_trans (hrest t ht hlt) (LawfulScalar.le_of_lt hgreater)
      · refine ⟨boundMs, hbound, hle, ?_⟩
        intro t ht hlt
        rcases List.mem_cons.mp ht with rfl | ht
        · obtain ⟨hnumber, -⟩ := LawfulScalar.isNaN_of_le (LawfulScalar.le_of_lt hlt)
          obtain ⟨-, hnumber'⟩ := LawfulScalar.isNaN_of_le hle
          exact (LawfulScalar.not_lt hnumber' hnumber).mp fun hgreater => hx ⟨hlt, hgreater⟩
        · exact hrest t ht hlt

/-- Shortly before the last end only the entry that ends last, and ones listed before it, are under
way. -/
theorem exists_isLast_contains (hs : p.FinishesLast tempo id k s) (hlength : s.startMs < s.endMs) :
    ∃ t₀ < s.endMs, s.startMs ≤ t₀ ∧ ∀ t, t₀ < t → t < s.endMs →
      IsLast (Schedule.ofActions tempo p.actions).actions
        (fun a => a.performer = some id ∧ a.contains t = true) k s := by
  obtain ⟨t₀, ht₀, hstart, hbound⟩ := exists_bound_of_lt
    ((Schedule.ofActions tempo p.actions).actions.map (·.endMs)) hlength
  refine ⟨t₀, ht₀, hstart, fun t ht hend => ⟨hs.listed, ⟨hs.holds, ?_⟩, ?_⟩⟩
  · unfold ScheduledAction.contains
    rw [Bool.and_eq_true, decide_eq_true_iff, decide_eq_true_iff]
    exact ⟨LawfulScalar.le_trans hstart (LawfulScalar.le_of_lt ht), LawfulScalar.le_of_lt hend⟩
  · rintro k' s' hs' ⟨hperformer, hcontains⟩
    rcases hs.upTo k' s' hs' hperformer with hlt | ⟨-, hle⟩
    · -- An entry that ends earlier has ended by then.
      have hended := hbound s'.endMs (List.mem_map_of_mem (List.mem_of_getElem? hs')) hlt
      unfold ScheduledAction.contains at hcontains
      rw [Bool.and_eq_true, decide_eq_true_iff, decide_eq_true_iff] at hcontains
      exact absurd ht (LawfulScalar.not_lt_of_le (LawfulScalar.le_trans hcontains.2 hended))
    · exact hle

/-- On the way to a phase without the object, it is shown on the path of the entry that ends last until
that is over, and then at the end of the path listed last. -/
theorem frameAt_position?_of_finishesLast (hp : p.WellFormed) (hs : p.FinishesLast tempo id k s)
    (hlast : p.IsListedLast tempo id j last) (hlength : s.startMs < s.endMs) {arriving : Phase α}
    (harriving : arriving.WellFormed) (habsent : arriving.containsObject id = false) (index : ℕ)
    (owner : Option ObjectId) :
    (∃ t₀ < s.endMs, ∀ t, t₀ < t → t < s.endMs →
      ((Transition.between tempo index p arriving owner).frameAt t).position? id =
        some (s.positionAt t)) ∧
      ∀ t, s.endMs ≤ t →
        ((Transition.between tempo index p arriving owner).frameAt t).position? id =
          some last.target := by
  obtain ⟨o, hmem, rfl⟩ := exists_object_of_isListedLast hlast hp
  have hshown (t : α) := Transition.frameAt_position?_departing hp harriving
    (Eq.refl (Transition.between tempo index p arriving owner)) t hmem
  have hentry : s ∈ (Schedule.ofActions tempo p.actions).entriesOf o.id :=
    Schedule.mem_entriesOf.mpr ⟨k, hs.listed, hs.holds⟩
  obtain ⟨hstart, hlasts, hend⟩ := Schedule.ofActions_window (List.mem_of_getElem? hs.listed)
  constructor
  · obtain ⟨t₀, ht₀, hafter, hcontains⟩ := exists_isLast_contains hs hlength
    refine ⟨t₀, ht₀, fun t ht hbefore => ?_⟩
    have hstarted : s.startMs < t := LawfulScalar.lt_of_le_of_lt hafter ht
    have hinstant : (Transition.between tempo index p arriving owner).instant t = t :=
      Transition.instant_of_between
        (LawfulScalar.le_trans hstart (LawfulScalar.le_of_lt hstarted))
        (LawfulScalar.le_trans (LawfulScalar.le_of_lt hbefore) hend)
    rw [hshown, hinstant]
    exact congrArg some (Track.positionAt_moves rfl ⟨s, hentry, hstarted⟩ ⟨s, hentry, hbefore⟩
      (Schedule.find?_entriesOf.mpr ⟨k, hcontains t ht hbefore⟩))
  · intro t ht
    have htotal := Transition.between_totalMs_nonneg tempo index p arriving owner
    have hinstant : s.endMs ≤ (Transition.between tempo index p arriving owner).instant t := by
      have hmono := Transition.instant_mono htotal ht
      rwa [Transition.instant_of_between (LawfulScalar.le_trans hstart hlasts) hend] at hmono
    have hover : ∀ a ∈ (Schedule.ofActions tempo p.actions).entriesOf o.id,
        ¬(Transition.between tempo index p arriving owner).instant t < a.endMs := by
      intro a ha
      obtain ⟨k', hk', hperformer⟩ := Schedule.mem_entriesOf.mp ha
      exact LawfulScalar.not_lt_of_le
        (LawfulScalar.le_trans (hs.upTo k' a hk' hperformer).endMs_le hinstant)
    rw [hshown, ← departingTrack_arriving_of_isListedLast hlast habsent]
    exact congrArg some (Track.positionAt_arrives rfl
      ⟨s, hentry, LawfulScalar.lt_of_lt_of_le hlength hinstant⟩ hover)

/-- In exact numbers a floor under the durations gives every entry a length, and up to the last end the
object is as far along that path as the time is into the entry. -/
theorem frameAt_position?_of_finishesLast_exact {tempo : Tempo ℚ} {p : Phase ℚ}
    {s last : ScheduledAction ℚ} (hfloor : 1 ≤ tempo.config.floorMs) (hp : p.WellFormed)
    (hs : p.FinishesLast tempo id k s) (hlast : p.IsListedLast tempo id j last) {arriving : Phase ℚ}
    (harriving : arriving.WellFormed) (habsent : arriving.containsObject id = false) (index : ℕ)
    (owner : Option ObjectId) :
    (∃ t₀ < s.endMs, ∀ t, t₀ < t → t < s.endMs →
      ((Transition.between tempo index p arriving owner).frameAt t).position? id =
        some (s.origin.partWay s.target ((t - s.startMs) / (s.endMs - s.startMs)))) ∧
      ∀ t, s.endMs ≤ t →
        ((Transition.between tempo index p arriving owner).frameAt t).position? id =
          some last.target := by
  have hlength := Schedule.ofActions_lasts hfloor p.actions (List.mem_of_getElem? hs.listed)
  obtain ⟨⟨t₀, ht₀, hmoves⟩, harrives⟩ :=
    frameAt_position?_of_finishesLast hp hs hlast hlength harriving habsent index owner
  refine ⟨⟨max t₀ s.startMs, max_lt ht₀ hlength, fun t ht hend => ?_⟩, harrives⟩
  obtain ⟨hlater, hstart⟩ := max_lt_iff.mp ht
  have hcovers : s.move.Covers t := ⟨hstart.le, hend.le⟩
  rw [hmoves t hlater hend, ScheduledAction.positionAt_eq hcovers, Move.pointAt, if_neg]
  · rfl
  · exact hlength.ne

/-- An object that performs actions comes to rest where the one listed last takes it, and so at the
target of the one that ends last only if the two agree.  They do if the action listed last comes after
the previous ones.  Otherwise, on the way to a phase without the object, it may be thrown: up to the
last end it is on the way to the one target, from then on it is at the other
(`frameAt_position?_of_finishesLast_exact` has the path in exact numbers). -/
theorem comesToRestAt_iff (tempo : Tempo α) (hp : p.WellFormed)
    (hbusy : ∃ a ∈ p.actions, a.performer = some id) :
    (∃ k s, p.FinishesLast tempo id k s) ∧
    (∃ j last, p.IsListedLast tempo id j last) ∧
    ∀ k s j last, p.FinishesLast tempo id k s → p.IsListedLast tempo id j last →
      (∀ point, p.ComesToRestAt tempo id point ↔ point = last.target) ∧
      (last.trigger = .afterPrevious → k = j ∧ s = last) ∧
      (s.startMs < s.endMs → ∀ index arriving owner, arriving.WellFormed →
        arriving.containsObject id = false →
        (∃ t₀ < s.endMs, ∀ t, t₀ < t → t < s.endMs →
          ((Transition.between tempo index p arriving owner).frameAt t).position? id =
            some (s.positionAt t)) ∧
        ∀ t, s.endMs ≤ t →
          ((Transition.between tempo index p arriving owner).frameAt t).position? id =
            some last.target) := by
  refine ⟨exists_finishesLast tempo hbusy, exists_isListedLast tempo hbusy, ?_⟩
  intro k s j last hs hlast
  refine ⟨fun point => comesToRestAt_iff_of_isListedLast hlast hp, ?_, ?_⟩
  · intro hafter
    obtain rfl := index_eq_of_afterPrevious hs hlast hafter
    exact ⟨rfl, Option.some.inj (hs.listed.symm.trans hlast.listed)⟩
  · intro hlength index arriving owner harriving habsent
    exact frameAt_position?_of_finishesLast hp hs hlast hlength harriving habsent index owner

/-- A screen set in the course of a long cut: the player is at its target when the cut is over. -/
theorem comesToRestAt_iff_screen :
    let move (name : String) (kind : ActionKind) (target : Point Float) (ms : UInt32) : Action Float :=
      ((Action.freehand ⟨name⟩ kind ⟨500, 700⟩ target).performedBy ⟨"o1"⟩).lasting ms
    let p : Phase Float :=
      { id := ⟨"p1"⟩, name := "Screen", objects := [.new ⟨"o1"⟩ .offensePlayer ⟨500, 700⟩]
        actions := [move "a1" .cut ⟨300, 200⟩ 1000,
          (move "a2" .screen ⟨600, 650⟩ 500).triggered .withPrevious]
        ballOwner := .inherit }
    let tempo : Tempo Float := ⟨{}, SpeedPreset.double.speed⟩
    let cut : ScheduledAction Float :=
      { id := ⟨"a1"⟩, kind := .cut, trigger := .afterPrevious, performer := some ⟨"o1"⟩
        receiver := none, origin := ⟨500, 700⟩, target := ⟨300, 200⟩, startMs := 0, endMs := 500 }
    let leaves := Transition.between tempo 0 p (Phase.empty ⟨"p2"⟩ "Phase 2") none
    p.WellFormed ∧ p.FinishesLast tempo ⟨"o1"⟩ 0 cut ∧ p.ComesToRestAt tempo ⟨"o1"⟩ ⟨600, 650⟩ ∧
      (∃ t₀ < 500, ∀ t, t₀ < t → t < 500 →
        (leaves.frameAt t).position? ⟨"o1"⟩ = some (cut.positionAt t)) ∧
      ∀ t, 500 ≤ t → (leaves.frameAt t).position? ⟨"o1"⟩ = some ⟨600, 650⟩ := by
  intro move p tempo cut leaves
  have hp : p.WellFormed := (defect?_eq_none_iff p).mp (by decide)
  have hlongest : p.FinishesLast tempo ⟨"o1"⟩ 0 cut := by decide +kernel
  have hlisted : p.IsListedLast tempo ⟨"o1"⟩ 1
      { cut with id := ⟨"a2"⟩, kind := .screen, trigger := .withPrevious, target := ⟨600, 650⟩
                 endMs := 250 } := by
    decide +kernel
  obtain ⟨-, -, hrest⟩ := comesToRestAt_iff tempo hp ⟨_, List.mem_cons_self, rfl⟩
  obtain ⟨hplace, -, hframes⟩ := hrest _ _ _ _ hlongest hlisted
  obtain ⟨hbefore, hafter⟩ := hframes (by decide +kernel) 0 (Phase.empty ⟨"p2"⟩ "Phase 2") none
    ((defect?_eq_none_iff _).mp rfl) rfl
  exact ⟨hp, hlongest, (hplace _).mpr rfl, hbefore, hafter⟩

/-- An object need not come to rest at the target of the action that ends last, in neither place: two
cuts start together, and the shorter one is listed last. -/
theorem not_comesToRestAt_finishesLast :
    let cut (name : String) (target : Point Float) (ms : UInt32) : Action Float :=
      ((Action.freehand ⟨name⟩ .cut ⟨500, 700⟩ target).performedBy ⟨"P1"⟩).lasting ms
    let p : Phase Float :=
      { id := ⟨"p1"⟩, name := "Cuts", objects := [.new ⟨"P1"⟩ .offensePlayer ⟨500, 700⟩]
        actions := [cut "a1" ⟨300, 200⟩ 1000,
          (cut "a2" ⟨600, 650⟩ 500).triggered .withPrevious]
        ballOwner := .inherit }
    let tempo : Tempo Float := ⟨{}, SpeedPreset.normal.speed⟩
    let longest : ScheduledAction Float :=
      { id := ⟨"a1"⟩, kind := .cut, trigger := .afterPrevious, performer := some ⟨"P1"⟩
        receiver := none, origin := ⟨500, 700⟩, target := ⟨300, 200⟩, startMs := 0, endMs := 1000 }
    p.WellFormed ∧ 1 ≤ tempo.config.floorMs ∧ p.FinishesLast tempo ⟨"P1"⟩ 0 longest ∧
      ((p.nextSnapshot ⟨"p2"⟩ "Phase 2").object? ⟨"P1"⟩).map (·.position) ≠
        some longest.target.clamped ∧
      (∀ track ∈ (Transition.between tempo 0 p (Phase.empty ⟨"p2"⟩ "Phase 2") none).tracks,
        track.object = ⟨"P1"⟩ → track.arriving ≠ longest.target) ∧
      ¬p.ComesToRestAt tempo ⟨"P1"⟩ longest.target := by
  intro cut p tempo longest
  have hsnapshot : ((p.nextSnapshot ⟨"p2"⟩ "Phase 2").object? ⟨"P1"⟩).map (·.position) ≠
      some longest.target.clamped := by
    decide +kernel
  refine ⟨(defect?_eq_none_iff p).mp (by decide), by decide, by decide +kernel, hsnapshot,
    by decide +kernel, ?_⟩
  rintro ⟨hrecorded, -⟩
  exact hsnapshot (hrecorded ⟨"p2"⟩ "Phase 2")

end Phase

end PlayDiagram
