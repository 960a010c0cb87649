import Mathlib.Data.Set.Defs
import Mathlib.Tactic.Linarith
import PlayDiagram.Proofs.Number.FiniteExtendedRat
import PlayDiagram.Proofs.Playback.LookBack
import PlayDiagram.Proofs.Playback.ShownPosition

/-!
# Inside what is drawn

A track leads along straight ways between points that are drawn for its object.  So a set that holds
with any two points the way between them, and that holds the points drawn for an object, holds every
point where the object is shown (`Transition.frameAt_mem`).  The box around the drawn points is such a
set, whatever the time (`Document.frameAt_inBox`).
-/

namespace PlayDiagram

open ExtendedRat (finite)

section Ways

variable {α : Type} [Scalar α]

/-- The set holds with any two points every point on the way from the one to the other. -/
def HoldsWays (K : Set (Point α)) : Prop :=
  ∀ p ∈ K, ∀ q ∈ K, ∀ fraction : α, p.lerp q fraction ∈ K

/-- A fold that takes a value or keeps what it has ends with what it had, or with a value of the list. -/
theorem mem_of_foldl_eq_some {β : Type} {f : Option β → β → Option β}
    (hf : ∀ last? b, f last? b = some b ∨ f last? b = last?) {l : List β} {last? : Option β} {b : β}
    (h : l.foldl f last? = some b) : b ∈ l ∨ last? = some b := by
  induction l generalizing last? with
  | nil => exact Or.inr h
  | cons c rest ih =>
      rcases ih h with hmem | hlast
      · exact Or.inl (List.mem_cons_of_mem c hmem)
      · rcases hf last? c with htakes | hkeeps
        · obtain rfl := Option.some.inj (htakes.symm.trans hlast)
          exact Or.inl List.mem_cons_self
        · exact Or.inr (hkeeps.symm.trans hlast)

theorem mem_of_lastEnded? {actions : List (ScheduledAction α)} {t : α} {a : ScheduledAction α}
    (hlast : lastEnded? actions t = some a) : a ∈ actions := by
  unfold lastEnded? at hlast
  refine (mem_of_foldl_eq_some ?_ hlast).elim List.mem_of_mem_filter fun hnone => by cases hnone
  intro last? b
  cases last? with
  | none => exact Or.inl rfl
  | some last =>
      dsimp only
      split_ifs
      · exact Or.inl rfl
      · exact Or.inr rfl

/-- A track does not leave a set that holds its ends, those of its entries, and the ways between. -/
theorem Track.positionAt_mem {K : Set (Point α)} (hK : HoldsWays K) {track : Track α}
    {s : Schedule α} (hdeparting : track.departing ∈ K) (harriving : track.arriving ∈ K)
    (hentries : ∀ a ∈ track.entries s, a.origin ∈ K ∧ a.target ∈ K)
    (t : α) : track.positionAt s t ∈ K := by
  unfold positionAt
  generalize track.entries s = entries at hentries
  dsimp only
  split_ifs with hidle hdwell hwaiting hover
  · exact hdeparting
  · exact hK _ hdeparting _ harriving _
  · exact hdeparting
  · exact harriving
  · cases hactive : entries.reverse.find? (·.contains t) with
    | some active =>
        have hmem := List.mem_reverse.mp (List.mem_of_find?_eq_some hactive)
        exact hK _ (hentries active hmem).1 _ (hentries active hmem).2 _
    | none =>
        cases hended : lastEnded? entries t with
        | some ended => exact (hentries ended (mem_of_lastEnded? hended)).2
        | none => exact hdeparting

end Ways

/-! ## The points of an object -/

section Drawn

variable {α : Type}

/-- The points that are drawn for an object on the way from one phase to the next: where the two phases
record it, and the ends of the actions that it performs. -/
def ownPoints (departing arriving : Phase α) (id : ObjectId) : List (Point α) :=
  (departing.object? id).toList.map (·.position) ++ (arriving.object? id).toList.map (·.position) ++
    (departing.actions.filter fun a => a.performer = some id).flatMap fun a => [a.origin, a.target]

/-- Every recorded position, and both ends of every action, have the property. -/
def Document.DrawnAt (Q : Point α → Prop) (d : Document α) : Prop :=
  ∀ p ∈ d.phases, (∀ o ∈ p.objects, Q o.position) ∧ ∀ a ∈ p.actions, Q a.origin ∧ Q a.target

variable {departing arriving : Phase α} {id : ObjectId}

theorem mem_ownPoints_iff {q : Point α} :
    q ∈ ownPoints departing arriving id ↔
      (∃ o, departing.object? id = some o ∧ q = o.position) ∨
      (∃ o, arriving.object? id = some o ∧ q = o.position) ∨
      ∃ a ∈ departing.actions, a.performer = some id ∧ (q = a.origin ∨ q = a.target) := by
  simp only [ownPoints, List.mem_append, List.mem_map, Option.mem_toList, List.mem_flatMap,
    List.mem_filter, decide_eq_true_iff, List.mem_cons, List.not_mem_nil, or_false, or_assoc, and_assoc,
    eq_comm (a := q)]

/-- The points drawn for an object have the properties that all drawn points have. -/
theorem Document.DrawnAt.of_mem_ownPoints {d : Document α} {Q : Point α → Prop} (h : d.DrawnAt Q)
    (hdeparting : departing ∈ d.phases) (harriving : arriving ∈ d.phases) :
    ∀ q ∈ ownPoints departing arriving id, Q q := by
  intro q hq
  rcases mem_ownPoints_iff.mp hq with ⟨o, ho, rfl⟩ | ⟨o, ho, rfl⟩ | ⟨a, ha, -, rfl | rfl⟩
  · exact (h departing hdeparting).1 o (List.mem_of_find?_eq_some ho)
  · exact (h arriving harriving).1 o (List.mem_of_find?_eq_some ho)
  · exact ((h departing hdeparting).2 a ha).1
  · exact ((h departing hdeparting).2 a ha).2

variable [Scalar α] {tempo : Tempo α} {K : Set (Point α)}

/-- The entries of an object run between points drawn for it. -/
theorem entriesOf_ends (hown : ∀ q ∈ ownPoints departing arriving id, q ∈ K) :
    ∀ a ∈ (Schedule.ofActions tempo departing.actions).entriesOf id,
      a.origin ∈ K ∧ a.target ∈ K := by
  intro a ha
  obtain ⟨k, hk, hperformer⟩ := Schedule.mem_entriesOf.mp ha
  obtain ⟨action, haction, hdepicts⟩ := Schedule.exists_action_of_entry hk
  have hmem := List.mem_of_getElem? haction
  have hperforms : action.performer = some id := hdepicts.performer.symm.trans hperformer
  rw [hdepicts.origin, hdepicts.target]
  constructor
  · exact hown _ (mem_ownPoints_iff.mpr (.inr (.inr ⟨action, hmem, hperforms, .inl rfl⟩)))
  · exact hown _ (mem_ownPoints_iff.mpr (.inr (.inr ⟨action, hmem, hperforms, .inr rfl⟩)))

/-- The track of an object of the departing phase ends at a point drawn for it. -/
theorem departingTrack_arriving_mem {o : CourtObject α} (hhere : departing.object? o.id = some o)
    (hown : ∀ q ∈ ownPoints departing arriving o.id, q ∈ K) :
    (departingTrack arriving (Schedule.ofActions tempo departing.actions) o).arriving ∈ K := by
  simp only [departingTrack, arrivalOf, Schedule.getLast?_performedBy]
  cases hthere : arriving.object? o.id with
  | some there => exact hown _ (mem_ownPoints_iff.mpr (.inr (.inl ⟨there, hthere, rfl⟩)))
  | none =>
      cases hlast : ((Schedule.ofActions tempo departing.actions).entriesOf o.id).getLast? with
      | some last => exact (entriesOf_ends hown last (List.mem_of_getLast? hlast)).2
      | none => exact hown _ (mem_ownPoints_iff.mpr (.inl ⟨o, hhere, rfl⟩))

/-- An object is shown in every set that holds the points drawn for it, and the ways between points. -/
theorem Transition.frameAt_mem {index : ℕ} {owner : Option ObjectId} {transition : Transition α}
    (hK : HoldsWays K) (hdeparting : departing.WellFormed) (harriving : arriving.WellFormed)
    (htransition : transition = Transition.between tempo index departing arriving owner)
    (hown : ∀ q ∈ ownPoints departing arriving id, q ∈ K) {t : α} {p : Point α}
    (hp : (transition.frameAt t).position? id = some p) : p ∈ K := by
  have hschedule := Transition.schedule_eq htransition
  rw [frameAt_position?_eq hdeparting harriving htransition, hschedule, trackOf?] at hp
  cases hhere : departing.object? id with
  | some o =>
      obtain ⟨-, rfl⟩ := hdeparting.object?_eq_some_iff.mp hhere
      rw [hhere, Option.map_some, Option.some.injEq] at hp
      subst hp
      refine Track.positionAt_mem hK ?_ (departingTrack_arriving_mem hhere hown) ?_ _
      · exact hown _ (mem_ownPoints_iff.mpr (.inl ⟨o, hhere, rfl⟩))
      · rw [departingTrack_entries]
        exact entriesOf_ends hown
  | none =>
      simp only [hhere, Option.map_map, Option.map_eq_some_iff] at hp
      obtain ⟨o, hthere, rfl⟩ := hp
      have hplace := hown _ (mem_ownPoints_iff.mpr (.inr (.inl ⟨o, hthere, rfl⟩)))
      show Track.positionAt ⟨o.id, o.position, o.position, []⟩ _ _ ∈ K
      exact Track.positionAt_mem hK hplace hplace (fun a ha => absurd ha List.not_mem_nil) _

end Drawn

/-! ## Boxes -/

/-- The value lies between two of the values. -/
def LiesAmong {α : Type} [LE α] (values : List α) (x : α) : Prop :=
  (∃ low ∈ values, low ≤ x) ∧ ∃ high ∈ values, x ≤ high

/-- The point lies in the smallest upright box around the points. -/
def InBox {α : Type} [LE α] (points : List (Point α)) (p : Point α) : Prop :=
  LiesAmong (points.map (·.x)) p.x ∧ LiesAmong (points.map (·.y)) p.y

theorem liesAmong_of_mem {values : List ExtendedRat} {x : ℚ} (hx : finite x ∈ values) :
    LiesAmong values (finite x) :=
  ⟨⟨_, hx, ExtendedRat.finite_le_finite.mpr le_rfl⟩, _, hx, ExtendedRat.finite_le_finite.mpr le_rfl⟩

theorem Point.IsExact.inBox_of_mem {points : List (Point ExtendedRat)} {p : Point ExtendedRat}
    (hp : p.IsExact) (hmem : p ∈ points) : InBox points p := by
  obtain ⟨x, y, rfl⟩ := hp
  exact ⟨liesAmong_of_mem (List.mem_map_of_mem hmem), liesAmong_of_mem (List.mem_map_of_mem hmem)⟩

theorem between_of_way {x y fraction : ℚ} (hzero : 0 ≤ fraction) (hone : fraction ≤ 1) :
    (x ≤ x + (y - x) * fraction ∨ y ≤ x + (y - x) * fraction) ∧
      (x + (y - x) * fraction ≤ x ∨ x + (y - x) * fraction ≤ y) := by
  rcases le_total x y with hxy | hyx
  · exact ⟨Or.inl (by nlinarith), Or.inr (by nlinarith)⟩
  · exact ⟨Or.inr (by nlinarith), Or.inl (by nlinarith)⟩

theorem LiesAmong.way {values : List ExtendedRat} {x y fraction : ℚ} (hzero : 0 ≤ fraction)
    (hone : fraction ≤ 1) (hx : LiesAmong values (finite x)) (hy : LiesAmong values (finite y)) :
    LiesAmong values (finite (x + (y - x) * fraction)) := by
  obtain ⟨⟨lowX, hlowX, hleX⟩, highX, hhighX, hgeX⟩ := hx
  obtain ⟨⟨lowY, hlowY, hleY⟩, highY, hhighY, hgeY⟩ := hy
  obtain ⟨hbelow, habove⟩ := between_of_way (x := x) (y := y) hzero hone
  constructor
  · rcases hbelow with h | h
    · exact ⟨lowX, hlowX, ExtendedRat.le_trans hleX (ExtendedRat.finite_le_finite.mpr h)⟩
    · exact ⟨lowY, hlowY, ExtendedRat.le_trans hleY (ExtendedRat.finite_le_finite.mpr h)⟩
  · rcases habove with h | h
    · exact ⟨highX, hhighX, ExtendedRat.le_trans (ExtendedRat.finite_le_finite.mpr h) hgeX⟩
    · exact ⟨highY, hhighY, ExtendedRat.le_trans (ExtendedRat.finite_le_finite.mpr h) hgeY⟩

/-- A way between exact points is followed by an exact fraction, or not at all. -/
theorem Point.lerp_cases (p q : Point ExtendedRat) (fraction : ExtendedRat) :
    p.lerp q fraction = p ∨ p.lerp q fraction = q ∨
      ∃ r : ℚ, 0 ≤ r ∧ r ≤ 1 ∧ p.lerp q fraction =
        ⟨p.x + (q.x - p.x) * finite r, p.y + (q.y - p.y) * finite r⟩ := by
  unfold lerp
  split_ifs with hstart hfinish
  · exact Or.inl rfl
  · exact Or.inr (Or.inl rfl)
  · obtain ⟨hnumber, hpos⟩ := not_or.mp hstart
    cases fraction with
    | nan => exact absurd rfl hnumber
    | negInf => exact absurd rfl hpos
    | posInf => exact absurd rfl hfinish
    | finite r =>
        rw [ExtendedRat.zero_eq, ExtendedRat.finite_le_finite, not_le] at hpos
        have hlt : r < 1 := not_le.mp (mt ExtendedRat.finite_le_finite.mpr hfinish)
        exact Or.inr (Or.inr ⟨r, hpos.le, hlt.le, rfl⟩)

/-- The box around some points holds the ways between its exact points. -/
theorem holdsWays_box (points : List (Point ExtendedRat)) :
    HoldsWays {p | p.IsExact ∧ InBox points p} := by
  rintro p ⟨hp, hpBox⟩ q ⟨hq, hqBox⟩ fraction
  rcases p.lerp_cases q fraction with h | h | ⟨r, hzero, hone, h⟩
  · rw [h]
    exact ⟨hp, hpBox⟩
  · rw [h]
    exact ⟨hq, hqBox⟩
  · rw [h]
    obtain ⟨px, py, rfl⟩ := hp
    obtain ⟨qx, qy, rfl⟩ := hq
    have hx : finite px + (finite qx - finite px) * finite r = finite (px + (qx - px) * r) := by
      rw [ExtendedRat.finite_sub]
      rfl
    have hy : finite py + (finite qy - finite py) * finite r = finite (py + (qy - py) * r) := by
      rw [ExtendedRat.finite_sub]
      rfl
    simp only [hx, hy]
    exact ⟨⟨_, _, rfl⟩, hpBox.1.way hzero hone hqBox.1, hpBox.2.way hzero hone hqBox.2⟩

/-! ## The court -/

theorem Point.isOnCourt_iff {p : Point ExtendedRat} :
    p.isOnCourt = true ↔
      (0 ≤ p.x ∧ p.x ≤ finite 1000) ∧ 0 ≤ p.y ∧ p.y ≤ finite 1000 := by
  unfold isOnCourt
  simp only [Bool.and_eq_true, decide_eq_true_iff, and_assoc]
  rfl

theorem ExtendedRat.exists_finite_of_between {low high : ℚ} {x : ExtendedRat} (hlow : finite low ≤ x)
    (hhigh : x ≤ finite high) : ∃ q, x = finite q := by
  cases x with
  | finite q => exact ⟨q, rfl⟩
  | nan | negInf => exact absurd hlow Bool.false_ne_true
  | posInf => exact absurd hhigh Bool.false_ne_true

theorem Point.isExact_of_isOnCourt {p : Point ExtendedRat} (hp : p.isOnCourt = true) :
    p.IsExact := by
  obtain ⟨⟨hxlow, hxhigh⟩, hylow, hyhigh⟩ := isOnCourt_iff.mp hp
  obtain ⟨x, hx⟩ := ExtendedRat.exists_finite_of_between hxlow hxhigh
  obtain ⟨y, hy⟩ := ExtendedRat.exists_finite_of_between hylow hyhigh
  exact ⟨x, y, by rw [← hx, ← hy]⟩

theorem LiesAmong.bounds {values : List ExtendedRat} {low high x : ExtendedRat}
    (hx : LiesAmong values x) (hvalues : ∀ v ∈ values, low ≤ v ∧ v ≤ high) : low ≤ x ∧ x ≤ high := by
  obtain ⟨⟨below, hbelow, hle⟩, above, habove, hge⟩ := hx
  exact ⟨ExtendedRat.le_trans (hvalues below hbelow).1 hle,
    ExtendedRat.le_trans hge (hvalues above habove).2⟩

/-- The box around points of the court lies on the court. -/
theorem InBox.isOnCourt {points : List (Point ExtendedRat)} {p : Point ExtendedRat}
    (hp : InBox points p) (hpoints : ∀ q ∈ points, q.isOnCourt = true) : p.isOnCourt = true := by
  have hbounds := fun q hq => Point.isOnCourt_iff.mp (hpoints q hq)
  refine Point.isOnCourt_iff.mpr ⟨hp.1.bounds ?_, hp.2.bounds ?_⟩
  · intro v hv
    obtain ⟨q, hq, rfl⟩ := List.mem_map.mp hv
    exact (hbounds q hq).1
  · intro v hv
    obtain ⟨q, hq, rfl⟩ := List.mem_map.mp hv
    exact (hbounds q hq).2

theorem Transition.mem_positions_iff {α : Type} [Scalar α] {transition : Transition α} {t : α}
    {id : ObjectId} {p : Point α} :
    (id, p) ∈ (transition.frameAt t).positions ↔ (transition.frameAt t).position? id = some p :=
  mem_iff_lookup (nodup_of_sorted (orderByObject_sorted _))

namespace Document

variable {d : Document ExtendedRat} (hd : d.IsSound) {tempo : Tempo ExtendedRat}
  {transition : Transition ExtendedRat}

include hd

theorem DrawnAt.inBox (hexact : d.DrawnAt Point.IsExact) {i : ℕ}
    (ht : (d.compile tempo).transitions[i]? = some transition) :
    ∃ departing arriving : Phase ExtendedRat,
      d.phases[i]? = some departing ∧ d.phases[i + 1]? = some arriving ∧
      ∀ (t : ExtendedRat) (id : ObjectId) (p : Point ExtendedRat),
        (id, p) ∈ (transition.frameAt t).positions → InBox (ownPoints departing arriving id) p := by
  obtain ⟨departing, arriving, hdeparting, harriving, htransition⟩ := exists_between_of_transition ht
  refine ⟨departing, arriving, hdeparting, harriving, fun t id p hp => ?_⟩
  have hown : ∀ q ∈ ownPoints departing arriving id,
      q.IsExact ∧ InBox (ownPoints departing arriving id) q := by
    intro q hq
    have hq' := hexact.of_mem_ownPoints (List.mem_of_getElem? hdeparting)
      (List.mem_of_getElem? harriving) q hq
    exact ⟨hq', hq'.inBox_of_mem hq⟩
  exact (Transition.frameAt_mem (holdsWays_box _) (hd.wellFormed hdeparting)
    (hd.wellFormed harriving) htransition hown (Transition.mem_positions_iff.mp hp)).2

theorem DrawnAt.isOnCourt (hcourt : d.DrawnAt fun p => p.isOnCourt = true)
    (ht : transition ∈ (d.compile tempo).transitions) {t : ExtendedRat} {id : ObjectId}
    {p : Point ExtendedRat} (hp : (id, p) ∈ (transition.frameAt t).positions) :
    p.isOnCourt = true := by
  have hexact : d.DrawnAt Point.IsExact := by
    intro phase hphase
    obtain ⟨hobjects, hactions⟩ := hcourt phase hphase
    exact ⟨fun o ho => Point.isExact_of_isOnCourt (hobjects o ho), fun a ha =>
      ⟨Point.isExact_of_isOnCourt (hactions a ha).1, Point.isExact_of_isOnCourt (hactions a ha).2⟩⟩
  obtain ⟨i, hi⟩ := List.mem_iff_getElem?.mp ht
  obtain ⟨departing, arriving, hdeparting, harriving, hbox⟩ := DrawnAt.inBox hd hexact hi
  exact (hbox t id p hp).isOnCourt (hcourt.of_mem_ownPoints (List.mem_of_getElem? hdeparting)
    (List.mem_of_getElem? harriving))

omit hd

/-- Playback stays inside what is drawn.  In a sound document of exact points, every object that a frame
shows, at whatever time, stands in the box around its own points.  If all points are drawn on the court,
all objects stay on it. -/
theorem frameAt_inBox {d : Document ExtendedRat} (hd : d.IsSound) (tempo : Tempo ExtendedRat) :
    (d.DrawnAt Point.IsExact →
      ∀ i transition, (d.compile tempo).transitions[i]? = some transition →
        ∃ departing arriving : Phase ExtendedRat,
          d.phases[i]? = some departing ∧ d.phases[i + 1]? = some arriving ∧
          ∀ t id p, (id, p) ∈ (transition.frameAt t).positions →
            InBox (ownPoints departing arriving id) p) ∧
      ((d.DrawnAt fun p => p.isOnCourt = true) →
        ∀ transition ∈ (d.compile tempo).transitions, ∀ t id p,
          (id, p) ∈ (transition.frameAt t).positions → p.isOnCourt = true) :=
  ⟨fun hexact _ _ ht => DrawnAt.inBox hd hexact ht, fun hcourt _ ht _ _ _ hp =>
    DrawnAt.isOnCourt hd hcourt ht hp⟩

/-- Two cuts of one player at the same time, and one who leaves after a pass, at no time and at the end of
all times. -/
theorem frameAt_inBox_overlap :
    let spot (x y : ℚ) : Point ExtendedRat := ⟨finite x, finite y⟩
    let cut (name : String) (target : Point ExtendedRat) : Action ExtendedRat :=
      ((Action.freehand ⟨name⟩ .cut (spot 100 100) target).performedBy ⟨"o1"⟩).triggered .withPrevious
    let first : Phase ExtendedRat :=
      { id := ⟨"p1"⟩, name := "Cut", objects := [.new ⟨"o1"⟩ .offensePlayer (spot 100 100)],
        actions := [cut "a1" (spot 180 100), cut "a2" (spot 100 180)], ballOwner := .inherit }
    let second : Phase ExtendedRat :=
      { first with id := ⟨"p2"⟩, objects := [.new ⟨"o2"⟩ .cone (spot 0 1000)], actions := [] }
    let play : Document ExtendedRat := .new .half [first, second]
    let tempo : Tempo ExtendedRat := ⟨{}, finite 2, rfl, by decide⟩
    play.IsSound ∧ play.DrawnAt Point.IsExact ∧ (play.DrawnAt fun p => p.isOnCourt = true) ∧
      ∃ transition, (play.compile tempo).transitions[0]? = some transition ∧
        (⟨"o1"⟩, spot 100 120) ∈ (transition.frameAt (finite 100)).positions ∧
        InBox (ownPoints first second ⟨"o1"⟩) (spot 100 120) ∧
        (⟨"o1"⟩, spot 100 180) ∈ (transition.frameAt .posInf).positions ∧
        (spot 100 180).isOnCourt = true := by
  intro spot cut first second play tempo
  have hsound : play.IsSound := by decide
  have hcourt : play.DrawnAt fun p => p.isOnCourt = true := by
    unfold DrawnAt
    decide +kernel
  have hexact : play.DrawnAt Point.IsExact := fun phase hphase =>
    ⟨fun o ho => Point.isExact_of_isOnCourt ((hcourt phase hphase).1 o ho), fun a ha =>
      ⟨Point.isExact_of_isOnCourt ((hcourt phase hphase).2 a ha).1,
        Point.isExact_of_isOnCourt ((hcourt phase hphase).2 a ha).2⟩⟩
  obtain ⟨hbox, hstays⟩ := frameAt_inBox hsound tempo
  obtain ⟨departing, arriving, hdeparting, harriving, hshown⟩ := hbox hexact 0 _ rfl
  cases hdeparting
  cases harriving
  have hduring : (⟨"o1"⟩, spot 100 120) ∈ ((Transition.between tempo 0 first second
      (some ⟨"o1"⟩)).frameAt (finite 100)).positions :=
    Transition.mem_positions_iff.mpr (by decide +kernel)
  have hafter : (⟨"o1"⟩, spot 100 180) ∈ ((Transition.between tempo 0 first second
      (some ⟨"o1"⟩)).frameAt .posInf).positions :=
    Transition.mem_positions_iff.mpr (by decide +kernel)
  exact ⟨hsound, hexact, hcourt, _, rfl, hduring, hshown _ _ _ hduring, hafter,
    hstays hcourt _ List.mem_cons_self _ _ _ hafter⟩

end Document

end PlayDiagram
