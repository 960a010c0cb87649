import Mathlib.Algebra.Order.Group.MinMax
import Mathlib.Data.Set.Finite.Lemmas
import Mathlib.Order.Interval.Set.Basic
import Mathlib.Tactic.Ring
import PlayDiagram.Proofs.Playback.LookBack
import PlayDiagram.Proofs.Playback.ReferenceFrame

/-!
# No jumps along a connected path

If the actions of an object follow one another, each from where the one before has ended, the object
walks along a single path (`Track.IsConnected.positionAt_eq`).  A walk is made of pieces that meet, so
it changes at most at the greatest of their rates, however far apart the two times are at which it is
looked at (`walk_changesAtMost`).
-/

namespace PlayDiagram

/-! ## Rates of change -/

/-- Between any two of the times, the value changes at most at the rate. -/
def ChangesAtMost (rate : ℚ) (times : Set ℚ) (f : ℚ → ℚ) : Prop :=
  ∀ s ∈ times, ∀ t ∈ times, s ≤ t → |f t - f s| ≤ rate * (t - s)

namespace ChangesAtMost

variable {rate : ℚ} {times : Set ℚ} {f g : ℚ → ℚ}

theorem congr (hf : ChangesAtMost rate times f) (hfg : ∀ t ∈ times, g t = f t) :
    ChangesAtMost rate times g := by
  intro s hs t ht hst
  rw [hfg s hs, hfg t ht]
  exact hf s hs t ht hst

theorem of_const (hrate : 0 ≤ rate) (x : ℚ) : ChangesAtMost rate times fun _ => x := by
  intro s _ t _ hst
  rw [sub_self, abs_zero]
  exact mul_nonneg hrate (sub_nonneg.mpr hst)

/-- A straight line changes at its slope. -/
theorem of_line {slope : ℚ} (hslope : |slope| ≤ rate) (x start : ℚ) :
    ChangesAtMost rate times fun t => x + slope * (t - start) := by
  intro s _ t _ hst
  have hchange : x + slope * (t - start) - (x + slope * (s - start)) = slope * (t - s) := by ring
  dsimp only
  rw [hchange, abs_mul, abs_of_nonneg (sub_nonneg.mpr hst)]
  exact mul_le_mul_of_nonneg_right hslope (sub_nonneg.mpr hst)

/-- Pieces that meet at a time change at most at a common rate. -/
theorem glue {b : ℚ} (hb : b ∈ times) (hbefore : ChangesAtMost rate (times ∩ Set.Iic b) f)
    (hafter : ChangesAtMost rate (times ∩ Set.Ici b) f) : ChangesAtMost rate times f := by
  intro s hs t ht hst
  rcases le_total t b with htb | hbt
  · exact hbefore s ⟨hs, hst.trans htb⟩ t ⟨ht, htb⟩ hst
  · rcases le_total b s with hbs | hsb
    · exact hafter s ⟨hs, hbs⟩ t ⟨ht, hbt⟩ hst
    · calc
        |f t - f s| ≤ |f t - f b| + |f b - f s| := abs_sub_le _ _ _
        _ ≤ rate * (t - b) + rate * (b - s) :=
          add_le_add (hafter b ⟨hb, Set.self_mem_Ici⟩ t ⟨ht, hbt⟩ hbt)
            (hbefore s ⟨hs, hsb⟩ b ⟨hb, Set.self_mem_Iic⟩ hsb)
        _ = rate * (t - s) := by ring

theorem abs_sub_le_abs (hf : ChangesAtMost rate times f) {s t : ℚ} (hs : s ∈ times)
    (ht : t ∈ times) : |f t - f s| ≤ rate * |t - s| := by
  rcases le_total s t with hst | hts
  · rw [abs_of_nonneg (sub_nonneg.mpr hst)]
    exact hf s hs t ht hst
  · rw [abs_sub_comm, abs_sub_comm t, abs_of_nonneg (sub_nonneg.mpr hts)]
    exact hf t ht s hs hts

end ChangesAtMost

/-! ## Walks -/

theorem Point.coordinate_partWay {c : Point ℚ → ℚ} (hc : c ∈ [Point.x, Point.y]) (p q : Point ℚ)
    (fraction : ℚ) : c (p.partWay q fraction) = c p + (c q - c p) * fraction := by
  obtain rfl | rfl : c = Point.x ∨ c = Point.y := by simpa using hc
  · rfl
  · rfl

/-- How fast a coordinate changes while the action is under way. -/
def ScheduledAction.rate (c : Point ℚ → ℚ) (a : ScheduledAction ℚ) : ℚ :=
  |c a.target - c a.origin| / (a.endMs - a.startMs)

/-- The second action starts when the first one is over, and where it has ended. -/
def Continues (a b : ScheduledAction ℚ) : Prop :=
  a.endMs ≤ b.startMs ∧ b.origin = a.target

instance : DecidableRel Continues :=
  fun _ _ => inferInstanceAs (Decidable (_ ∧ _))

/-- The actions continue one another, the first one from a point on, and each takes some time. -/
structure IsPathFrom (p : Point ℚ) (path : List (ScheduledAction ℚ)) : Prop where
  departs : ∀ a ∈ path.head?, a.origin = p
  continues : path.IsChain Continues
  lasts : ∀ a ∈ path, a.startMs < a.endMs

/-- Where one is at a time who starts at a point and takes one action after the other. -/
def walk (p : Point ℚ) : List (ScheduledAction ℚ) → ℚ → Point ℚ
  | [], _ => p
  | a :: rest, t =>
    if t ≤ a.startMs then p
    else if t < a.endMs then a.move.pointAt t
    else walk a.target rest t

section Walk

variable {p : Point ℚ} {path rest : List (ScheduledAction ℚ)} {a : ScheduledAction ℚ} {t : ℚ}

theorem IsPathFrom.tail (h : IsPathFrom p (a :: rest)) : IsPathFrom a.target rest where
  departs b hb := by
    obtain ⟨rest', rfl⟩ := List.head?_eq_some_iff.mp hb
    exact (List.isChain_cons_cons.mp h.continues).1.2
  continues := h.continues.tail
  lasts b hb := h.lasts b (List.mem_cons_of_mem a hb)

/-- All that follows starts when the first action is over. -/
theorem IsPathFrom.endMs_le (h : IsPathFrom p (a :: rest)) : ∀ b ∈ rest, a.endMs ≤ b.startMs := by
  induction rest generalizing p a with
  | nil => exact fun b hb => absurd hb List.not_mem_nil
  | cons b rest ih =>
      have hnext : a.endMs ≤ b.startMs := (List.isChain_cons_cons.mp h.continues).1.1
      intro b' hb'
      rcases List.mem_cons.mp hb' with rfl | hb'
      · exact hnext
      · calc
          a.endMs ≤ b.startMs := hnext
          _ ≤ b.endMs := (h.lasts b (by simp)).le
          _ ≤ b'.startMs := ih h.tail b' hb'

theorem walk_of_early (hearly : ∀ a ∈ path, t ≤ a.startMs) : walk p path t = p := by
  cases path with
  | nil => rfl
  | cons a rest => exact if_pos (hearly a List.mem_cons_self)

theorem walk_of_over (h : IsPathFrom p (a :: rest)) (hover : a.endMs ≤ t) :
    walk p (a :: rest) t = walk a.target rest t := by
  have hstarted : ¬t ≤ a.startMs := not_le.mpr ((h.lasts a List.mem_cons_self).trans_le hover)
  rw [walk, if_neg hstarted, if_neg (not_lt.mpr hover)]

/-- When all is over, the walk is where the last action leads. -/
theorem walk_of_late (h : IsPathFrom p path) {last : ScheduledAction ℚ}
    (hlast : path.getLast? = some last) (hover : ∀ a ∈ path, a.endMs ≤ t) :
    walk p path t = last.target := by
  induction path generalizing p with
  | nil => cases hlast
  | cons a rest ih =>
      rw [walk_of_over h (hover a List.mem_cons_self)]
      cases rest with
      | nil =>
          obtain rfl : a = last := by simpa using hlast
          rfl
      | cons b rest =>
          rw [List.getLast?_cons_cons] at hlast
          exact ih h.tail hlast fun b' hb' => hover b' (List.mem_cons_of_mem a hb')

theorem Move.pointAt_startMs {m : Move} (hlasts : m.startMs < m.endMs) :
    m.pointAt m.startMs = m.origin := by
  rw [pointAt, if_neg hlasts.ne, sub_self, zero_div]
  simp [Point.partWay]

theorem Move.pointAt_endMs {m : Move} (hlasts : m.startMs < m.endMs) :
    m.pointAt m.endMs = m.target := by
  rw [pointAt, if_neg hlasts.ne, div_self (sub_pos.mpr hlasts).ne', Point.partWay_one]

/-- While an action is under way, the walk is on its path.  Where two meet, both are at the same point. -/
theorem walk_of_covers (h : IsPathFrom p path) (ha : a ∈ path) (hcovers : a.move.Covers t) :
    walk p path t = a.move.pointAt t := by
  induction path generalizing p with
  | nil => cases ha
  | cons b rest ih =>
      have hlasts : b.startMs < b.endMs := h.lasts b List.mem_cons_self
      rcases List.mem_cons.mp ha with rfl | ha
      · have hstart : a.startMs ≤ t := hcovers.1
        have hend : t ≤ a.endMs := hcovers.2
        rcases hstart.eq_or_lt with rfl | hstarted
        · rw [walk, if_pos le_rfl, ← h.departs a rfl]
          exact (Move.pointAt_startMs (m := a.move) hlasts).symm
        · rcases hend.eq_or_lt with rfl | hpending
          · rw [walk_of_over h le_rfl, walk_of_early h.endMs_le]
            exact (Move.pointAt_endMs (m := a.move) hlasts).symm
          · rw [walk, if_neg (not_le.mpr hstarted), if_pos hpending]
      · rw [walk_of_over h ((h.endMs_le a ha).trans hcovers.1)]
        exact ih h.tail ha

/-- Between two actions, the walk is where the one that ended last has led. -/
theorem walk_of_between (h : IsPathFrom p path) (hidle : ∀ b ∈ path, ¬b.move.Covers t)
    (ha : a ∈ path) (hended : a.endMs < t)
    (hlatest : ∀ b ∈ path, b.endMs < t → b.endMs ≤ a.endMs) : walk p path t = a.target := by
  induction path generalizing p with
  | nil => cases ha
  | cons b rest ih =>
      rcases List.mem_cons.mp ha with rfl | ha
      · rw [walk_of_over h hended.le]
        apply walk_of_early
        intro b hb
        -- What follows has not ended before the time, and does not cover it: it starts later.
        by_contra hstarted
        have hwindow := h.tail.lasts b hb
        have hpending : t ≤ b.endMs := by
          by_contra hover
          have hle := hlatest b (List.mem_cons_of_mem a hb) (not_le.mp hover)
          exact absurd (hle.trans (h.endMs_le b hb)) (not_le.mpr hwindow)
        exact hidle b (List.mem_cons_of_mem a hb) ⟨(not_le.mp hstarted).le, hpending⟩
      · have hover : b.endMs ≤ t :=
          ((h.endMs_le a ha).trans (h.tail.lasts a ha).le).trans hended.le
        rw [walk_of_over h hover]
        exact ih h.tail (fun b' hb' => hidle b' (List.mem_cons_of_mem b hb')) ha
          fun b' hb' => hlatest b' (List.mem_cons_of_mem b hb')

variable {c : Point ℚ → ℚ} {rate : ℚ}

/-- On the path of an action a coordinate changes at the rate of the action. -/
theorem ScheduledAction.pointAt_changesAtMost (hc : c ∈ [Point.x, Point.y])
    (hlasts : a.startMs < a.endMs) (hrate : a.rate c ≤ rate) (times : Set ℚ) :
    ChangesAtMost rate times fun t => c (a.move.pointAt t) := by
  have hslope : |(c a.target - c a.origin) / (a.endMs - a.startMs)| ≤ rate := by
    rw [abs_div, abs_of_pos (sub_pos.mpr hlasts)]
    exact hrate
  refine (ChangesAtMost.of_line hslope (c a.origin) a.startMs).congr fun t _ => ?_
  have hmoving : a.move.startMs ≠ a.move.endMs := hlasts.ne
  rw [Move.pointAt, if_neg hmoving, Point.coordinate_partWay hc]
  show c a.origin + (c a.target - c a.origin) * ((t - a.startMs) / (a.endMs - a.startMs)) = _
  ring

/-- A walk changes at most at the rate of its fastest action. -/
theorem walk_changesAtMost (hc : c ∈ [Point.x, Point.y]) (hnonneg : 0 ≤ rate)
    (h : IsPathFrom p path) (hrate : ∀ a ∈ path, a.rate c ≤ rate) :
    ChangesAtMost rate Set.univ fun t => c (walk p path t) := by
  induction path generalizing p with
  | nil => exact .of_const hnonneg (c p)
  | cons a rest ih =>
      have hlasts : a.startMs < a.endMs := h.lasts a List.mem_cons_self
      -- The walk waits up to the start of the first action, and after its end it is the rest of the walk.
      have hwaits : ChangesAtMost rate (Set.univ ∩ Set.Iic a.startMs)
          fun t => c (walk p (a :: rest) t) :=
        (ChangesAtMost.of_const hnonneg (c p)).congr fun t ht => by
          rw [walk, if_pos (Set.mem_Iic.mp ht.2)]
      have hmoves : ChangesAtMost rate (Set.univ ∩ Set.Ici a.startMs ∩ Set.Iic a.endMs)
          fun t => c (walk p (a :: rest) t) :=
        (a.pointAt_changesAtMost hc hlasts (hrate a List.mem_cons_self) _).congr fun t ht => by
          rw [walk_of_covers h List.mem_cons_self ⟨ht.1.2, ht.2⟩]
      have hgoesOn : ChangesAtMost rate (Set.univ ∩ Set.Ici a.startMs ∩ Set.Ici a.endMs)
          fun t => c (walk p (a :: rest) t) := by
        have hrest := ih h.tail fun b hb => hrate b (List.mem_cons_of_mem a hb)
        intro s hs t ht hst
        dsimp only
        rw [walk_of_over h hs.2, walk_of_over h ht.2]
        exact hrest s trivial t trivial hst
      exact hwaits.glue trivial (hmoves.glue ⟨trivial, hlasts.le⟩ hgoesOn)

end Walk

/-! ## Tracks -/

/-- The track has entries, and they lead from its departing point to its arriving point: none starts
before the one listed before it has ended, and each starts where that one ends. -/
structure Track.IsConnected (track : Track ℚ) (s : Schedule ℚ) : Prop where
  busy : track.entries s ≠ []
  departs : ∀ a ∈ (track.entries s).head?, a.origin = track.departing
  continues : (track.entries s).IsChain Continues
  arrives : ∀ a ∈ (track.entries s).getLast?, a.target = track.arriving

instance (track : Track ℚ) (s : Schedule ℚ) : Decidable (track.IsConnected s) :=
  decidable_of_iff
    (track.entries s ≠ [] ∧ (∀ a ∈ (track.entries s).head?, a.origin = track.departing) ∧
      (track.entries s).IsChain Continues ∧
      ∀ a ∈ (track.entries s).getLast?, a.target = track.arriving)
    ⟨fun ⟨busy, departs, continues, arrives⟩ => ⟨busy, departs, continues, arrives⟩,
      fun h => ⟨h.busy, h.departs, h.continues, h.arrives⟩⟩

namespace Track

variable {track : Track ℚ} {s : Schedule ℚ}

theorem IsConnected.isPathFrom (h : track.IsConnected s)
    (hlasts : ∀ a ∈ track.entries s, a.startMs < a.endMs) :
    IsPathFrom track.departing (track.entries s) :=
  ⟨h.departs, h.continues, hlasts⟩

/-- The object of a connected track walks along it. -/
theorem IsConnected.positionAt_eq (h : track.IsConnected s)
    (hactions : track.actions = s.performedBy track.object)
    (hlasts : ∀ a ∈ track.entries s, a.startMs < a.endMs) (t : ℚ) :
    track.positionAt s t = walk track.departing (track.entries s) t := by
  have hpath := h.isPathFrom hlasts
  have hentries : track.entries s = s.entriesOf track.object := entries_eq_entriesOf hactions
  have hbusy := h.busy
  have harrives := h.arrives
  rw [hentries] at hpath hbusy harrives ⊢
  by_cases hearly : ∀ a ∈ s.entriesOf track.object, t ≤ a.startMs
  · rw [positionAt_waits hactions hbusy fun a ha => not_lt.mpr (hearly a ha), walk_of_early hearly]
  · have hstarted : ∃ a ∈ s.entriesOf track.object, a.startMs < t := by simpa using hearly
    by_cases hover : ∀ a ∈ s.entriesOf track.object, a.endMs ≤ t
    · have hlast := List.getLast?_eq_some_getLast hbusy
      rw [positionAt_arrives hactions hstarted fun a ha => not_lt.mpr (hover a ha),
        walk_of_late hpath hlast hover, harrives _ hlast]
    · have hpending : ∃ a ∈ s.entriesOf track.object, t < a.endMs := by simpa using hover
      cases hactive : (s.entriesOf track.object).reverse.find? (·.contains t) with
      | some active =>
          have hcovers : active.move.Covers t :=
            ScheduledAction.contains_iff.mp (by simpa using List.find?_some hactive)
          have hmem := List.mem_reverse.mp (List.mem_of_find?_eq_some hactive)
          rw [positionAt_moves hactions hstarted hpending hactive,
            ScheduledAction.positionAt_eq hcovers, walk_of_covers hpath hmem hcovers]
      | none =>
          have hidle : ∀ a ∈ s.entriesOf track.object, ¬a.move.Covers t := by
            intro a ha hcovers
            exact List.find?_eq_none.mp hactive a (List.mem_reverse.mpr ha)
              (ScheduledAction.contains_iff.mpr hcovers)
          -- Something has started and covers nothing: it has ended.
          have hany : ∃ a ∈ s.entriesOf track.object, a.endMs < t := by
            obtain ⟨a, ha, hlt⟩ := hstarted
            exact ⟨a, ha, not_le.mp fun hle => hidle a ha ⟨hlt.le, hle⟩⟩
          obtain ⟨a, ha, hlt⟩ := hany
          obtain ⟨ended, hended⟩ := lastEnded?_isSome ha hlt
          rw [positionAt_rests hactions hstarted hpending hactive hended]
          obtain ⟨k, hk⟩ := Schedule.lastEnded?_entriesOf.mp hended
          have hmem : ended ∈ s.entriesOf track.object :=
            Schedule.mem_entriesOf.mpr ⟨k, hk.listed, hk.holds.1⟩
          refine (walk_of_between hpath hidle hmem hk.holds.2 ?_).symm
          intro b hb hbended
          obtain ⟨k', hk', hperformer⟩ := Schedule.mem_entriesOf.mp hb
          exact (hk.upTo k' b hk' ⟨hperformer, hbended⟩).endMs_le

variable {c : Point ℚ → ℚ}

/-- Along a connected track a coordinate changes at most at the rate of its fastest action. -/
theorem IsConnected.changesAtMost (hc : c ∈ [Point.x, Point.y]) (h : track.IsConnected s)
    (hactions : track.actions = s.performedBy track.object)
    (hlasts : ∀ a ∈ track.entries s, a.startMs < a.endMs) {rate : ℚ} (hnonneg : 0 ≤ rate)
    (hrate : ∀ a ∈ track.entries s, a.rate c ≤ rate) :
    ChangesAtMost rate Set.univ fun t => c (track.positionAt s t) :=
  (walk_changesAtMost hc hnonneg (h.isPathFrom hlasts) hrate).congr fun t _ =>
    congrArg c (h.positionAt_eq hactions hlasts t)

/-- An object that performs no action glides all the time at one rate. -/
theorem changesAtMost_of_idle (hc : c ∈ [Point.x, Point.y]) (hidle : track.entries s = [])
    (htotal : 0 < s.totalMs) :
    ChangesAtMost (|c track.arriving - c track.departing| / s.totalMs) (Set.Icc 0 s.totalMs)
      fun t => c (track.positionAt s t) := by
  have hslope : |(c track.arriving - c track.departing) / s.totalMs| ≤
      |c track.arriving - c track.departing| / s.totalMs := by
    rw [abs_div, abs_of_pos htotal]
  refine (ChangesAtMost.of_line hslope (c track.departing) 0).congr fun t ht => ?_
  rw [positionAt_glides hidle ht.1 ht.2, if_neg htotal.ne', Point.coordinate_partWay hc]
  ring

end Track

/-! ## Transitions -/

/-- Two times stand for instants that are no further apart than they are. -/
theorem Transition.abs_instant_sub_le (transition : Transition ℚ) (s t : ℚ) :
    |transition.instant t - transition.instant s| ≤ |t - s| := by
  rw [instant_eq, instant_eq]
  calc
    |min transition.schedule.totalMs (max 0 t) - min transition.schedule.totalMs (max 0 s)| ≤
        max |transition.schedule.totalMs - transition.schedule.totalMs| |max 0 t - max 0 s| :=
      abs_min_sub_min_le_max _ _ _ _
    _ ≤ max |(0 : ℚ) - 0| |t - s| := by
      rw [sub_self, abs_zero, sub_self, abs_zero]
      exact max_le_max le_rfl ((abs_max_sub_max_le_max _ _ _ _).trans (by simp))
    _ = |t - s| := by simp

theorem ChangesAtMost.abs_sub_instant_le {rate : ℚ} {times : Set ℚ} {f : ℚ → ℚ}
    (hf : ChangesAtMost rate times f) (hrate : 0 ≤ rate) {transition : Transition ℚ}
    (htimes : ∀ t, transition.instant t ∈ times) (s t : ℚ) :
    |f (transition.instant t) - f (transition.instant s)| ≤ rate * |t - s| :=
  (hf.abs_sub_le_abs (htimes s) (htimes t)).trans
    (mul_le_mul_of_nonneg_left (transition.abs_instant_sub_le s t) hrate)

namespace Document

/-- No object jumps along a connected path.  With a floor, whatever the two times are that one looks at an
object of a connected track, a coordinate differs at most by the time between them at the rate of the
fastest action; without actions, at most by that time at the rate of the whole way.  In a sound document
the track leads where the frames show the object. -/
theorem shownAt_changesAtMost (d : Document ℚ) {tempo : Tempo ℚ} (hfloor : 1 ≤ tempo.config.floorMs)
    {transition : Transition ℚ} (ht : transition ∈ (d.compile tempo).transitions) {track : Track ℚ}
    (htrack : track ∈ transition.tracks) :
    let shownAt (t : ℚ) : Point ℚ := track.positionAt transition.schedule (transition.instant t)
    (d.IsSound → ∀ t, (transition.frameAt t).position? track.object = some (shownAt t)) ∧
    ∀ c ∈ [Point.x, Point.y],
      (track.IsConnected transition.schedule →
        ∃ V, IsGreatest {r | ∃ a ∈ track.entries transition.schedule, a.rate c = r} V ∧
          ∀ t₁ t₂, |c (shownAt t₂) - c (shownAt t₁)| ≤ V * |t₂ - t₁|) ∧
      (track.entries transition.schedule = [] → 0 < transition.schedule.totalMs →
        ∀ t₁ t₂, |c (shownAt t₂) - c (shownAt t₁)| ≤
          |c track.arriving - c track.departing| / transition.schedule.totalMs * |t₂ - t₁|) := by
  intro shownAt
  obtain ⟨i, hi⟩ := List.mem_iff_getElem?.mp ht
  obtain ⟨departing, arriving, hdeparting, harriving, htransition⟩ := exists_between_of_transition hi
  have hschedule := Transition.schedule_eq htransition
  have hlasts : ∀ a ∈ track.entries transition.schedule, a.startMs < a.endMs := by
    intro a ha
    refine Schedule.ofActions_lasts hfloor departing.actions ?_
    rw [← hschedule]
    exact Track.mem_actions_of_mem_entries ha
  refine ⟨fun hd t => ?_, fun c hc => ⟨fun hconnected => ?_, fun hidle htotal => ?_⟩⟩
  · exact Transition.frameAt_position? (hd.wellFormed hdeparting) (hd.wellFormed harriving)
      htransition t htrack
  · have hactions : track.actions = transition.schedule.performedBy track.object := by
      rw [htransition] at htrack
      rcases tracksBetween_actions htrack with hnone | hall
      · exact absurd (by rw [Track.entries, hnone, List.filterMap_nil]) hconnected.busy
      · rw [hschedule]
        exact hall
    obtain ⟨fastest, hfastest, hgreatest⟩ := Set.exists_max_image
      {a | a ∈ track.entries transition.schedule} (·.rate c) (List.finite_toSet _)
      (List.exists_mem_of_ne_nil _ hconnected.busy)
    have hnonneg : 0 ≤ fastest.rate c :=
      div_nonneg (abs_nonneg _) (sub_nonneg.mpr (hlasts fastest hfastest).le)
    refine ⟨fastest.rate c, ⟨⟨fastest, hfastest, rfl⟩, ?_⟩, ?_⟩
    · rintro _ ⟨a, ha, rfl⟩
      exact hgreatest a ha
    · exact (hconnected.changesAtMost hc hactions hlasts hnonneg hgreatest).abs_sub_instant_le
        hnonneg fun _ => trivial
  · exact (Track.changesAtMost_of_idle hc hidle htotal).abs_sub_instant_le
      (div_nonneg (abs_nonneg _) htotal.le) 
        (Transition.instant_between htotal.le)

/-- A player waits while another one screens, between two cuts that meet, and a third one glides. -/
theorem shownAt_changesAtMost_screen :
    let player (name : String) (position : Point ℚ) : CourtObject ℚ :=
      .new ⟨name⟩ .offensePlayer position
    let action (name player : String) (kind : ActionKind) (origin target : Point ℚ) : Action ℚ :=
      (Action.freehand ⟨name⟩ kind origin target).performedBy ⟨player⟩
    let first : Phase ℚ :=
      { id := ⟨"p1"⟩, name := "Screen", ballOwner := .inherit
        objects := [player "o1" ⟨0, 0⟩, player "o2" ⟨90, 90⟩, player "o3" ⟨0, 0⟩]
        actions :=
          [ action "a1" "o1" .cut ⟨0, 0⟩ ⟨40, 0⟩,
            action "a2" "o2" .screen ⟨90, 90⟩ ⟨90, 50⟩,
            action "a3" "o1" .cut ⟨40, 0⟩ ⟨40, 80⟩ ] }
    let second : Phase ℚ :=
      { id := ⟨"p2"⟩, name := "After", ballOwner := .inherit, actions := []
        objects := [player "o1" ⟨40, 80⟩, player "o3" ⟨24, 0⟩] }
    let play : Document ℚ := .new .half [first, second]
    let tempo : Tempo ℚ := ⟨{}, 2, rfl, by decide⟩
    1 ≤ tempo.config.floorMs ∧ play.IsSound ∧ ∃ transition ∈ (play.compile tempo).transitions,
      ∃ cutting ∈ transition.tracks, ∃ gliding ∈ transition.tracks,
        (transition.frameAt 200).position? cutting.object =
          some (cutting.positionAt transition.schedule (transition.instant 200)) ∧
        cutting.IsConnected transition.schedule ∧ gliding.entries transition.schedule = [] ∧
        (∃ V, IsGreatest {r | ∃ a ∈ cutting.entries transition.schedule, a.rate Point.y = r} V ∧
          |(cutting.positionAt transition.schedule (transition.instant 1000)).y -
            (cutting.positionAt transition.schedule (transition.instant 200)).y| ≤ V * |1000 - 200|) ∧
        |(gliding.positionAt transition.schedule (transition.instant 1000)).x -
          (gliding.positionAt transition.schedule (transition.instant 200)).x| ≤
          |24 - 0| / 1200 * |1000 - 200| := by
  intro player action first second play tempo
  have hfloor : 1 ≤ tempo.config.floorMs := by decide
  let transition := Transition.between tempo 0 first second (some ⟨"o1"⟩)
  have htransition : transition ∈ (play.compile tempo).transitions := List.mem_cons_self
  have hcutting : departingTrack second transition.schedule (player "o1" ⟨0, 0⟩) ∈
      transition.tracks := List.mem_cons_self
  have hgliding : departingTrack second transition.schedule (player "o3" ⟨0, 0⟩) ∈
      transition.tracks := List.mem_cons_of_mem _ (List.mem_cons_of_mem _ List.mem_cons_self)
  have hsound : play.IsSound := by decide
  have hconnected : (departingTrack second transition.schedule (player "o1" ⟨0, 0⟩)).IsConnected
      transition.schedule := by
    decide +kernel
  have hidle : (departingTrack second transition.schedule (player "o3" ⟨0, 0⟩)).entries
      transition.schedule = [] := by
    decide +kernel
  have htotal : transition.schedule.totalMs = 1200 := by decide +kernel
  obtain ⟨hshown, hrates⟩ := shownAt_changesAtMost play hfloor htransition hcutting
  obtain ⟨V, hV, hbound⟩ := (hrates Point.y (by simp)).1 hconnected
  obtain ⟨-, hrates'⟩ := shownAt_changesAtMost play hfloor htransition hgliding
  have hglides := (hrates' Point.x (by simp)).2 hidle (by rw [htotal]; decide)
  rw [htotal] at hglides
  exact ⟨hfloor, hsound, transition, htransition, _, hcutting, _, hgliding, hshown hsound 200,
    hconnected, hidle, ⟨V, hV, hbound 200 1000⟩, hglides 200 1000⟩

end Document

end PlayDiagram
