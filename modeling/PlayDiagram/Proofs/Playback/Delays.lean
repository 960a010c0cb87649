import PlayDiagram.Proofs.Playback.Roots

/-!
# How far a delay spreads

Two schedules whose cursors are never further apart than some time do not drift apart: an action delays
those after it by no more than it was delayed itself, or made longer (`Cursor.AtMostLater.afterAction`).
So longer actions make nothing earlier, one action that takes longer delays the rest by no more than
that, and without one of them the others are no later (`Schedule.ofActions_monotone`).
-/

namespace PlayDiagram

/-! ## Being later -/

/-- The entry is of the same action as the other, and at most some time later. -/
structure ScheduledAction.AtMostLater (lateMs : ℚ) (s s' : ScheduledAction ℚ) : Prop where
  id : s.id = s'.id
  starts : s.startMs ≤ s'.startMs + lateMs
  ends : s.endMs ≤ s'.endMs + lateMs

/-- The cursor is at most some time later than the other. -/
structure Cursor.AtMostLater (lateMs : ℚ) (c c' : Cursor ℚ) : Prop where
  free : c.freeMs ≤ c'.freeMs + lateMs
  anchor : c.anchorMs ≤ c'.anchorMs + lateMs

/-- The schedule is at most some time later than the other, entry by entry and as a whole. -/
structure Schedule.AtMostLater (lateMs : ℚ) (s s' : Schedule ℚ) : Prop where
  entries : List.Forall₂ (ScheduledAction.AtMostLater lateMs) s.actions s'.actions
  total : s.totalMs ≤ s'.totalMs + lateMs

/-- At its tempo the action takes at most some time longer than the other at that one's tempo, and it is
the same but for that. -/
structure Action.AtMostLonger (moreMs : ℚ) (tempo tempo' : Tempo ℚ) (a a' : Action ℚ) : Prop where
  id : a.id = a'.id
  trigger : a.timing.trigger = a'.timing.trigger
  length : tempo.lengthMs a.timing ≤ tempo'.lengthMs a'.timing + moreMs

/-- In its configuration the action is set to last no longer than the other in that one's, and it is the
same but for that. -/
structure Action.SetNoLonger (config config' : PlaybackConfig) (a a' : Action ℚ) : Prop where
  id : a.id = a'.id
  trigger : a.timing.trigger = a'.timing.trigger
  duration : a.timing.durationMs.getD config.defaultMs ≤ a'.timing.durationMs.getD config'.defaultMs

theorem Action.SetNoLonger.refl {config config' : PlaybackConfig}
    (hdefault : config.defaultMs ≤ config'.defaultMs) (a : Action ℚ) :
    a.SetNoLonger config config' a := by
  refine ⟨rfl, rfl, ?_⟩
  cases a.timing.durationMs with
  | none => exact hdefault
  | some ms => exact UInt32.le_refl ms

theorem Action.SetNoLonger.atMostLonger {tempo tempo' : Tempo ℚ} {a a' : Action ℚ}
    (ha : a.SetNoLonger tempo.config tempo'.config a')
    (hfloor : tempo.config.floorMs ≤ tempo'.config.floorMs)
    (hspeed : tempo'.speed.value ≤ tempo.speed.value) : a.AtMostLonger 0 tempo tempo' a' := by
  refine ⟨ha.id, ha.trigger, ?_⟩
  have hnominal : (tempo.config.effectiveMs a.timing.durationMs).toNat ≤
      (tempo'.config.effectiveMs a'.timing.durationMs).toNat := by
    rw [PlaybackConfig.effectiveMs, PlaybackConfig.effectiveMs, UInt32.toNat_max, UInt32.toNat_max]
    exact max_le_max (UInt32.le_iff_toNat_le.mp ha.duration) (UInt32.le_iff_toNat_le.mp hfloor)
  rw [add_zero]
  exact div_le_div₀ (Nat.cast_nonneg _) (Nat.cast_le.mpr hnominal) tempo'.speed.positive hspeed

theorem Action.lasting_atMostLonger {tempo : Tempo ℚ} {a : Action ℚ} {ms : UInt32} {moreMs : ℕ}
    (hmore : (tempo.config.effectiveMs (some ms)).toNat =
      (tempo.config.effectiveMs a.timing.durationMs).toNat + moreMs) :
    (a.lasting ms).AtMostLonger (moreMs / tempo.speed.value) tempo tempo a := by
  refine ⟨rfl, rfl, le_of_eq ?_⟩
  show ((tempo.config.effectiveMs (some ms)).toNat : ℚ) / tempo.speed.value = _
  rw [hmore, Nat.cast_add, add_div]
  rfl

theorem Action.AtMostLonger.refl (tempo : Tempo ℚ) (a : Action ℚ) : a.AtMostLonger 0 tempo tempo a :=
  ⟨rfl, rfl, (add_zero _).ge⟩

theorem Cursor.AtMostLater.refl {lateMs : ℚ} (hlate : 0 ≤ lateMs) (c : Cursor ℚ) :
    c.AtMostLater lateMs c :=
  ⟨le_add_of_nonneg_right hlate, le_add_of_nonneg_right hlate⟩

section Step

variable {lateMs moreMs : ℚ} {tempo tempo' : Tempo ℚ} {c c' : Cursor ℚ} {a a' : Action ℚ}

theorem Cursor.AtMostLater.place_le (hc : c.AtMostLater lateMs c') (trigger : Trigger)
    (lengthMs lengthMs' : ℚ) :
    (c.place trigger lengthMs).1 ≤ (c'.place trigger lengthMs').1 + lateMs := by
  cases trigger with
  | afterPrevious => exact hc.free
  | withPrevious => exact hc.anchor

/-- An action that takes longer after a later cursor leaves a cursor behind that is later by both. -/
theorem Cursor.AtMostLater.afterAction (hc : c.AtMostLater lateMs c')
    (ha : a.AtMostLonger moreMs tempo tempo' a') (hmore : 0 ≤ moreMs) :
    (c.afterAction tempo a).AtMostLater (lateMs + moreMs) (c'.afterAction tempo' a') := by
  have hstart := hc.place_le a'.timing.trigger (tempo.lengthMs a.timing) (tempo'.lengthMs a'.timing)
  have hlength := ha.length
  constructor
  · have hfree := hc.free
    rw [Cursor.afterAction, Cursor.afterAction, ha.trigger,
      Cursor.place_freeMs _ _ (tempo.lengthMs_nonneg _),
      Cursor.place_freeMs _ _ (tempo'.lengthMs_nonneg _), ← max_add_add_right]
    exact max_le_max (by linarith) (by linarith)
  · rw [Cursor.afterAction, Cursor.afterAction, ha.trigger, Cursor.place_anchorMs,
      Cursor.place_anchorMs]
    linarith

/-- The entry of the action is later by as much. -/
theorem Cursor.AtMostLater.placed (hc : c.AtMostLater lateMs c')
    (ha : a.AtMostLonger moreMs tempo tempo' a') (hmore : 0 ≤ moreMs) :
    (a.placed (c.place a.timing.trigger (tempo.lengthMs a.timing)).1
      (tempo.lengthMs a.timing)).AtMostLater (lateMs + moreMs)
      (a'.placed (c'.place a'.timing.trigger (tempo'.lengthMs a'.timing)).1
        (tempo'.lengthMs a'.timing)) := by
  have hstart := hc.place_le a'.timing.trigger (tempo.lengthMs a.timing) (tempo'.lengthMs a'.timing)
  have hlength := ha.length
  rw [ha.trigger]
  refine ⟨ha.id, ?_, ?_⟩
  · simp only [Action.placed]
    linarith
  · simp only [Action.placed]
    linarith

end Step

namespace Schedule

variable {lateMs : ℚ} {tempo tempo' : Tempo ℚ}

theorem layOut_atMostLater {c c' : Cursor ℚ} (hc : c.AtMostLater lateMs c')
    {actions actions' : List (Action ℚ)}
    (hactions : List.Forall₂ (Action.AtMostLonger 0 tempo tempo') actions actions') :
    (layOut tempo c actions).AtMostLater lateMs (layOut tempo' c' actions') := by
  induction hactions generalizing c c' with
  | nil => exact ⟨List.Forall₂.nil, hc.free⟩
  | cons ha _ ih =>
      have hentry := hc.placed ha le_rfl
      have hnext := hc.afterAction ha le_rfl
      rw [add_zero] at hentry hnext
      exact ⟨List.Forall₂.cons hentry (ih hnext).entries, (ih hnext).total⟩

theorem layOut_atMostLater_of_cursor (tempo : Tempo ℚ) {c c' : Cursor ℚ} (hc : c.AtMostLater lateMs c')
    (actions : List (Action ℚ)) :
    (layOut tempo c actions).AtMostLater lateMs (layOut tempo c' actions) :=
  layOut_atMostLater hc (List.forall₂_same.mpr fun a _ => Action.AtMostLonger.refl tempo a)

/-- One longer action delays the others by no more than it is longer. -/
theorem layOut_set_atMostLater (hlate : 0 ≤ lateMs) {actions : List (Action ℚ)} {k : ℕ}
    {a a' : Action ℚ} (hk : actions[k]? = some a) (ha : a'.AtMostLonger lateMs tempo tempo a)
    (c : Cursor ℚ) :
    (layOut tempo c (actions.set k a')).AtMostLater lateMs (layOut tempo c actions) := by
  induction actions generalizing c k with
  | nil => simp at hk
  | cons x rest ih =>
      have hsame : c.AtMostLater 0 c := Cursor.AtMostLater.refl le_rfl c
      rcases k with _ | k
      · obtain rfl : x = a := by simpa using hk
        have hentry := hsame.placed ha hlate
        have hnext := hsame.afterAction ha hlate
        rw [zero_add] at hentry hnext
        have hrest := layOut_atMostLater_of_cursor tempo hnext rest
        exact ⟨List.Forall₂.cons hentry hrest.entries, hrest.total⟩
      · have hentry := (Cursor.AtMostLater.refl hlate c).placed (Action.AtMostLonger.refl tempo x)
          le_rfl
        rw [add_zero] at hentry
        have hrest := ih hk (c.afterAction tempo x)
        exact ⟨List.Forall₂.cons hentry hrest.entries, hrest.total⟩

/-! ## Leaving an action out -/

/-- The schedule without the entry at an index. -/
def without (s : Schedule ℚ) (k : ℕ) : Schedule ℚ :=
  { s with actions := s.actions.eraseIdx k }

/-- An action leaves no earlier cursor behind than the one it was placed by. -/
theorem atMostLater_afterAction {c : Cursor ℚ} (hanchor : c.anchorMs ≤ c.freeMs) (a : Action ℚ) :
    c.AtMostLater 0 (c.afterAction tempo a) := by
  constructor
  · rw [add_zero]
    exact c.le_place_freeMs a.timing.trigger (tempo.lengthMs_nonneg a.timing)
  · rw [add_zero, Cursor.afterAction, Cursor.place_anchorMs]
    exact c.anchorMs_le_place a.timing.trigger hanchor (tempo.lengthMs a.timing)

/-- Without an action that has others before it, none of those after it is later: if it was their root,
they go with an earlier one. -/
theorem layOut_eraseIdx_atMostLater {c : Cursor ℚ} (hanchor : c.anchorMs ≤ c.freeMs)
    (actions : List (Action ℚ)) (k : ℕ) :
    (layOut tempo c (actions.eraseIdx k)).AtMostLater 0 ((layOut tempo c actions).without k) := by
  induction actions generalizing c k with
  | nil =>
      rw [List.eraseIdx_nil]
      exact ⟨List.Forall₂.nil, (add_zero c.freeMs).ge⟩
  | cons a rest ih =>
      have hsame : c.AtMostLater 0 c := Cursor.AtMostLater.refl le_rfl c
      rcases k with _ | k
      · exact layOut_atMostLater_of_cursor tempo (atMostLater_afterAction hanchor a) rest
      · have hentry := hsame.placed (Action.AtMostLonger.refl tempo a) le_rfl
        rw [add_zero] at hentry
        have hnext := c.place_anchorMs_le_freeMs a.timing.trigger (tempo.lengthMs_nonneg a.timing)
        have hrest := ih hnext k
        exact ⟨List.Forall₂.cons hentry hrest.entries, hrest.total⟩

/-- Without the first action, the next one starts the schedule, which is no later than it was. -/
theorem layOut_rooted_atMostLater {c : Cursor ℚ} (hfree : 0 ≤ c.freeMs) (hanchor : 0 ≤ c.anchorMs)
    (actions : List (Action ℚ)) :
    (layOut tempo ⟨0, 0⟩ (rooted actions)).AtMostLater 0 (layOut tempo c actions) := by
  rcases actions with _ | ⟨a, rest⟩
  · exact ⟨List.Forall₂.nil, hfree.trans (add_zero _).ge⟩
  · have hstart := c.place_nonneg a.timing.trigger hfree hanchor (tempo.lengthMs a.timing)
    have hend := c.place_end_le a.timing.trigger (tempo.lengthMs a.timing)
    have hanchored := c.place_anchorMs a.timing.trigger (tempo.lengthMs a.timing)
    have hnext : Cursor.AtMostLater 0 ⟨0 + tempo.lengthMs a.timing, 0⟩ (c.afterAction tempo a) := by
      rw [Cursor.afterAction]
      exact ⟨by linarith, by linarith⟩
    have hrest := layOut_atMostLater_of_cursor tempo hnext rest
    refine ⟨List.Forall₂.cons ⟨rfl, ?_, ?_⟩ hrest.entries, hrest.total⟩
    · exact hstart.trans (add_zero _).ge
    · exact (add_le_add_left hstart _).trans (add_zero _).ge

/-! ## Schedules of actions -/

theorem rooted_eraseIdx_succ (actions : List (Action ℚ)) (k : ℕ) :
    rooted (actions.eraseIdx (k + 1)) = (rooted actions).eraseIdx (k + 1) := by
  rcases actions with _ | ⟨a, rest⟩ <;> rfl

theorem rooted_set (actions : List (Action ℚ)) (k : ℕ) (a : Action ℚ) :
    rooted (actions.set k a) = (rooted actions).set k (a.triggered (triggerAt k a)) := by
  rcases actions with _ | ⟨x, rest⟩
  · rfl
  · rcases k with _ | k <;> rfl

theorem rooted_forall₂ {actions actions' : List (Action ℚ)}
    (hactions : List.Forall₂ (Action.AtMostLonger 0 tempo tempo') actions actions') :
    List.Forall₂ (Action.AtMostLonger 0 tempo tempo') (rooted actions) (rooted actions') := by
  cases hactions with
  | nil => exact List.Forall₂.nil
  | cons ha hrest => exact List.Forall₂.cons ⟨ha.id, rfl, ha.length⟩ hrest

theorem ofActions_eraseIdx_atMostLater (actions : List (Action ℚ)) (k : ℕ) :
    (ofActions tempo (actions.eraseIdx k)).AtMostLater 0 ((ofActions tempo actions).without k) := by
  rcases k with _ | k
  · rcases actions with _ | ⟨a, rest⟩
    · exact ⟨List.Forall₂.nil, (add_zero _).ge⟩
    · have hlength := tempo.lengthMs_nonneg a.timing
      have hfree : 0 ≤ (Cursor.afterAction tempo ⟨0, 0⟩ (a.triggered .afterPrevious)).freeMs :=
        hlength.trans (zero_add _).ge
      rw [List.eraseIdx_cons_zero, ofActions_eq_layOut]
      exact layOut_rooted_atMostLater hfree le_rfl rest
  · rw [ofActions_eq_layOut, ofActions_eq_layOut, rooted_eraseIdx_succ]
    exact layOut_eraseIdx_atMostLater le_rfl (rooted actions) (k + 1)

theorem ofActions_set_atMostLater {actions : List (Action ℚ)} {k : ℕ} {a : Action ℚ}
    (hk : actions[k]? = some a) {ms : UInt32} (hlate : 0 ≤ lateMs)
    (hmore : (a.lasting ms).AtMostLonger lateMs tempo tempo a) :
    (ofActions tempo (actions.set k (a.lasting ms))).AtMostLater lateMs (ofActions tempo actions) := by
  have htrigger : triggerAt k (a.lasting ms) = triggerAt k a := rfl
  have hrooted : ((a.lasting ms).triggered (triggerAt k a)).AtMostLonger lateMs tempo tempo
      (a.triggered (triggerAt k a)) := ⟨rfl, rfl, hmore.length⟩
  rw [ofActions_eq_layOut, ofActions_eq_layOut, rooted_set, htrigger]
  exact layOut_set_atMostLater hlate (rooted_getElem? hk) hrooted ⟨0, 0⟩

/-- Nothing becomes earlier when actions are set to last longer, the durations of the configuration are
raised or the speed is lowered.  If one action takes some time longer, everything else is later by no more
than that time at the speed.  And if one action is left out, none of the others is later. -/
theorem ofActions_monotone (tempo : Tempo ℚ) (actions : List (Action ℚ)) :
    (∀ (tempo' : Tempo ℚ) (actions' : List (Action ℚ)),
      tempo.config.floorMs ≤ tempo'.config.floorMs → tempo'.speed.value ≤ tempo.speed.value →
      List.Forall₂ (Action.SetNoLonger tempo.config tempo'.config) actions actions' →
      (ofActions tempo actions).AtMostLater 0 (ofActions tempo' actions')) ∧
    (∀ (k : ℕ) (a : Action ℚ) (ms : UInt32) (moreMs : ℕ), actions[k]? = some a →
      (tempo.config.effectiveMs (some ms)).toNat =
        (tempo.config.effectiveMs a.timing.durationMs).toNat + moreMs →
      (ofActions tempo (actions.set k (a.lasting ms))).AtMostLater (moreMs / tempo.speed.value)
        (ofActions tempo actions)) ∧
    ∀ k, (ofActions tempo (actions.eraseIdx k)).AtMostLater 0
      ((ofActions tempo actions).without k) := by
  refine ⟨?_, ?_, ofActions_eraseIdx_atMostLater actions⟩
  · intro tempo' actions' hfloor hspeed hactions
    have hlonger : List.Forall₂ (Action.AtMostLonger 0 tempo tempo') actions actions' :=
      hactions.imp fun _ _ ha => ha.atMostLonger hfloor hspeed
    have hsame : Cursor.AtMostLater 0 ⟨0, 0⟩ ⟨0, 0⟩ := Cursor.AtMostLater.refl le_rfl _
    rw [ofActions_eq_layOut, ofActions_eq_layOut]
    exact layOut_atMostLater hsame (rooted_forall₂ hlonger)
  · intro k a ms moreMs hk hmore
    have hlate : 0 ≤ (moreMs : ℚ) / tempo.speed.value :=
      div_nonneg (Nat.cast_nonneg moreMs) tempo.speed.positive.le
    exact ofActions_set_atMostLater hk hlate (Action.lasting_atMostLonger hmore)

/-- Of four actions, the second one is the root of the third, which outlasts it.  At three quarters of the
speed nothing is earlier; if the third one takes 40 ms longer, the schedule ends at most 20 ms later; and
without the second one the third goes with the first. -/
theorem ofActions_monotone_outlastedRoot :
    let cut (id : String) (trigger : Trigger) (ms : UInt32) : Action ℚ :=
      ((Action.freehand ⟨id⟩ .cut ⟨0, 0⟩ ⟨0, 0⟩).triggered trigger).lasting ms
    let third := cut "a3" .withPrevious 600
    let actions :=
      [cut "a1" .afterPrevious 200, cut "a2" .afterPrevious 300, third, cut "a4" .afterPrevious 50]
    let tempo : Tempo ℚ := ⟨{}, 2, rfl, by decide⟩
    let slower : Tempo ℚ := ⟨{ floorMs := 150, defaultMs := 900 }, 3 / 2, rfl, by decide +kernel⟩
    (ofActions tempo actions).totalMs = 460 ∧
      (ofActions tempo actions).AtMostLater 0 (ofActions slower actions) ∧
      (ofActions tempo (actions.set 2 (third.lasting 640))).AtMostLater ((40 : ℕ) / 2)
        (ofActions tempo actions) ∧
      (ofActions tempo (actions.eraseIdx 1)).AtMostLater 0 ((ofActions tempo actions).without 1) ∧
      (ofActions tempo (actions.eraseIdx 1)).totalMs = 360 := by
  intro cut third actions tempo slower
  obtain ⟨hslower, hlonger, hwithout⟩ := ofActions_monotone tempo actions
  have hspeed : slower.speed.value ≤ tempo.speed.value := by decide +kernel
  have hsame : List.Forall₂ (Action.SetNoLonger tempo.config slower.config) actions actions :=
    List.forall₂_same.mpr fun a _ => Action.SetNoLonger.refl (by decide) a
  refine ⟨by decide +kernel, hslower slower actions (by decide) hspeed hsame, ?_, hwithout 1,
    by decide +kernel⟩
  exact hlonger 2 third 640 40 rfl (by decide)

end Schedule

end PlayDiagram
