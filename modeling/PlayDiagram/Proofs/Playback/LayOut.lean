import Mathlib.Algebra.Order.Group.MinMax
import PlayDiagram.Proofs.Playback.UnitChange
import PlayDiagram.Proofs.Playback.Windows

/-!
# Laying out a list in parts

The first part of a list of actions is laid out as if it were alone, and the rest from the cursor that
it leaves behind (`Schedule.layOut_append`).  An action that comes after the previous ones forgets
where they were anchored, so that a list which begins with one is laid out after any other as it would
be alone, only later (`Schedule.ofActions_append`).
-/

namespace PlayDiagram

section Parts

variable {α : Type} [Scalar α]

/-- The entry of an action that starts at a time and takes a length of time. -/
def Action.placed (a : Action α) (startMs lengthMs : α) : ScheduledAction α where
  id := a.id
  kind := a.kind
  trigger := a.timing.trigger
  performer := a.performer
  receiver := a.receiver
  origin := a.origin
  target := a.target
  startMs := startMs
  endMs := startMs + lengthMs

/-- The cursor after an action is laid out. -/
def Cursor.afterAction (tempo : Tempo α) (c : Cursor α) (a : Action α) : Cursor α :=
  (c.place a.timing.trigger (tempo.lengthMs a.timing)).2

/-- The cursor after some actions are laid out. -/
def Cursor.after (tempo : Tempo α) (c : Cursor α) (actions : List (Action α)) : Cursor α :=
  actions.foldl (afterAction tempo) c

theorem Cursor.after_concat (tempo : Tempo α) (c : Cursor α) (actions : List (Action α))
    (a : Action α) :
    c.after tempo (actions ++ [a]) = (c.after tempo actions).afterAction tempo a := by
  simp only [after, List.foldl_concat]

namespace Schedule

variable (tempo : Tempo α)

theorem layOut_cons (c : Cursor α) (a : Action α) (rest : List (Action α)) :
    layOut tempo c (a :: rest) =
      { layOut tempo (c.afterAction tempo a) rest with
        actions :=
          a.placed (c.place a.timing.trigger (tempo.lengthMs a.timing)).1 (tempo.lengthMs a.timing) ::
            (layOut tempo (c.afterAction tempo a) rest).actions } :=
  rfl

theorem layOut_append (c : Cursor α) (xs ys : List (Action α)) :
    layOut tempo c (xs ++ ys) =
      { layOut tempo (c.after tempo xs) ys with
        actions := (layOut tempo c xs).actions ++ (layOut tempo (c.after tempo xs) ys).actions } := by
  induction xs generalizing c with
  | nil => rfl
  | cons x xs ih =>
      rw [List.cons_append, layOut_cons, layOut_cons, ih]
      rfl

theorem layOut_totalMs (c : Cursor α) (actions : List (Action α)) :
    (layOut tempo c actions).totalMs = (c.after tempo actions).freeMs := by
  induction actions generalizing c with
  | nil => rfl
  | cons a rest ih =>
      rw [layOut_cons]
      exact ih (c.afterAction tempo a)

/-- Each action is placed by the cursor that the actions before it leave behind. -/
theorem layOut_getElem? (c : Cursor α) {actions : List (Action α)} {j : ℕ} {a : Action α}
    (ha : actions[j]? = some a) :
    (layOut tempo c actions).actions[j]? =
      some (a.placed ((c.after tempo (actions.take j)).place a.timing.trigger
        (tempo.lengthMs a.timing)).1 (tempo.lengthMs a.timing)) := by
  induction actions generalizing c j with
  | nil => simp at ha
  | cons x rest ih =>
      rw [layOut_cons]
      rcases j with _ | j
      · obtain rfl : x = a := by simpa using ha
        rfl
      · exact ih (c.afterAction tempo x) ha

/-- The actions as they are laid out: the first one comes after the previous ones. -/
def rooted : List (Action α) → List (Action α)
  | [] => []
  | a :: rest => a.triggered .afterPrevious :: rest

theorem ofActions_eq_layOut (actions : List (Action α)) :
    ofActions tempo actions = layOut tempo ⟨0, 0⟩ (rooted actions) := by
  cases actions <;> rfl

omit [Scalar α] in
theorem rooted_append {xs : List (Action α)} (hxs : xs ≠ []) (ys : List (Action α)) :
    rooted (xs ++ ys) = rooted xs ++ ys := by
  obtain ⟨x, rest, rfl⟩ := List.exists_cons_of_ne_nil hxs
  simp only [List.cons_append, rooted]

omit [Scalar α] in
theorem rooted_take (actions : List (Action α)) (k : ℕ) :
    (rooted actions).take k = rooted (actions.take k) := by
  rcases actions with _ | ⟨a, rest⟩
  · simp [rooted]
  · rcases k with _ | k
    · rfl
    · simp [rooted]

/-- Actions that are changed in nothing that decides when they take place are laid out at the same
times. -/
theorem layOut_map (g : Action α → Action α) (f : ScheduledAction α → ScheduledAction α)
    (htiming : ∀ a, (g a).timing = a.timing)
    (hplaced : ∀ a startMs lengthMs, (g a).placed startMs lengthMs = f (a.placed startMs lengthMs))
    (c : Cursor α) (actions : List (Action α)) :
    layOut tempo c (actions.map g) =
      { layOut tempo c actions with actions := (layOut tempo c actions).actions.map f } := by
  induction actions generalizing c with
  | nil => rfl
  | cons a rest ih =>
      have hnext : c.afterAction tempo (g a) = c.afterAction tempo a := by
        simp only [Cursor.afterAction, htiming]
      simp only [List.map_cons, layOut_cons, hnext, ih, hplaced, htiming]

theorem ofActions_map (g : Action α → Action α) (f : ScheduledAction α → ScheduledAction α)
    (htiming : ∀ a, (g a).timing = a.timing)
    (hplaced : ∀ a startMs lengthMs, (g a).placed startMs lengthMs = f (a.placed startMs lengthMs))
    (htriggered : ∀ a trigger, (g a).triggered trigger = g (a.triggered trigger))
    (actions : List (Action α)) :
    ofActions tempo (actions.map g) =
      { ofActions tempo actions with actions := (ofActions tempo actions).actions.map f } := by
  have hrooted : rooted (actions.map g) = (rooted actions).map g := by
    cases actions with
    | nil => rfl
    | cons a rest => simp only [List.map_cons, rooted, htriggered]
  rw [ofActions_eq_layOut, hrooted, layOut_map tempo g f htiming hplaced, ← ofActions_eq_layOut]

/-- What follows does not change where actions are placed. -/
theorem ofActions_append_take (xs ys : List (Action α)) :
    (ofActions tempo (xs ++ ys)).actions.take xs.length = (ofActions tempo xs).actions := by
  by_cases hxs : xs = []
  · simp [hxs, ofActions]
  · rw [ofActions_eq_layOut, rooted_append hxs, layOut_append, ← ofActions_eq_layOut,
      List.take_left' (ofActions_length tempo xs)]

end Schedule

end Parts

/-! ## Later starts -/

/-- The cursor moved on by some time. -/
def Cursor.later (lateMs : ℚ) (c : Cursor ℚ) : Cursor ℚ :=
  ⟨lateMs + c.freeMs, lateMs + c.anchorMs⟩

theorem Cursor.place_later (lateMs : ℚ) (c : Cursor ℚ) (trigger : Trigger) (lengthMs : ℚ) :
    (c.later lateMs).place trigger lengthMs =
      (lateMs + (c.place trigger lengthMs).1, (c.place trigger lengthMs).2.later lateMs) := by
  cases trigger with
  | afterPrevious => simp only [place, later, add_assoc]
  | withPrevious => simp only [place, later, exact_greater, add_assoc, max_add_add_left]

namespace Schedule

/-- The one schedule, and then the other: it starts when the first has ended. -/
def followedBy (s s' : Schedule ℚ) : Schedule ℚ :=
  { actions := s.actions ++ s'.actions.map (·.mapTimes (s.totalMs + ·))
    totalMs := s.totalMs + s'.totalMs }

variable (tempo : Tempo ℚ)

theorem layOut_later (lateMs : ℚ) (c : Cursor ℚ) (actions : List (Action ℚ)) :
    layOut tempo (c.later lateMs) actions = (layOut tempo c actions).mapTimes (lateMs + ·) := by
  induction actions generalizing c with
  | nil => rfl
  | cons a rest ih =>
      have hnext : (c.later lateMs).afterAction tempo a = (c.afterAction tempo a).later lateMs := by
        simp only [Cursor.afterAction, Cursor.place_later]
      rw [layOut_cons, layOut_cons, hnext, ih, Cursor.place_later]
      simp only [mapTimes, List.map_cons, ScheduledAction.mapTimes, Action.placed, add_assoc]

/-- A list that begins with an action after the previous ones is laid out alike from cursors that are
free at the same time. -/
theorem layOut_congr_of_root {c c' : Cursor ℚ} (hfree : c'.freeMs = c.freeMs)
    {actions : List (Action ℚ)}
    (hroot : ∀ a, actions.head? = some a → a.timing.trigger = .afterPrevious) :
    layOut tempo c' actions = layOut tempo c actions := by
  rcases actions with _ | ⟨a, rest⟩
  · simp only [layOut, hfree]
  · simp only [layOut, hroot a rfl, Cursor.place, hfree]

theorem rooted_eq_self {actions : List (Action ℚ)}
    (hroot : ∀ a, actions.head? = some a → a.timing.trigger = .afterPrevious) :
    rooted actions = actions := by
  rcases actions with _ | ⟨a, rest⟩
  · rfl
  · rw [rooted, Action.triggered, ← hroot a rfl]

@[simp] theorem followedBy_of_nil (s : Schedule ℚ) : followedBy ⟨[], 0⟩ s = s := by
  simp [followedBy, ScheduledAction.mapTimes]

theorem ofActions_append_of_root (xs : List (Action ℚ)) {ys : List (Action ℚ)}
    (hroot : ∀ a, ys.head? = some a → a.timing.trigger = .afterPrevious) :
    ofActions tempo (xs ++ ys) = (ofActions tempo xs).followedBy (ofActions tempo ys) := by
  by_cases hxs : xs = []
  · rw [hxs, List.nil_append]
    exact (followedBy_of_nil _).symm
  · have hfree : (Cursor.after tempo ⟨0, 0⟩ (rooted xs)).freeMs =
        (Cursor.later (ofActions tempo xs).totalMs ⟨0, 0⟩).freeMs := by
      rw [← layOut_totalMs, ← ofActions_eq_layOut]
      exact (add_zero _).symm
    have hrest : layOut tempo (Cursor.after tempo ⟨0, 0⟩ (rooted xs)) ys =
        (ofActions tempo ys).mapTimes ((ofActions tempo xs).totalMs + ·) := by
      rw [layOut_congr_of_root tempo hfree hroot, layOut_later, ofActions_eq_layOut tempo ys,
        rooted_eq_self hroot]
    rw [ofActions_eq_layOut, rooted_append hxs, layOut_append, hrest, ← ofActions_eq_layOut]
    simp only [followedBy, mapTimes]

/-- If one list is empty, or the second one begins with an action that comes after the previous ones, the
schedule of both is that of the first and then that of the second.  Whatever follows, the actions of the
first are placed as if they were alone. -/
theorem ofActions_append (xs ys : List (Action ℚ)) :
    (xs = [] ∨ ys = [] ∨ (∃ a, ys.head? = some a ∧ a.timing.trigger = .afterPrevious) →
      (ofActions tempo (xs ++ ys)).actions = (ofActions tempo xs).actions ++
          (ofActions tempo ys).actions.map (·.mapTimes ((ofActions tempo xs).totalMs + ·)) ∧
        (ofActions tempo (xs ++ ys)).totalMs =
          (ofActions tempo xs).totalMs + (ofActions tempo ys).totalMs) ∧
      (ofActions tempo (xs ++ ys)).actions.take xs.length = (ofActions tempo xs).actions := by
  refine ⟨fun hboundary => ?_, ofActions_append_take tempo xs ys⟩
  have hboth : ofActions tempo (xs ++ ys) = (ofActions tempo xs).followedBy (ofActions tempo ys) := by
    rcases hboundary with rfl | rfl | ⟨a, ha, hafter⟩
    · exact (followedBy_of_nil _).symm
    · exact ofActions_append_of_root tempo xs (by simp)
    · refine ofActions_append_of_root tempo xs fun b hb => ?_
      rwa [← Option.some.inj (ha.symm.trans hb)]
  rw [hboth]
  exact ⟨rfl, rfl⟩

/-- A screen that outlasts the cut it goes with holds the pass after them back, and the shot with the
pass. -/
theorem ofActions_append_outlasted :
    let action (id : String) (kind : ActionKind) (trigger : Trigger) (ms : UInt32) : Action ℚ :=
      ((Action.freehand ⟨id⟩ kind ⟨0, 0⟩ ⟨0, 0⟩).triggered trigger).lasting ms
    let xs := [action "a1" .cut .withPrevious 300, action "a2" .screen .withPrevious 700]
    let ys := [action "a3" .pass .afterPrevious 200, action "a4" .shot .withPrevious 500]
    let tempo : Tempo ℚ := ⟨{}, 2, rfl, by decide⟩
    (ofActions tempo (xs ++ ys)).actions = (ofActions tempo xs).actions ++
        (ofActions tempo ys).actions.map (·.mapTimes ((350 : ℚ) + ·)) ∧
      (ofActions tempo (xs ++ ys)).totalMs = 350 + 250 ∧
      (ofActions tempo (xs ++ ys)).actions.take 2 = (ofActions tempo xs).actions := by
  intro action xs ys tempo
  have hfirst : (ofActions tempo xs).totalMs = 350 := by decide +kernel
  have hsecond : (ofActions tempo ys).totalMs = 250 := by decide +kernel
  obtain ⟨hparts, htake⟩ := ofActions_append tempo xs ys
  obtain ⟨hactions, htotal⟩ := hparts (Or.inr (Or.inr ⟨_, rfl, rfl⟩))
  rw [hfirst] at hactions htotal
  rw [hsecond] at htotal
  exact ⟨hactions, htotal, htake⟩

end Schedule

end PlayDiagram
