import PlayDiagram.Proofs.Playback.TrackPosition
import PlayDiagram.Proofs.Playback.Tracks

/-!
# The rule of placement

`StandsAt` says where an object stands at an instant of the transition between two phases, by the
phases themselves and by its moves.  The rule gives every object of the departing phase exactly one
point, the one that its track leads to (`StandsAt.positionAt_eq`, `exists_standsAt`).
-/

namespace PlayDiagram

/-- Of the moves of an object with a property, the one of the action listed last. -/
structure Phase.IsLastMove (tempo : Tempo ℚ) (p : Phase ℚ) (id : ObjectId) (Q : Move → Prop)
    (k : ℕ) (m : Move) : Prop where
  made : p.HasMove tempo id k m
  holds : Q m
  last : ∀ k' m', p.HasMove tempo id k' m' → Q m' → k' ≤ k

/-- Of the moves of an object that ended before an instant, the one that ended last; of several the
one of the action listed last. -/
structure Phase.IsLatestMove (tempo : Tempo ℚ) (p : Phase ℚ) (id : ObjectId) (t : ℚ)
    (k : ℕ) (m : Move) : Prop where
  made : p.HasMove tempo id k m
  ended : m.endMs < t
  latest : ∀ k' m', p.HasMove tempo id k' m' → m'.endMs < t →
    m'.endMs < m.endMs ∨ m'.endMs = m.endMs ∧ k' ≤ k

/-- Where an object stands at an instant of the transition between two phases. -/
inductive StandsAt (tempo : Tempo ℚ) (departing arriving : Phase ℚ) (id : ObjectId) (t : ℚ) :
    Point ℚ → Prop
  /-- An object that only the arriving phase has is there all the time. -/
  | appears {there : CourtObject ℚ} (hhere : departing.object? id = none)
      (hthere : arriving.object? id = some there) :
      StandsAt tempo departing arriving id t there.position
  /-- One that makes no move, in no time, stays. -/
  | dwells {here : CourtObject ℚ} (hhere : departing.object? id = some here)
      (hidle : ∀ k m, ¬departing.HasMove tempo id k m)
      (htotal : (Schedule.ofActions tempo departing.actions).totalMs = 0) :
      StandsAt tempo departing arriving id t here.position
  /-- One that makes no move goes straight to its place in the arriving phase. -/
  | glides {here there : CourtObject ℚ} (hhere : departing.object? id = some here)
      (hidle : ∀ k m, ¬departing.HasMove tempo id k m)
      (htotal : (Schedule.ofActions tempo departing.actions).totalMs ≠ 0)
      (hthere : arriving.object? id = some there) :
      StandsAt tempo departing arriving id t
        (here.position.partWay there.position
          (t / (Schedule.ofActions tempo departing.actions).totalMs))
  /-- One that makes no move and has no place in the arriving phase stays. -/
  | stays {here : CourtObject ℚ} (hhere : departing.object? id = some here)
      (hidle : ∀ k m, ¬departing.HasMove tempo id k m)
      (hthere : arriving.object? id = none) :
      StandsAt tempo departing arriving id t here.position
  /-- Up to the start of its first move the object is in its place in the departing phase. -/
  | waits {here : CourtObject ℚ} (hhere : departing.object? id = some here)
      (hbusy : ∃ k m, departing.HasMove tempo id k m)
      (hearly : ∀ k m, departing.HasMove tempo id k m → t ≤ m.startMs) :
      StandsAt tempo departing arriving id t here.position
  /-- From the end of its last move it is in its place in the arriving phase. -/
  | arrives {here there : CourtObject ℚ} (hhere : departing.object? id = some here)
      (hstarted : ∃ k m, departing.HasMove tempo id k m ∧ m.startMs < t)
      (hover : ∀ k m, departing.HasMove tempo id k m → m.endMs ≤ t)
      (hthere : arriving.object? id = some there) :
      StandsAt tempo departing arriving id t there.position
  /-- Without a place there, it is where the action listed last takes it. -/
  | leaves {here : CourtObject ℚ} {k : ℕ} {m : Move} (hhere : departing.object? id = some here)
      (hstarted : ∃ k m, departing.HasMove tempo id k m ∧ m.startMs < t)
      (hover : ∀ k m, departing.HasMove tempo id k m → m.endMs ≤ t)
      (hthere : arriving.object? id = none)
      (hlast : departing.IsLastMove tempo id (fun _ => True) k m) :
      StandsAt tempo departing arriving id t m.target
  /-- In between, of the moves under way the one listed last counts. -/
  | moves {here : CourtObject ℚ} {k : ℕ} {m : Move} (hhere : departing.object? id = some here)
      (hstarted : ∃ k m, departing.HasMove tempo id k m ∧ m.startMs < t)
      (hpending : ∃ k m, departing.HasMove tempo id k m ∧ t < m.endMs)
      (hlast : departing.IsLastMove tempo id (·.Covers t) k m) :
      StandsAt tempo departing arriving id t (m.pointAt t)
  /-- When none is under way, the object rests where the move that ended last has taken it. -/
  | rests {here : CourtObject ℚ} {k : ℕ} {m : Move} (hhere : departing.object? id = some here)
      (hstarted : ∃ k m, departing.HasMove tempo id k m ∧ m.startMs < t)
      (hpending : ∃ k m, departing.HasMove tempo id k m ∧ t < m.endMs)
      (hpaused : ∀ k m, departing.HasMove tempo id k m → ¬m.Covers t)
      (hlatest : departing.IsLatestMove tempo id t k m) :
      StandsAt tempo departing arriving id t m.target

section Entries

variable {tempo : Tempo ℚ} {p : Phase ℚ} {id : ObjectId} {t : ℚ} {k : ℕ} {m : Move}

theorem Phase.exists_move_iff {Q : Move → Prop} :
    (∃ k m, p.HasMove tempo id k m ∧ Q m) ↔
      ∃ a ∈ (Schedule.ofActions tempo p.actions).entriesOf id, Q a.move := by
  constructor
  · rintro ⟨k, m, hmove, hQ⟩
    obtain ⟨a, ha, hperformer, rfl⟩ := hasMove_iff.mp hmove
    exact ⟨a, Schedule.mem_entriesOf.mpr ⟨k, ha, hperformer⟩, hQ⟩
  · rintro ⟨a, ha, hQ⟩
    obtain ⟨k, hk, hperformer⟩ := Schedule.mem_entriesOf.mp ha
    exact ⟨k, a.move, hasMove_iff.mpr ⟨a, hk, hperformer, rfl⟩, hQ⟩

theorem Phase.forall_move_iff {Q : Move → Prop} :
    (∀ k m, p.HasMove tempo id k m → Q m) ↔
      ∀ a ∈ (Schedule.ofActions tempo p.actions).entriesOf id, Q a.move := by
  have hexists := (@exists_move_iff tempo p id fun m => ¬Q m).not
  push Not at hexists
  exact hexists

theorem Phase.no_move_iff :
    (∀ k m, ¬p.HasMove tempo id k m) ↔
      (Schedule.ofActions tempo p.actions).entriesOf id = [] := by
  rw [List.eq_nil_iff_forall_not_mem]
  exact forall_move_iff

/-- The last move with a property is that of the last entry with it. -/
theorem Phase.isLastMove_iff {Q : Move → Prop} :
    p.IsLastMove tempo id Q k m ↔
      ∃ a, IsLast (Schedule.ofActions tempo p.actions).actions
        (fun a => a.performer = some id ∧ Q a.move) k a ∧ a.move = m := by
  constructor
  · rintro ⟨hmade, hQ, hlast⟩
    obtain ⟨a, ha, hperformer, rfl⟩ := hasMove_iff.mp hmade
    refine ⟨a, ⟨ha, ⟨hperformer, hQ⟩, ?_⟩, rfl⟩
    intro k' a' ha' hP
    exact hlast k' a'.move (hasMove_iff.mpr ⟨a', ha', hP.1, rfl⟩) hP.2
  · rintro ⟨a, ⟨ha, ⟨hperformer, hQ⟩, hlast⟩, rfl⟩
    refine ⟨hasMove_iff.mpr ⟨a, ha, hperformer, rfl⟩, hQ, ?_⟩
    intro k' m' hmove hQ'
    obtain ⟨a', ha', hperformer', rfl⟩ := hasMove_iff.mp hmove
    exact hlast k' a' ha' ⟨hperformer', hQ'⟩

theorem Phase.isLatestMove_iff :
    p.IsLatestMove tempo id t k m ↔
      ∃ a, IsLatest (Schedule.ofActions tempo p.actions).actions
        (fun a => a.performer = some id ∧ a.endMs < t) k a ∧ a.move = m := by
  constructor
  · rintro ⟨hmade, hended, hlatest⟩
    obtain ⟨a, ha, hperformer, rfl⟩ := hasMove_iff.mp hmade
    refine ⟨a, ⟨ha, ⟨hperformer, hended⟩, ?_⟩, rfl⟩
    intro k' a' ha' hP
    exact endsUpTo_iff.mpr (hlatest k' a'.move (hasMove_iff.mpr ⟨a', ha', hP.1, rfl⟩) hP.2)
  · rintro ⟨a, ⟨ha, ⟨hperformer, hended⟩, hlatest⟩, rfl⟩
    refine ⟨hasMove_iff.mpr ⟨a, ha, hperformer, rfl⟩, hended, ?_⟩
    intro k' m' hmove hended'
    obtain ⟨a', ha', hperformer', rfl⟩ := hasMove_iff.mp hmove
    exact endsUpTo_iff.mp (hlatest k' a' ha' ⟨hperformer', hended'⟩)

theorem Phase.exists_isLastMove (hbusy : ∃ k m, p.HasMove tempo id k m) :
    ∃ k m, p.IsLastMove tempo id (fun _ => True) k m := by
  have hentries := no_move_iff.not.mp (by simpa using hbusy)
  obtain ⟨k, hk⟩ := Schedule.getLast?_entriesOf.mp (List.getLast?_eq_some_getLast hentries)
  simp only [isLastMove_iff, and_true]
  exact ⟨k, _, _, hk, rfl⟩

theorem Phase.exists_isLatestMove (hended : ∃ k m, p.HasMove tempo id k m ∧ m.endMs < t) :
    ∃ k m, p.IsLatestMove tempo id t k m := by
  obtain ⟨a, ha, hlt⟩ := (@exists_move_iff tempo p id fun m => m.endMs < t).mp hended
  obtain ⟨latest, hlatest⟩ := lastEnded?_isSome ha hlt
  obtain ⟨k, hk⟩ := Schedule.lastEnded?_entriesOf.mp hlatest
  exact ⟨k, latest.move, isLatestMove_iff.mpr ⟨latest, hk, rfl⟩⟩

end Entries

section Arriving

variable {α : Type} {arriving : Phase α} {s : Schedule α} {o : CourtObject α}

theorem departingTrack_arriving_of_last (hthere : arriving.object? o.id = none)
    {a : ScheduledAction α}
    (hlast : (s.entriesOf o.id).getLast? = some a) :
    (departingTrack arriving s o).arriving = a.target := by
  rw [← Schedule.getLast?_performedBy] at hlast
  simp only [departingTrack, arrivalOf, hthere, hlast]

theorem departingTrack_arriving_of_idle (hthere : arriving.object? o.id = none)
    (hidle : s.entriesOf o.id = []) :
    (departingTrack arriving s o).arriving = o.position := by
  have hlast := Schedule.getLast?_performedBy s o.id
  rw [hidle] at hlast
  simp only [departingTrack, arrivalOf, hthere, hlast, List.getLast?_nil]

end Arriving

section Rule

variable {tempo : Tempo ℚ} {departing arriving : Phase ℚ} {id : ObjectId} {t : ℚ} {q : Point ℚ}
  {here : CourtObject ℚ}

/-- The track of an object that makes no move leads straight from the one place to the other. -/
theorem positionAt_departingTrack_of_idle
    (hidle : ∀ k m, ¬departing.HasMove tempo here.id k m) (hzero : 0 ≤ t)
    (htotal : t ≤ (Schedule.ofActions tempo departing.actions).totalMs) :
    (departingTrack arriving (Schedule.ofActions tempo departing.actions) here).positionAt
        (Schedule.ofActions tempo departing.actions) t =
      if (Schedule.ofActions tempo departing.actions).totalMs = 0 then here.position
      else here.position.partWay
        (departingTrack arriving (Schedule.ofActions tempo departing.actions) here).arriving
        (t / (Schedule.ofActions tempo departing.actions).totalMs) := by
  apply Track.positionAt_glides _ hzero htotal
  exact (Track.entries_eq_entriesOf rfl).trans (Phase.no_move_iff.mp hidle)

/-- The track of an object leads to the point where the rule puts it. -/
theorem StandsAt.positionAt_eq (hq : StandsAt tempo departing arriving here.id t q)
    (hhere : departing.object? here.id = some here) (hzero : 0 ≤ t)
    (htotal : t ≤ (Schedule.ofActions tempo departing.actions).totalMs) :
    (departingTrack arriving (Schedule.ofActions tempo departing.actions) here).positionAt
      (Schedule.ofActions tempo departing.actions) t = q := by
  cases hq with
  | appears hnone _ =>
      rw [hnone] at hhere
      cases hhere
  | dwells hhere' hidle hdwell =>
      rw [hhere] at hhere'
      cases hhere'
      rw [positionAt_departingTrack_of_idle hidle hzero htotal, if_pos hdwell]
  | glides hhere' hidle hmoving hthere =>
      rw [hhere] at hhere'
      cases hhere'
      rw [positionAt_departingTrack_of_idle hidle hzero htotal, if_neg hmoving,
        departingTrack_arriving_of_there _ hthere]
  | stays hhere' hidle hthere =>
      rw [hhere] at hhere'
      cases hhere'
      rw [positionAt_departingTrack_of_idle hidle hzero htotal,
        departingTrack_arriving_of_idle hthere (Phase.no_move_iff.mp hidle), Point.partWay_self,
        ite_self]
  | waits hhere' hbusy hearly =>
      rw [hhere] at hhere'
      cases hhere'
      have hentries := Phase.no_move_iff.not.mp (by simpa using hbusy)
      exact Track.positionAt_waits rfl hentries fun a ha =>
        not_lt.mpr (Phase.forall_move_iff.mp hearly a ha)
  | arrives hhere' hstarted hover hthere =>
      rw [Track.positionAt_arrives rfl (Phase.exists_move_iff.mp hstarted) fun a ha =>
        not_lt.mpr (Phase.forall_move_iff.mp hover a ha)]
      exact departingTrack_arriving_of_there _ hthere
  | @leaves _ k m hhere' hstarted hover hthere hlast =>
      obtain ⟨a, ha, rfl⟩ := Phase.isLastMove_iff.mp hlast
      simp only [and_true] at ha
      rw [Track.positionAt_arrives rfl (Phase.exists_move_iff.mp hstarted) fun a ha =>
        not_lt.mpr (Phase.forall_move_iff.mp hover a ha)]
      exact departingTrack_arriving_of_last hthere (Schedule.getLast?_entriesOf.mpr ⟨k, ha⟩)
  | @moves _ k m hhere' hstarted hpending hlast =>
      obtain ⟨a, ha, rfl⟩ := Phase.isLastMove_iff.mp hlast
      rw [Track.positionAt_moves rfl (Phase.exists_move_iff.mp hstarted)
        (Phase.exists_move_iff.mp hpending) (Schedule.find?_contains_entriesOf.mpr ⟨k, ha⟩)]
      exact ScheduledAction.positionAt_eq ha.holds.2
  | @rests _ k m hhere' hstarted hpending hpaused hlatest =>
      obtain ⟨a, ha, rfl⟩ := Phase.isLatestMove_iff.mp hlatest
      have hidle : ((Schedule.ofActions tempo departing.actions).entriesOf here.id).reverse.find?
          (·.contains t) = none := by
        rw [List.find?_eq_none]
        intro a' ha'
        rw [ScheduledAction.contains_iff]
        exact Phase.forall_move_iff.mp hpaused a' (List.mem_reverse.mp ha')
      rw [Track.positionAt_rests rfl (Phase.exists_move_iff.mp hstarted)
        (Phase.exists_move_iff.mp hpending) hidle (Schedule.lastEnded?_entriesOf.mpr ⟨k, ha⟩)]
      rfl

theorem StandsAt.of_not_departing (hq : StandsAt tempo departing arriving id t q)
    (hhere : departing.object? id = none) :
    ∃ there, arriving.object? id = some there ∧ q = there.position := by
  cases hq with
  | appears _ hthere => exact ⟨_, hthere, rfl⟩
  | dwells hsome | glides hsome | stays hsome | waits hsome | arrives hsome | leaves hsome
    | moves hsome | rests hsome =>
      rw [hhere] at hsome
      cases hsome

/-- The rule has a point for every object of the departing phase. -/
theorem exists_standsAt (tempo : Tempo ℚ) (arriving : Phase ℚ) (t : ℚ)
    (hhere : departing.object? id = some here) :
    ∃ q, StandsAt tempo departing arriving id t q := by
  by_cases hidle : ∀ k m, ¬departing.HasMove tempo id k m
  · cases hthere : arriving.object? id with
    | none => exact ⟨_, .stays hhere hidle hthere⟩
    | some there =>
        by_cases hdwell : (Schedule.ofActions tempo departing.actions).totalMs = 0
        · exact ⟨_, .dwells hhere hidle hdwell⟩
        · exact ⟨_, .glides hhere hidle hdwell hthere⟩
  · push Not at hidle
    by_cases hearly : ∀ k m, departing.HasMove tempo id k m → t ≤ m.startMs
    · exact ⟨_, .waits hhere hidle hearly⟩
    · push Not at hearly
      by_cases hover : ∀ k m, departing.HasMove tempo id k m → m.endMs ≤ t
      · cases hthere : arriving.object? id with
        | some there => exact ⟨_, .arrives hhere hearly hover hthere⟩
        | none =>
            obtain ⟨k, m, hlast⟩ := Phase.exists_isLastMove hidle
            exact ⟨_, .leaves hhere hearly hover hthere hlast⟩
      · push Not at hover
        cases hactive : ((Schedule.ofActions tempo departing.actions).entriesOf id).reverse.find?
            (·.contains t) with
        | some a =>
            obtain ⟨k, hk⟩ := Schedule.find?_contains_entriesOf.mp hactive
            exact ⟨_, .moves hhere hearly hover (Phase.isLastMove_iff.mpr ⟨a, hk, rfl⟩)⟩
        | none =>
            -- A move has started that is not under way any more, so that one has ended.
            have hpaused : ∀ k m, departing.HasMove tempo id k m → ¬m.Covers t := by
              rw [Phase.forall_move_iff]
              intro a ha hcovers
              have hfind := List.find?_eq_none.mp hactive a (List.mem_reverse.mpr ha)
              exact hfind (ScheduledAction.contains_iff.mpr hcovers)
            obtain ⟨k, m, hmove, hstart⟩ := hearly
            have hended : m.endMs < t := by
              by_contra hend
              exact hpaused k m hmove ⟨hstart.le, not_lt.mp hend⟩
            obtain ⟨k', m', hlatest⟩ := Phase.exists_isLatestMove ⟨k, m, hmove, hended⟩
            exact ⟨_, .rests hhere ⟨k, m, hmove, hstart⟩ hover hpaused hlatest⟩

end Rule

end PlayDiagram
