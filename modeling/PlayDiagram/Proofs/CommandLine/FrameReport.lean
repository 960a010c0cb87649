import PlayDiagram.Proofs.CommandLine.Calls
import PlayDiagram.Proofs.Number.FixedText
import PlayDiagram.Proofs.Playback.GuardedFrames

/-!
# The report of a frame

The time in the heading is clamped by itself, apart from the time that the frame is computed for.  The two
agree for numbers.  What is no number stands for the start in the frame, but is written as it is, so the
report names the instant that it shows exactly if the time is a number (`runCommand_frame_iff_isNumber`).
-/

namespace PlayDiagram

namespace Report

/-- The report of a frame whose time is written as the given text. -/
def frameAtTime (t : Transition Float) (time : String) (shown : Frame Float) : Report :=
  [s!"  {t.departingPhase.text} -> {t.arrivingPhase.text} at " ++
    s!"{time}ms of {fixedText 0 t.schedule.totalMs}ms"] ++
  Table.lines ["Object", "X", "Y"]
    (shown.positions.map fun (id, p) => [id.text, fixedText 1 p.x, fixedText 1 p.y]) ++
  ["  Ball: " ++ shown.ballOwner.elim "nobody" (·.text)]

theorem frame_eq (t : Transition Float) (ms : Float) :
    frame t ms =
      frameAtTime t (fixedText 0 (Scalar.clamp 0 t.schedule.totalMs ms)) (t.frameAt ms) :=
  rfl

/-- What is written before the time depends on the transition only, and the unit follows the time. -/
theorem exists_unlines_frameAtTime (t : Transition Float) :
    ∃ front, ∀ time shown, ∃ back,
      (Outcome.unlines (frameAtTime t time shown)).toList = front ++ (time.toList ++ 'm' :: back) := by
  refine ⟨s!"  {t.departingPhase.text} -> {t.arrivingPhase.text} at ".toList, fun time shown => ?_⟩
  rw [frameAtTime, List.append_assoc, List.singleton_append, Outcome.unlines_cons]
  simp only [String.toList_append, List.append_assoc]
  exact ⟨_, rfl⟩

/-- Equal reports of a transition are written for two numbers, or for none. -/
theorem isNaN_eq_of_frameAtTime_eq {t : Transition Float} {x y : Float} {shown shown' : Frame Float}
    (heq : Outcome.unlines (frameAtTime t (fixedText 0 x) shown) =
      Outcome.unlines (frameAtTime t (fixedText 0 y) shown')) :
    x.isNaN = y.isNaN := by
  obtain ⟨front, htexts⟩ := exists_unlines_frameAtTime t
  obtain ⟨back, htext⟩ := htexts (fixedText 0 x) shown
  obtain ⟨back', htext'⟩ := htexts (fixedText 0 y) shown'
  have htimes : (fixedText 0 x).toList ++ 'm' :: back = (fixedText 0 y).toList ++ 'm' :: back' :=
    List.append_cancel_left (htext.symm.trans ((congrArg String.toList heq).trans htext'))
  have hhead : ∀ (time rest : List Char),
      (time ++ 'm' :: rest).head? = some 'N' ↔ time.head? = some 'N' := by
    intro time rest
    cases time <;> simp
  rw [Bool.eq_iff_iff, ← head?_fixedText_iff 0 x, ← head?_fixedText_iff 0 y, ← hhead _ back, htimes,
    hhead]

section Instants

variable {transition : Transition Float} (htotal : 0 ≤ transition.schedule.totalMs)

include htotal

/-- A number is reported with the instant that it stands for. -/
theorem frame_of_number {ms : Float} (hms : ms.isNaN = false) :
    frame transition ms =
      frameAtTime transition (fixedText 0 (transition.instant ms))
        (transition.frameAt (transition.instant ms)) := by
  obtain ⟨hstart, hend⟩ := Transition.instant_between htotal ms
  have hframe : transition.frameAt (transition.instant ms) = transition.frameAt ms := by
    unfold Transition.frameAt
    rw [Transition.instant_of_between hstart hend]
  rw [frame_eq, hframe, Transition.instant_of_number hms]

/-- What is no number is written as it is, over the frame of the start. -/
theorem frame_of_isNaN {ms : Float} (hms : ms.isNaN = true) :
    frame transition ms = frameAtTime transition "NaN" (transition.frameAt 0) := by
  have hframe : transition.frameAt ms = transition.frameAt 0 := by
    unfold Transition.frameAt
    rw [Transition.instant_of_isNaN hms, Transition.instant_of_between LawfulScalar.zero_le_zero htotal]
  rw [frame_eq, hframe, clamp_of_isNaN _ _ hms, fixedText_of_isNaN 0 hms]

/-- The report names an instant of the transition that it shows exactly if the time is a number. -/
theorem frame_iff_isNumber (ms : Float) :
    (∃ t, 0 ≤ t ∧ t ≤ transition.schedule.totalMs ∧
      Outcome.unlines (frame transition ms) =
        Outcome.unlines (frameAtTime transition (fixedText 0 t) (transition.frameAt t))) ↔
      ms.isNaN = false := by
  constructor
  · rintro ⟨t, hstart, -, hreport⟩
    refine Bool.eq_false_iff.mpr fun hms => ?_
    rw [frame_of_isNaN htotal hms, ← fixedText_of_isNaN 0 hms] at hreport
    rw [isNaN_eq_of_frameAtTime_eq hreport, (isNaN_of_float_le hstart).2] at hms
    cases hms
  · intro hms
    obtain ⟨hstart, hend⟩ := Transition.instant_between htotal ms
    exact ⟨transition.instant ms, hstart, hend,
      congrArg Outcome.unlines (frame_of_number htotal hms)⟩

end Instants

end Report

theorem runVerb_frame {read : FileReader} {path text : String} {d : Document Float}
    (hread : read path = .ok text) (hload : Document.ofText text = .ok d) {settings : Settings}
    (hpath : settings.file = some path) {transition : Transition Float}
    (htransition : (d.compile ⟨{}, (settings.speed.getD .normal).speed⟩).transitions[
      settings.transition.getD 0]? = some transition) :
    runVerb read .frame settings = .ok (Report.frame transition (settings.instant.getD 0)) := by
  simp only [runVerb, hpath, Option.getD_some, loadFile_eq_ok hread hload, reportFrame]
  show reportFrame d (settings.transition.getD 0) _ _ = _
  rw [reportFrame, htransition]

/-- What is printed about one instant of an accepted file.  The time in the heading is that of the instant
whose frame is shown if a number is asked for, however far off; what is no number is printed as it is, over
the frame of the start.  The table lists the objects of either phase once each, in the order of names. -/
theorem runCommand_frame_iff_isNumber {read : FileReader} {path text : String} {d : Document Float}
    (hread : read path = .ok text) (hload : Document.ofText text = .ok d)
    {arguments : List String} {settings : Settings}
    (hcall : readRequest arguments = .ok (.run .frame settings))
    (hpath : settings.file = some path) {transition : Transition Float}
    (htransition : (d.compile ⟨{}, (settings.speed.getD .normal).speed⟩).transitions[
      settings.transition.getD 0]? = some transition) :
    let ms := settings.instant.getD 0
    let total := transition.schedule.totalMs
    let describe (time : String) (t : Float) : String :=
      Outcome.unlines (Report.frameAtTime transition time (transition.frameAt t))
    let printed := runCommand read arguments
    printed.code = 0 ∧ printed.stderr = "" ∧
    ((∃ t, 0 ≤ t ∧ t ≤ total ∧ transition.instant t = t ∧
        printed.stdout = describe (fixedText 0 t) t) ↔ ms.isNaN = false) ∧
    (ms.isNaN = false → printed.stdout =
      describe (fixedText 0 (Scalar.clamp 0 total ms)) (Scalar.clamp 0 total ms)) ∧
    (ms.isNaN = true → printed.stdout = describe "NaN" 0) ∧
    ∃ departing arriving, d.phases[settings.transition.getD 0]? = some departing ∧
      d.phases[settings.transition.getD 0 + 1]? = some arriving ∧
      transition.departingPhase = departing.id ∧ transition.arrivingPhase = arriving.id ∧
      ∀ t, let listed := (transition.frameAt t).positions.map Prod.fst
        listed.Pairwise (· < ·) ∧
        ∀ id, id ∈ listed ↔
          departing.containsObject id = true ∨ arriving.containsObject id = true := by
  intro ms total describe printed
  have hd : d.IsSound := Document.ofText_isSound hload
  have htotal : 0 ≤ total := Document.totalMs_nonneg (List.mem_of_getElem? htransition)
  have hprinted : printed = _ :=
    runCommand_of_report hcall (runVerb_frame hread hload hpath htransition)
  rw [hprinted]
  refine ⟨rfl, rfl, ?_, ?_, ?_, ?_⟩
  · rw [← Report.frame_iff_isNumber htotal ms]
    constructor
    · rintro ⟨t, hstart, hend, -, hreport⟩
      exact ⟨t, hstart, hend, hreport⟩
    · rintro ⟨t, hstart, hend, hreport⟩
      exact ⟨t, hstart, hend, Transition.instant_of_between hstart hend, hreport⟩
  · intro hms
    rw [← Transition.instant_of_number hms]
    exact congrArg Outcome.unlines (Report.frame_of_number htotal hms)
  · intro hms
    exact congrArg Outcome.unlines (Report.frame_of_isNaN htotal hms)
  · obtain ⟨departing, arriving, hdeparting, harriving, hbetween⟩ :=
      Document.exists_between_of_transition htransition
    refine ⟨departing, arriving, hdeparting, harriving, ?_, ?_, fun t => ⟨?_, fun id => ?_⟩⟩
    · rw [hbetween]
      rfl
    · rw [hbetween]
      rfl
    · exact orderByObject_sorted _
    · exact Transition.mem_keys_frameAt (hd.wellFormed hdeparting) hbetween t id

/-! ## A pass at its end, and at no time -/

section Pass

/-- A pass from the one of two players to the other. -/
def passingPlay : Document Float :=
  let player (name : String) (x : Float) : CourtObject Float :=
    { id := ⟨name⟩, kind := .offensePlayer, label := none, position := ⟨x, 7⟩, size := 28
      width := none, height := none }
  let pass := (Action.freehand ⟨"a1"⟩ .pass ⟨5, 7⟩ ⟨2, 7⟩).performedBy ⟨"P1"⟩
  .new .half
    [{ id := ⟨"p1"⟩, name := "", objects := [player "P2" 2, player "P1" 5]
       actions := [pass.receivedBy ⟨"P2"⟩], ballOwner := .owner ⟨"P1"⟩ },
      { id := ⟨"p2"⟩, name := "", objects := [player "P1" 5], actions := [], ballOwner := .inherit }]

/-- The play in the written form that has no keys. -/
def passingText : String :=
  "[1,\"half_court\",[[\"p1\",\"\"," ++
    "[[\"P2\",\"offense_player\",null,[2,7]],[\"P1\",\"offense_player\",null,[5,7]]]," ++
    "[[\"a1\",\"pass\",[5,7],[2,7],\"P1\",\"P2\"]],\"P1\"]," ++
    "[\"p2\",\"\",[[\"P1\",\"offense_player\",null,[5,7]]],[]]]]"

theorem ofText_passingText : Document.ofText passingText = .ok passingPlay :=
  eq_ok_of_toOption (by decide +kernel)

/-- The transition of the play at normal speed. -/
def passingTransition : Transition Float :=
  Transition.between ⟨{}, SpeedPreset.normal.speed⟩ 0 passingPlay.phases[0] passingPlay.phases[1]
    (some ⟨"P1"⟩)

theorem compile_passingPlay :
    (passingPlay.compile ⟨{}, SpeedPreset.normal.speed⟩).transitions[0]? = some passingTransition :=
  rfl

/-- An infinite time stands for the end, when the ball has been passed. -/
theorem runCommand_frame_iff_isNumber_infinite :
    let read : FileReader := fun _ => .ok passingText
    let printed := (runCommand read ["frame", "play", "--at=inf"]).stdout
    let shown : Frame Float :=
      { positions := [(⟨"P1"⟩, ⟨5, 7⟩), (⟨"P2"⟩, ⟨2, 7⟩)], ballOwner := some ⟨"P2"⟩ }
    printed = Outcome.unlines (Report.frameAtTime passingTransition "800" shown) ∧
      ∃ t, 0 ≤ t ∧ t ≤ passingTransition.schedule.totalMs ∧ passingTransition.instant t = t ∧
        printed = Outcome.unlines
          (Report.frameAtTime passingTransition (fixedText 0 t) (passingTransition.frameAt t)) := by
  intro read printed shown
  have hread : read "play" = .ok passingText := rfl
  have hcall : readRequest ["frame", "play", "--at=inf"] =
      .ok (.run .frame { file := some "play", instant := some (1 / 0) }) := rfl
  obtain ⟨-, -, hiff, hnumber, -⟩ :=
    runCommand_frame_iff_isNumber hread ofText_passingText hcall rfl compile_passingPlay
  have hms : ((some (1 / 0) : Option Float).getD 0).isNaN = false := rfl
  have hend : Scalar.clamp 0 passingTransition.schedule.totalMs (1 / 0) = 800 := by decide +kernel
  have htime : fixedText 0 800 = "800" := by decide +kernel
  have hshown : passingTransition.frameAt 800 = shown := by decide +kernel
  refine ⟨(hnumber hms).trans ?_, hiff.mpr hms⟩
  rw [Option.getD_some, hend, htime, ← hshown]

/-- At a time that is no number the owner at the start is shown, but no instant is named. -/
theorem runCommand_frame_notNumber :
    let read : FileReader := fun _ => .ok passingText
    let printed := runCommand read ["frame", "play", "--at=nan"]
    let shown : Frame Float :=
      { positions := [(⟨"P1"⟩, ⟨5, 7⟩), (⟨"P2"⟩, ⟨2, 7⟩)], ballOwner := some ⟨"P1"⟩ }
    Document.ofText passingText = .ok passingPlay ∧
      printed.stdout = Outcome.unlines (Report.frameAtTime passingTransition "NaN" shown) ∧
      ¬∃ t, 0 ≤ t ∧ t ≤ passingTransition.schedule.totalMs ∧
        printed.stdout = Outcome.unlines
          (Report.frameAtTime passingTransition (fixedText 0 t) (passingTransition.frameAt t)) := by
  intro read printed shown
  have hread : read "play" = .ok passingText := rfl
  have hcall : readRequest ["frame", "play", "--at=nan"] =
      .ok (.run .frame { file := some "play", instant := some (0 / 0) }) := rfl
  have hprinted : printed = _ := runCommand_of_report hcall
    (runVerb_frame hread ofText_passingText rfl compile_passingPlay)
  have htotal : 0 ≤ passingTransition.schedule.totalMs := by decide +kernel
  have hms : (0 / 0 : Float).isNaN = true := rfl
  have hshown : passingTransition.frameAt 0 = shown := by decide +kernel
  rw [hprinted, Option.getD_some]
  refine ⟨ofText_passingText, ?_, ?_⟩
  · rw [Report.frame_of_isNaN htotal hms, hshown]
  · rw [Report.frame_iff_isNumber htotal, hms]
    exact Bool.false_ne_true.symm

end Pass

end PlayDiagram
