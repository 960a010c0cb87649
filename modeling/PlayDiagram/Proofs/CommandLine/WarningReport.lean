import Mathlib
import PlayDiagram.Proofs.CommandLine.Calls
import PlayDiagram.Proofs.Play.Warnings

/-!
# The report of warnings

The warnings about a document are printed in one run, in which the name of a phase is written whenever
another phase begins.  Phases are told apart by their identifiers, which are unique in a sound document,
so the report has one block for each phase that is warned about (`Report.warningLines_eq`).
-/

namespace PlayDiagram

namespace Report

/-- The line of a warning. -/
def warningLine (w : Warning) : String :=
  s!"    warning: {w.message}"

/-- What is printed about a phase: its name, and a line for each warning. -/
def warningBlock (p : Phase Float) : Report :=
  s!"  {p.name}" :: p.warnings.map warningLine

/-- Under the heading of a phase its warnings are listed without the name. -/
theorem warningLines_same (p : Phase Float) (ws : List Warning) (rest : List (Phase Float × Warning)) :
    warningLines (some p.id) (ws.map (p, ·) ++ rest) =
      ws.map warningLine ++ warningLines (some p.id) rest := by
  induction ws with
  | nil => rfl
  | cons w ws ih =>
      rw [List.map_cons, List.cons_append, warningLines, if_pos rfl, ih]
      rfl

/-- Under any other heading they form a block of their own. -/
theorem warningLines_block {heading : Option PhaseId} {p : Phase Float} (hother : heading ≠ some p.id)
    (hwarned : p.warnings ≠ []) (rest : List (Phase Float × Warning)) :
    warningLines heading (p.warnings.map (p, ·) ++ rest) =
      warningBlock p ++ warningLines (some p.id) rest := by
  unfold warningBlock
  cases hws : p.warnings with
  | nil => exact absurd hws hwarned
  | cons w ws =>
      rw [List.map_cons, List.cons_append, warningLines, if_neg hother, warningLines_same]
      rfl

/-- Phases of different names that come after the heading are printed as one block each; one without
warnings is left out. -/
theorem warningLines_eq {heading : Option PhaseId} {phases : List (Phase Float)}
    (hphases : phases.Pairwise fun p q => p.id ≠ q.id)
    (hheading : ∀ p ∈ phases, heading ≠ some p.id) :
    warningLines heading (phases.flatMap fun p => p.warnings.map (p, ·)) =
      (phases.filter fun p => !p.warnings.isEmpty).flatMap warningBlock := by
  induction phases generalizing heading with
  | nil => rfl
  | cons p rest ih =>
      obtain ⟨hfirst, hrest⟩ := List.pairwise_cons.mp hphases
      obtain ⟨hother, hothers⟩ := List.forall_mem_cons.mp hheading
      rw [List.flatMap_cons]
      by_cases hwarned : p.warnings = []
      · rw [hwarned, List.filter_cons_of_neg (by simp [hwarned])]
        exact ih hrest hothers
      · have hafter : ∀ q ∈ rest, some p.id ≠ some q.id := fun q hq heq =>
          hfirst q hq (Option.some.inj heq)
        rw [List.filter_cons_of_pos (by simp [hwarned]), List.flatMap_cons,
          warningLines_block hother hwarned, ih hrest hafter]

theorem warningLines_warnings {d : Document Float} (hd : d.IsSound) :
    warningLines none d.warnings =
      (d.phases.filter fun p => !p.warnings.isEmpty).flatMap warningBlock := by
  obtain ⟨-, hphases, -⟩ := (Document.isSound_iff d).mp hd
  exact warningLines_eq (List.pairwise_map.mp hphases) fun p _ hnone => nomatch hnone

/-- The report names the phases that are warned about, or says that there is none. -/
theorem warnings_eq_ite {d : Document Float} (hd : d.IsSound) :
    warnings d =
      if d.warnings = [] then ["  No warnings."]
      else (d.phases.filter fun p => !p.warnings.isEmpty).flatMap warningBlock ++
        ["", "  " ++ plural d.warnings.length "warning"] := by
  rw [← warningLines_warnings hd, warnings]
  cases hwarnings : d.warnings with
  | nil => rfl
  | cons w ws => rw [if_neg (List.cons_ne_nil w ws)]

/-- A report that names phases is not the one that says that there is nothing to name: its count and the
line before it are followed by a line end each. -/
theorem unlines_warnings_eq_iff {d : Document Float} (hd : d.IsSound) :
    Outcome.unlines (warnings d) = "  No warnings.\n" ↔ d.warnings = [] := by
  rw [warnings_eq_ite hd]
  split_ifs with hnone
  · exact iff_of_true rfl hnone
  · refine iff_of_false (fun htext => ?_) hnone
    have hends := Outcome.length_le_count_unlines
      ((d.phases.filter fun p => !p.warnings.isEmpty).flatMap warningBlock ++
        ["", "  " ++ plural d.warnings.length "warning"])
    have hone : "  No warnings.\n".toList.count '\n' = 1 := by decide
    rw [htext, hone, List.length_append, List.length_cons, List.length_singleton] at hends
    omega

end Report

/-- Something is warned about in a phase exactly if one of its actions lacks a receiver. -/
theorem Phase.warnings_isEmpty {α : Type} (p : Phase α) :
    p.warnings.isEmpty = !p.actions.any Action.lacksReceiver := by
  unfold warnings
  rw [List.isEmpty_map, Bool.eq_iff_iff, List.isEmpty_iff, List.filter_eq_nil_iff]
  simp

/-- There are as many warnings as phases that are warned about have actions without a receiver. -/
theorem Document.warnings_length {α : Type} (d : Document α) :
    d.warnings.length = ((d.phases.filter fun p => p.actions.any Action.lacksReceiver).flatMap fun p =>
      p.actions.filter Action.lacksReceiver).length := by
  unfold warnings
  induction d.phases with
  | nil => rfl
  | cons p rest ih =>
      rw [List.flatMap_cons, List.length_append, ih, List.length_map, Phase.warnings, List.length_map,
        List.filter_cons]
      split_ifs with hwarned
      · rw [List.flatMap_cons, List.length_append]
      · rw [Nat.add_eq_right, List.length_eq_zero_iff, List.filter_eq_nil_iff]
        simpa using hwarned

theorem Document.warnings_eq_nil_iff {α : Type} {d : Document α} :
    d.warnings = [] ↔ ∀ p ∈ d.phases, ∀ a ∈ p.actions, a.lacksReceiver = false := by
  rw [warnings_eq, List.map_eq_nil_iff, List.filter_eq_nil_iff]
  constructor
  · intro hnone p hp a ha
    exact Bool.eq_false_iff.mpr (hnone (p, a) (mem_placedActions.mpr ⟨hp, ha⟩))
  · rintro hnone ⟨p, a⟩ hmem
    obtain ⟨hp, ha⟩ := mem_placedActions.mp hmem
    exact Bool.eq_false_iff.mp (hnone p hp a ha)

/-- What is printed about the warnings to an accepted file, and by the check of the same file.  The phases
that are warned about come in their order, each as one block: its name, whatever other phases are
called, and a line for each of its actions that lack a receiver. -/
theorem runCommand_warnings_check {read : FileReader} {path text : String} {d : Document Float}
    (hread : read path = .ok text) (hload : Document.ofText text = .ok d)
    {arguments arguments' : List String} {settings settings' : Settings}
    (hwarnings : readRequest arguments = .ok (.run .warnings settings))
    (hcheck : readRequest arguments' = .ok (.run .check settings'))
    (hpath : settings.file = some path) (hpath' : settings'.file = some path) :
    let unreceived (a : Action Float) : Bool :=
      (a.kind = .pass ∨ a.kind = .handoff) ∧ a.performer ≠ none ∧ a.receiver = none
    let warned := d.phases.filter fun p => p.actions.any unreceived
    let block (p : Phase Float) : Report :=
      ("  " ++ p.name) :: (p.actions.filter unreceived).map fun a =>
        "    warning: " ++ (Warning.mk a.id a.kind).message
    let count := (warned.flatMap fun p => p.actions.filter unreceived).length
    let printed := runCommand read arguments
    (printed.stdout = "  No warnings.\n" ↔
      ∀ p ∈ d.phases, ∀ a ∈ p.actions, unreceived a = false) ∧
    (warned ≠ [] → printed.stdout = Outcome.unlines
      (warned.flatMap block ++ ["", "  " ++ Report.plural count "warning"])) ∧
    printed.code = 0 ∧ printed.stderr = "" ∧
    runCommand read arguments' =
      { code := 0
        stdout := Outcome.unlines
          ([s!"  All checks passed for '{path}'.",
            "  " ++ ", ".intercalate
              [Report.plural d.phases.length "phase",
                Report.plural (d.phases.map (·.objects.length)).sum "object",
                Report.plural (d.phases.map (·.actions.length)).sum "action"]] ++
          if warned = [] then []
          else ["  " ++ Report.plural count "warning" ++ " (run `pb warnings` for details)"])
        stderr := "" } := by
  intro unreceived warned block count printed
  have hd : d.IsSound := Document.ofText_isSound hload
  have hlacks : unreceived = Action.lacksReceiver := by
    funext a
    rw [Bool.eq_iff_iff, Action.lacksReceiver_iff, decide_eq_true_iff]
  have hwarned : warned = d.phases.filter fun p => !p.warnings.isEmpty := by
    simp only [warned, hlacks, Phase.warnings_isEmpty, Bool.not_not]
  have hblock : block = Report.warningBlock := by
    funext p
    simp only [block, hlacks, Report.warningBlock, Phase.warnings, List.map_map]
    rfl
  have hcount : count = d.warnings.length := by
    simp only [count, warned, hlacks, Document.warnings_length]
  have hnone : d.warnings = [] ↔ ∀ p ∈ d.phases, ∀ a ∈ p.actions, unreceived a = false := by
    rw [hlacks]
    exact Document.warnings_eq_nil_iff
  have hnil : warned = [] ↔ d.warnings = [] := by
    simp only [hnone, warned, List.filter_eq_nil_iff, List.any_eq_true, not_exists, not_and,
      Bool.not_eq_true]
  have hreport : runVerb read .warnings settings = .ok (Report.warnings d) := by
    simp only [runVerb, hpath, Option.getD_some, loadFile_eq_ok hread hload, Except.map]
  have hreport' : runVerb read .check settings' = .ok (Report.check path d) := by
    simp only [runVerb, hpath', Option.getD_some, loadFile_eq_ok hread hload, Except.map]
  have hprinted : printed = _ := runCommand_of_report hwarnings hreport
  rw [hprinted]
  refine ⟨(Report.unlines_warnings_eq_iff hd).trans hnone, fun hsome => ?_, rfl, rfl, ?_⟩
  · rw [Report.warnings_eq_ite hd, if_neg (mt hnil.mpr hsome), hwarned, hblock, hcount]
  · rw [runCommand_of_report hcheck hreport', Report.check, hcount]
    simp only [List.length_eq_zero_iff, hnil]
    rfl

/-- Two phases of one name, with a phase between them that nothing is warned about. -/
theorem runCommand_warnings_check_sameName :
    let cone : CourtObject Float :=
      { id := ⟨"A"⟩, kind := .cone, label := none, position := ⟨0, 0⟩, size := 28, width := none
        height := none }
    let gives (name : String) (kind : ActionKind) : Action Float :=
      (Action.freehand ⟨name⟩ kind ⟨0, 0⟩ ⟨0, 0⟩).performedBy ⟨"A"⟩
    let phase (id name : String) (actions : List (Action Float)) : Phase Float :=
      { id := ⟨id⟩, name, objects := [cone], actions, ballOwner := .inherit }
    let d : Document Float := .new .half
      [phase "p1" "Swing" [gives "a1" .pass], phase "p2" "Reset" [gives "a1" .shot],
        phase "p3" "Swing" [gives "h1" .handoff, gives "a1" .pass]]
    let cones := "[[\"A\",\"cone\",null,[0,0]]]"
    let path := "[0,0],[0,0],\"A\""
    let text := "[1,\"half_court\",[" ++
      "[\"p1\",\"Swing\"," ++ cones ++ ",[[\"a1\",\"pass\"," ++ path ++ "]]]," ++
      "[\"p2\",\"Reset\"," ++ cones ++ ",[[\"a1\",\"shot\"," ++ path ++ "]]]," ++
      "[\"p3\",\"Swing\"," ++ cones ++ ",[[\"h1\",\"handoff\"," ++ path ++ "]," ++
        "[\"a1\",\"pass\"," ++ path ++ "]]]]]"
    let read : FileReader := fun _ => .ok text
    Document.ofText text = .ok d ∧
      (runCommand read ["warnings", "play"]).stdout = Outcome.unlines
        ["  Swing",
          "    warning: pass \"a1\" has no receiver; possession stays with the current owner",
          "  Swing",
          "    warning: handoff \"h1\" has no receiver; possession stays with the current owner",
          "    warning: pass \"a1\" has no receiver; possession stays with the current owner",
          "", "  3 warnings"] ∧
      (runCommand read ["check", "play"]).stdout = Outcome.unlines
        ["  All checks passed for 'play'.", "  3 phases, 3 objects, 4 actions",
          "  3 warnings (run `pb warnings` for details)"] := by
  intro cone gives phase d cones path text read
  have hload : Document.ofText text = .ok d := eq_ok_of_toOption (by decide +kernel)
  have hread : read "play" = .ok text := rfl
  have hwarnings : readRequest ["warnings", "play"] =
      .ok (.run .warnings { file := some "play" }) := rfl
  have hchecks : readRequest ["check", "play"] = .ok (.run .check { file := some "play" }) := rfl
  obtain ⟨-, hblocks, -, -, hcheck⟩ :=
    runCommand_warnings_check hread hload hwarnings hchecks rfl rfl
  refine ⟨hload, (hblocks (List.cons_ne_nil _ _)).trans ?_, (congrArg Outcome.stdout hcheck).trans ?_⟩
  · decide +kernel
  · decide +kernel

end PlayDiagram
