import PlayDiagram.CommandLine.Run
import PlayDiagram.Proofs.Wire.SaveLoad

/-!
# Calls that succeed

A call whose command reports something prints the lines of the report and nothing else
(`runCommand_of_report`).  A command that is given a file reports about the document in it, which is
sound.
-/

namespace PlayDiagram

theorem eq_ok_of_toOption {ε β : Type} {e : Except ε β} {b : β} (hsome : e.toOption = some b) :
    e = .ok b := by
  cases e with
  | error reason => cases hsome
  | ok b' => exact congrArg Except.ok (Option.some.inj hsome)

theorem Document.ofText_isSound {text : String} {d : Document Float} (hload : ofText text = .ok d) :
    d.IsSound := by
  unfold ofText at hload
  split at hload
  · cases hload
  · split at hload
    · cases hload
      exact (ofJson_eq_ok_iff.mp ‹_›).2
    · cases hload

theorem loadFile_eq_ok {read : FileReader} {path text : String} {d : Document Float}
    (hread : read path = .ok text) (hload : Document.ofText text = .ok d) :
    loadFile read path = .ok d := by
  simp only [loadFile, hread, hload]

/-- A call prints the report of its command. -/
theorem runCommand_of_report {read : FileReader} {arguments : List String} {verb : Verb}
    {settings : Settings} {report : Report}
    (hcall : readRequest arguments = .ok (.run verb settings))
    (hreport : runVerb read verb settings = .ok report) :
    runCommand read arguments =
      { code := 0, stdout := Outcome.unlines report, stderr := "" } := by
  simp only [runCommand, perform, hcall, hreport, Outcome.ofResult]

namespace Outcome

@[simp] theorem unlines_cons (line : String) (rest : List String) :
    unlines (line :: rest) = line ++ "\n" ++ unlines rest := by
  unfold unlines
  rw [List.map_cons, String.join_cons]

/-- A text has at least as many line ends as lines are printed. -/
theorem length_le_count_unlines (lines : List String) :
    lines.length ≤ (unlines lines).toList.count '\n' := by
  induction lines with
  | nil => exact Nat.zero_le _
  | cons line rest ih =>
      have hend : "\n".toList.count '\n' = 1 := rfl
      rw [unlines_cons, String.toList_append, String.toList_append, List.count_append,
        List.count_append, hend, List.length_cons]
      omega

end Outcome

end PlayDiagram
