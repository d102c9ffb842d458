import Rinha.CommandLine.Execution
import Rinha.Proofs.Arguments
import Rinha.Proofs.Digits
import Rinha.Proofs.Plan

/-!
# The command agrees with the interpreter

What the command prints is what interpreting the program of the script prints, or what shows its
tree, and nothing else: the log and the wording of failures go to the other channel.  The command
succeeds exactly if all that it was asked for has succeeded.

## Main definitions

* `CommandLine.Holds` -- a file holds a program.
* `CommandLine.report_runProgram`, `CommandLine.report_showTree` -- the reports on running a script
  and on showing its tree.
* `CommandLine.run_agrees` -- the command agrees with the interpreter.
-/

namespace Rinha

/-! ## Reports -/

/-- What an execution has printed is what is reported on the first channel, whatever is reported on
the other. -/
@[simp] theorem Execution.out_report (execution : Execution) (invocation : Invocation)
    (files : Files) : (execution.report invocation files).out = execution.out := by
  unfold report
  dsimp only
  split
  · rfl
  · rfl
  · rfl
  · split
    · rfl
    · split <;> rfl

/-- A success has nothing to add to the log. -/
theorem Execution.err_report_of_success {execution : Execution} (h : execution.outcome = .success)
    (invocation : Invocation) (files : Files) :
    (execution.report invocation files).err = execution.log := by
  simp only [report, h, String.append_empty]

/-- The command ends well exactly after a success. -/
theorem Execution.ending_report_iff (execution : Execution) (invocation : Invocation)
    (files : Files) :
    (execution.report invocation files).ending = .exit 0 ↔ execution.outcome = .success := by
  unfold report
  dsimp only
  split
  · next h => simp [h]
  · next h => simp [h]
  · next h => simp [h]
  · next h =>
    rw [h]
    split
    · simp
    · split <;> simp

namespace CommandLine

/-! ## Loading -/

/-- A file holds a program: it can be read, its octets are text, and the text spells the program. -/
def Holds (host : Limits) (files : Files) (script : String) (program : Program) : Prop :=
  ∃ octets text, files script = .ok octets ∧ Text.readText octets = .ok text ∧
    Wire.decodeText host text script = .ok program

theorem load_eq_ok_iff {host : Limits} {files : Files} {script : String} {program : Program} :
    load host script (files script) = .ok program ↔ Holds host files script program := by
  unfold load Holds
  dsimp only
  split
  · next h => simp [h]
  · next h => simp [h]
  · next h => simp [h]
  · next h => simp [h]
  · next octets h =>
    split
    · next htext => simp [h, htext]
    · next text htext =>
      split
      · next hprogram => simp [h, htext, hprogram]
      · next hprogram => simp [h, htext, hprogram]

/-- Loading fails exactly if the file holds no program. -/
theorem exists_load_eq_error {host : Limits} {files : Files} {script : String}
    (h : ∀ program, ¬ Holds host files script program) :
    ∃ failure, load host script (files script) = .error failure := by
  cases hload : load host script (files script) with
  | error failure => exact ⟨failure, rfl⟩
  | ok program => exact absurd (load_eq_ok_iff.1 hload) (h program)

section

variable {host : Limits} {invocation : Invocation} {content : Except FileError (List UInt8)}
  {program : Program} {failure : LoadFailure}

/-! ## Running a script -/

/-- Running a script prints what interpreting its program prints, and succeeds exactly if that
yields a value. -/
theorem runProgram_of_load (h : load host invocation.script content = .ok program) :
    (runProgram host invocation content).out =
      (Run.machine (interpret ⟨invocation.maxDepth, invocation.debug⟩ host program.expression
        {})).output ∧
    ((runProgram host invocation content).outcome = .success ↔ ∃ value m,
      interpret ⟨invocation.maxDepth, invocation.debug⟩ host program.expression {} =
        .ok value m) := by
  simp only [runProgram, h]
  cases interpret ⟨invocation.maxDepth, invocation.debug⟩ host program.expression {} with
  | ok value m => simp
  | error halt m => cases halt <;> simp [internal]

theorem runProgram_of_load_error (h : load host invocation.script content = .error failure) :
    (runProgram host invocation content).out = "" ∧
      (runProgram host invocation content).outcome ≠ .success := by
  simp only [runProgram, h]
  cases failure <;> simp [internal]

/-! ## Showing the tree of a script -/

/-- Showing the tree of a script succeeds if there is one.  It prints a title and a dump of the
tree, and logs nothing but the decoding. -/
theorem exists_showTree_of_holds (invocation : Invocation) {files : Files}
    (h : Holds host files invocation.script program) :
    ∃ tree, program.expression.dump 1 = .ok tree ∧
      showTree host invocation (files invocation.script) =
        { out := "Program " ++ shownName invocation program ++ "\n" ++ tree ++ "\n",
          log := logged invocation "RinhaDecoder" ("Decoding " ++ invocation.script),
          outcome := .success } := by
  obtain ⟨octets, text, -, -, hdecode⟩ := id h
  obtain ⟨tree, htree⟩ := Wire.exists_dump_of_decodeText hdecode 1
  refine ⟨tree, htree, ?_⟩
  simp only [showTree, load_eq_ok_iff.2 h, htree]

theorem showTree_of_load_error (h : load host invocation.script content = .error failure) :
    (showTree host invocation content).out = "" ∧
      (showTree host invocation content).outcome ≠ .success := by
  simp only [showTree, h]
  cases failure <;> simp

end

/-! ## The command -/

section

variable (host : Limits) (files : Files) (invocation : Invocation)

/-- The report on a script that was run. -/
theorem report_runProgram :
    let interpreted (program : Program) :=
      interpret ⟨invocation.maxDepth, invocation.debug⟩ host program.expression {}
    let report := (runProgram host invocation (files invocation.script)).report invocation files
    (∀ program, Holds host files invocation.script program →
      report.out = (Run.machine (interpreted program)).output) ∧
    ((∀ program, ¬ Holds host files invocation.script program) → report.out = "") ∧
    (report.ending = .exit 0 ↔ ∃ program, Holds host files invocation.script program ∧
      ∃ value m, interpreted program = .ok value m) := by
  intro interpreted report
  refine ⟨fun program hprogram => ?_, fun hnone => ?_, ?_⟩
  · rw [Execution.out_report]
    exact (runProgram_of_load (load_eq_ok_iff.2 hprogram)).1
  · obtain ⟨failure, hload⟩ := exists_load_eq_error hnone
    rw [Execution.out_report]
    exact (runProgram_of_load_error hload).1
  · rw [Execution.ending_report_iff]
    constructor
    · intro hsuccess
      cases hload : load host invocation.script (files invocation.script) with
      | error failure => exact absurd hsuccess (runProgram_of_load_error hload).2
      | ok program =>
        exact ⟨program, load_eq_ok_iff.1 hload, (runProgram_of_load hload).2.1 hsuccess⟩
    · rintro ⟨program, hprogram, hvalue⟩
      exact (runProgram_of_load (load_eq_ok_iff.2 hprogram)).2.2 hvalue

/-- The report on a script whose tree was shown. -/
theorem report_showTree :
    let report := (showTree host invocation (files invocation.script)).report invocation files
    (∀ program, Holds host files invocation.script program →
      ∃ tree, program.expression.dump 1 = .ok tree ∧
        report.out = "Program " ++ shownName invocation program ++ "\n" ++ tree ++ "\n" ∧
        report.err = logged invocation "RinhaDecoder" ("Decoding " ++ invocation.script)) ∧
    ((∀ program, ¬ Holds host files invocation.script program) → report.out = "") ∧
    (report.ending = .exit 0 ↔ ∃ program, Holds host files invocation.script program) := by
  intro report
  refine ⟨fun program hprogram => ?_, fun hnone => ?_, ?_⟩
  · obtain ⟨tree, htree, hshown⟩ := exists_showTree_of_holds invocation hprogram
    refine ⟨tree, htree, ?_, ?_⟩
    · rw [Execution.out_report, hshown]
    · rw [Execution.err_report_of_success (by rw [hshown]), hshown]
  · obtain ⟨failure, hload⟩ := exists_load_eq_error hnone
    rw [Execution.out_report]
    exact (showTree_of_load_error hload).1
  · rw [Execution.ending_report_iff]
    constructor
    · intro hsuccess
      cases hload : load host invocation.script (files invocation.script) with
      | error failure => exact absurd hsuccess (showTree_of_load_error hload).2
      | ok program => exact ⟨program, load_eq_ok_iff.1 hload⟩
    · rintro ⟨program, hprogram⟩
      obtain ⟨tree, -, hshown⟩ := exists_showTree_of_holds invocation hprogram
      rw [hshown]

end

/-- A depth that the host can provide frames for has few digits. -/
theorem natAbs_lt_of_framesFor_le {depth : Int} (hpos : 1 ≤ depth)
    (h : Limits.framesFor depth ≤ maxFrames) : depth.natAbs < 10 ^ digitLimit := by
  have hten : maxFrames < 10 ^ 10 := by decide
  have hlimit : 10 ^ 10 ≤ 10 ^ digitLimit := Nat.pow_le_pow_right (by decide) (by decide)
  have habs : depth.natAbs ≤ Limits.framesFor depth := by
    rw [Limits.framesFor, Limits.framesPerLevel]
    omega
  exact Nat.lt_of_le_of_lt (habs.trans h) (Nat.lt_of_lt_of_le hten hlimit)

/-- **The command agrees with the interpreter.**  Every invocation whose depth the host can provide
for can be asked for, and does what it asks.  Running a script prints exactly what interpreting its
program to that depth prints, however that ends, and nothing if the script holds no program; the
command ends well exactly if there is a program and interpreting it yields a value.  Showing a tree
prints exactly a title and the dump of the tree, and nothing if there is none.  Nothing is logged
then but the decoding, so nothing is evaluated, and the command ends well exactly if there is a
program. -/
theorem run_agrees (frames : Nat) (files : Files) {invocation : Invocation}
    (hpos : 1 ≤ invocation.maxDepth)
    (hframes : Limits.framesFor invocation.maxDepth ≤ maxFrames) :
    (∃ arguments, Options.parse arguments = .ok invocation) ∧
    ∀ arguments, Options.parse arguments = .ok invocation →
      let host := limitsFor frames invocation.maxDepth
      let interpreted (program : Program) :=
        interpret ⟨invocation.maxDepth, invocation.debug⟩ host program.expression {}
      let report := run frames files arguments
      (invocation.decode = false →
        (∀ program, Holds host files invocation.script program →
          report.out = (Run.machine (interpreted program)).output) ∧
        ((∀ program, ¬ Holds host files invocation.script program) → report.out = "") ∧
        (report.ending = .exit 0 ↔ ∃ program, Holds host files invocation.script program ∧
          ∃ value m, interpreted program = .ok value m)) ∧
      (invocation.decode = true →
        (∀ program, Holds host files invocation.script program →
          ∃ tree, program.expression.dump 1 = .ok tree ∧
            report.out = "Program " ++ shownName invocation program ++ "\n" ++ tree ++ "\n" ∧
            report.err = logged invocation "RinhaDecoder" ("Decoding " ++ invocation.script)) ∧
        ((∀ program, ¬ Holds host files invocation.script program) → report.out = "") ∧
        (report.ending = .exit 0 ↔ ∃ program, Holds host files invocation.script program)) := by
  have hdigits := natAbs_lt_of_framesFor_le hpos hframes
  refine ⟨(Options.exists_parse_iff hdigits).2 hpos, fun arguments hparse => ?_⟩
  have hrun : run frames files arguments =
      (execute frames invocation (files invocation.script)).report invocation files := by
    rw [run, hparse]
  have hexecute : ¬ Limits.framesFor invocation.maxDepth > maxFrames := Nat.not_lt.2 hframes
  simp only [hrun, execute, if_neg hexecute]
  refine ⟨fun hdecode => ?_, fun hdecode => ?_⟩
  · rw [hdecode]
    exact report_runProgram (limitsFor frames invocation.maxDepth) files invocation
  · rw [hdecode]
    exact report_showTree (limitsFor frames invocation.maxDepth) files invocation

/-- The text of a program that prints a text. -/
def printing : String :=
  "\x7b\"expression\":\x7b\"kind\":\"Print\",\"value\":\"a\"\x7d\x7d"

/-- A program that prints a text, run under debugging. -/
theorem run_agrees_printing :
    let files : Files := fun path =>
      if path = "a.json" then .ok (printing.toList.map fun c => c.toNat.toUInt8)
      else .error .notFound
    let report := run Limits.freshFrames files ["--debug", "a.json"]
    report.out = "a\n" ∧ report.ending = .exit 0 := by
  intro files report
  let invocation : Invocation := { script := "a.json", debug := true }
  let host : Limits := limitsFor Limits.freshFrames defaultMaxDepth
  have hparse : Json.parse ⟨some host.reading, some digitLimit⟩ printing.toList =
      .ok (.obj [("expression", .obj [("kind", .str "Print"), ("value", .str "a")])]) := by
    with_unfolding_all rfl
  have hread : Text.readText (printing.toList.map fun c => c.toNat.toUInt8) = .ok printing := by rfl
  have hprogram : Holds host files "a.json" ⟨"", .print (.str "a" none) none, none⟩ :=
    ⟨_, printing, rfl, hread, Wire.decodeText_of_parse hparse (by rfl)⟩
  have houtput : (Run.machine (interpret ⟨defaultMaxDepth, true⟩ host
      (.print (.str "a" none) none) {})).output = "a\n" := by with_unfolding_all rfl
  have hvalue : ∃ value m, interpret ⟨defaultMaxDepth, true⟩ host (.print (.str "a" none) none) {} =
      .ok value m :=
    ⟨.str "a", _, by with_unfolding_all rfl⟩
  have hpos : 1 ≤ invocation.maxDepth := by decide
  obtain ⟨-, hagrees⟩ := run_agrees Limits.freshFrames files hpos (by decide)
  obtain ⟨hout, -, hending⟩ := (hagrees ["--debug", "a.json"] (by rfl)).1 rfl
  exact ⟨(hout _ hprogram).trans houtput, hending.2 ⟨_, hprogram, hvalue⟩⟩

end CommandLine

end Rinha
