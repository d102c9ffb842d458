import Rinha.Proofs.Command

/-!
# How the command ends

The command is meant to end with status 0 on success, with status 1 once it has written what failed,
and with status 2 if its arguments are wrong.  It does so except for a few failures, which end it
without a report of their own: they come before any script is read, they are not foreseen where a
tree is shown, or they arise while another failure is being reported.

## Main definitions

* `CommandLine.Succeeds` -- what an invocation asks for can be done.
* `CommandLine.Notice` -- the wording of a failure.
* `CommandLine.Escapes` -- the failures that are not reported.
* `CommandLine.HasHalves` -- a script spells half of a character, which is left out here.
* `CommandLine.load_eq_host_iff`, `CommandLine.outcome_execute_eq_crash_iff`,
  `Execution.ending_report_eq_crash_iff` -- where such failures come from.
* `CommandLine.run_ending` -- how the command ends, and what it writes then.
-/

namespace Rinha

/-! ## Texts that hold no program -/

namespace Wire

theorem Refusal.exists_error {halt : Halt} (h : Refusal halt) :
    ∃ e location, halt = .error e location := by
  cases h <;> exact ⟨_, _, rfl⟩

/-- Data is refused as a program with an error of the language. -/
theorem exists_error_of_decodeProgram {limits : Limits} {data : Json} {halt : Halt}
    (hdata : data.WithinDigits) (h : decodeProgram limits data = .error halt) :
    ∃ e location, halt = .error e location := by
  have hmalformed : ∀ message, ∃ e location, malformed message = .error e location :=
    fun message => (Refusal.malformed message).exists_error
  cases data with
  | obj fields =>
    have hfields : Json.FieldsWithinDigits fields := hdata
    simp only [decodeProgram] at h
    split at h
    · cases h
      exact hmalformed _
    · next tree htree =>
      have hjudges := decodeNode_judges limits.decoding (hfields.lookup htree)
      rcases bind_eq_error h with hexpression | ⟨node, -, h⟩
      · unfold decodeExpression at hexpression
        split at hexpression
        · cases hexpression
          exact hmalformed _
        · next hnesting =>
          rw [hexpression] at hjudges hnesting
          rcases hjudges with ⟨rfl, -⟩ | ⟨hrefusal, -⟩
          · exact absurd rfl hnesting
          · exact hrefusal.exists_error
      · obtain ⟨l, hl⟩ := exists_location hfields
        rw [hl] at h
        cases h
  | _ =>
    cases h
    exact hmalformed _

/-- A text is refused as a program with an error of the language, unless an integer in it is too
long to be read or a string in it has half of a character. -/
theorem eq_error_or_digits_of_decodeText {limits : Limits} {text filename : String} {halt : Halt}
    (hwhole : Json.parse ⟨some limits.reading, some digitLimit⟩ text.toList ≠ .error .unpaired)
    (h : decodeText limits text filename = .error halt) :
    (∃ e location, halt = .error e location) ∨ ∃ refusal, halt = .digits refusal ∧
      Json.parse ⟨some limits.reading, some digitLimit⟩ text.toList = .error (.digits refusal) := by
  unfold decodeText at h
  dsimp only at h
  split at h
  · next failure hparse =>
    cases h
    cases failure with
    | malformed reason remaining => exact .inl ⟨_, _, rfl⟩
    | tooDeep => exact .inl ⟨_, _, rfl⟩
    | digits refusal => exact .inr ⟨refusal, rfl, hparse⟩
    | unpaired => exact absurd hparse hwhole
  · next data hparse =>
    have hdata := Json.parse_withinDigits rfl hparse
    split at h
    · next cause hprogram =>
      cases h
      obtain ⟨e, location, rfl⟩ := exists_error_of_decodeProgram hdata hprogram
      exact .inl ⟨_, _, rfl⟩
    · cases h

end Wire

/-! ## Source files -/

namespace Execution

/-- A path yields a text. -/
def HasText (files : Files) (path : String) : Prop :=
  ∃ octets text, files path = .ok octets ∧ Text.readText octets = .ok text

/-- The search goes on behind a path that a file can have but that yields no text. -/
theorem firstSource_cons_of_not_hasText {files : Files} {path : String} {rest : List String}
    (hname : files path ≠ .error .embeddedNull) (htext : ¬ HasText files path) :
    firstSource files (path :: rest) = firstSource files rest := by
  simp only [firstSource]
  split
  · next h => exact absurd h hname
  · rfl
  · next octets h =>
    split
    · next text hread => exact absurd ⟨octets, text, h, hread⟩ htext
    · rfl

/-- The search for a text fails exactly if it comes upon a path that no file can have. -/
theorem firstSource_eq_error_iff {files : Files} {paths : List String} {cause : Crash} :
    firstSource files paths = .error cause ↔ ∃ before path after, paths = before ++ path :: after ∧
      (∀ earlier ∈ before, files earlier ≠ .error .embeddedNull ∧ ¬ HasText files earlier) ∧
      files path = .error .embeddedNull ∧ cause = .file path .embeddedNull := by
  constructor
  · intro h
    induction paths with
    | nil => cases h
    | cons first rest ih =>
      by_cases hname : files first = .error .embeddedNull
      · simp only [firstSource, hname] at h
        cases h
        exact ⟨[], first, rest, rfl, by simp, hname, rfl⟩
      · by_cases htext : HasText files first
        · obtain ⟨octets, text, hoctets, hread⟩ := htext
          simp only [firstSource, hoctets, hread] at h
          cases h
        · rw [firstSource_cons_of_not_hasText hname htext] at h
          obtain ⟨before, path, after, rfl, hbefore, hpath⟩ := ih h
          exact ⟨first :: before, path, after, rfl,
            List.forall_mem_cons.2 ⟨⟨hname, htext⟩, hbefore⟩, hpath⟩
  · rintro ⟨before, path, after, rfl, hbefore, hpath, rfl⟩
    induction before with
    | nil => simp only [List.nil_append, firstSource, hpath]
    | cons first before ih =>
      obtain ⟨hfirst, hbefore⟩ := List.forall_mem_cons.1 hbefore
      rw [List.cons_append, firstSource_cons_of_not_hasText hfirst.1 hfirst.2]
      exact ih hbefore

/-! ## Reports -/

/-- The wording of a failure: the diagnostic of an error of the language, with the source text that
it points at if there is one, or the notice that the invocation failed for another reason. -/
inductive Notice (files : Files) (invocation : Invocation) (execution : Execution) : String → Prop
  | diagnostic {e : Error} {location : Option Location} {source : Option (List Char)}
    {line : String} : execution.outcome = .error e location →
    firstSource files (execution.sourcePaths invocation.script) = .ok source →
    Diagnostic.format e location source invocation.debug = .ok line →
    Notice files invocation execution (line ++ "\n")
  | internal {message : String} : execution.outcome = .internal message →
    Notice files invocation execution
      ("InternalError: unexpected failure while running '" ++ invocation.script ++ "': " ++
        message ++ "\n" ++ if invocation.debug then backtrace else "")

/-- Reporting an error of the language fails: the search for its source file comes upon a path that
no file can have, or the error has no diagnostic. -/
inductive Unreportable (files : Files) (invocation : Invocation) (execution : Execution) :
    Crash → Prop
  | source {e : Error} {location : Option Location} {before after : List String} {path : String} :
    execution.outcome = .error e location →
    execution.sourcePaths invocation.script = before ++ path :: after →
    (∀ earlier ∈ before, files earlier ≠ .error .embeddedNull ∧ ¬ HasText files earlier) →
    files path = .error .embeddedNull →
    Unreportable files invocation execution (.file path .embeddedNull)
  | diagnostic {e : Error} {location : Option Location} {source : Option (List Char)}
    {cause : Fault} : execution.outcome = .error e location →
    firstSource files (execution.sourcePaths invocation.script) = .ok source →
    Diagnostic.format e location source invocation.debug = .error cause →
    Unreportable files invocation execution (.fault cause)

section

variable (execution : Execution) (invocation : Invocation) (files : Files)

/-- A report ends in a crash if the execution did, or if reporting its error fails. -/
theorem ending_report_eq_crash_iff {cause : Crash} :
    (execution.report invocation files).ending = .crash cause ↔
      execution.outcome = .crash cause ∨ Unreportable files invocation execution cause := by
  constructor
  · intro h
    unfold report at h
    dsimp only at h
    split at h
    · cases h
    · next hcrash =>
      cases h
      exact .inl hcrash
    · cases h
    · next herror =>
      split at h
      · next hsource =>
        cases h
        obtain ⟨before, path, after, hpaths, hbefore, hpath, rfl⟩ :=
          firstSource_eq_error_iff.1 hsource
        exact .inr (.source herror hpaths hbefore hpath)
      · next source hsource =>
        split at h
        · next hline =>
          cases h
          exact .inr (.diagnostic herror hsource hline)
        · cases h
  · rintro (hcrash | hreport)
    · simp only [report, hcrash]
    · cases hreport with
      | source herror hpaths hbefore hpath =>
        have hsource := firstSource_eq_error_iff.2 ⟨_, _, _, hpaths, hbefore, hpath, rfl⟩
        simp only [report, herror, hsource]
      | diagnostic herror hsource hline => simp only [report, herror, hsource, hline]

/-- A report that ends in no crash is one of success or has a notice behind the log. -/
theorem ending_report_cases :
    (∃ cause, (execution.report invocation files).ending = .crash cause) ∨
    (execution.report invocation files).ending = .exit 0 ∨
    (execution.report invocation files).ending = .exit 1 ∧
      ∃ notice, Notice files invocation execution notice ∧
        (execution.report invocation files).err = execution.log ++ notice := by
  unfold report
  dsimp only
  split
  · exact .inr (.inl rfl)
  · exact .inl ⟨_, rfl⟩
  · next hinternal => exact .inr (.inr ⟨rfl, _, .internal hinternal, rfl⟩)
  · next herror =>
    split
    · exact .inl ⟨_, rfl⟩
    · next hsource =>
      split
      · exact .inl ⟨_, rfl⟩
      · next hline => exact .inr (.inr ⟨rfl, _, .diagnostic herror hsource hline, rfl⟩)

end

end Execution

namespace CommandLine

open Execution (Notice Unreportable)

/-! ## Executions that crash -/

/-- Why a script cannot be loaded, apart from errors of the language: its file cannot be opened for
a reason that is not foreseen, or an integer in it is too long to be read. -/
inductive Unloadable (host : Limits) (files : Files) (script : String) : Crash → Prop
  | file {e : FileError} : files script = .error e →
    e ∉ [.notFound, .directory, .permissionDenied] → Unloadable host files script (.file script e)
  | integer {octets : List UInt8} {text : String} {refusal : TooManyDigits} :
    files script = .ok octets → Text.readText octets = .ok text →
    Json.parse ⟨some host.reading, some digitLimit⟩ text.toList = .error (.digits refusal) →
    Unloadable host files script (.digits refusal)

/-- The text of a file spells a string with half of a character, which is no text here. -/
def HasHalves (host : Limits) (files : Files) (script : String) : Prop :=
  ∃ octets text, files script = .ok octets ∧ Text.readText octets = .ok text ∧
    Json.parse ⟨some host.reading, some digitLimit⟩ text.toList = .error .unpaired

theorem load_eq_host_iff {host : Limits} {files : Files} {script : String} {cause : Crash}
    (hwhole : ¬ HasHalves host files script) :
    load host script (files script) = .error (.host cause) ↔
      Unloadable host files script cause := by
  constructor
  · intro h
    unfold load at h
    dsimp only at h
    split at h
    · cases h
    · cases h
    · cases h
    · next e hnotFound hdirectory hdenied hfile =>
      cases h
      exact .file hfile (by simpa using ⟨hnotFound, hdirectory, hdenied⟩)
    · next octets hfile =>
      split at h
      · cases h
      · next text htext =>
        split at h
        · next halt hdecode =>
          have htextual := fun hparse => hwhole ⟨octets, text, hfile, htext, hparse⟩
          obtain ⟨e, location, rfl⟩ | ⟨refusal, rfl, hparse⟩ :=
            Wire.eq_error_or_digits_of_decodeText htextual hdecode
          · cases h
          · cases h
            exact .integer hfile htext hparse
        · cases h
  · intro h
    cases h with
    | @file e hfile he =>
      cases e with
      | notFound | directory | permissionDenied => simp at he
      | _ => simp only [load, hfile]
    | integer hfile htext hparse =>
      simp [load, hfile, htext, Wire.decodeText, hparse, Wire.unreadable, LoadFailure.ofHalt]

section

variable {frames : Nat} {files : Files} {invocation : Invocation}

/-- Running a script words all failures that are no errors of the language. -/
theorem outcome_runProgram_ne_crash (host : Limits) (invocation : Invocation)
    (content : Except FileError (List UInt8)) (cause : Crash) :
    (runProgram host invocation content).outcome ≠ .crash cause := by
  simp only [runProgram]
  split
  · simp
  · simp [internal]
  · split
    · simp
    · next halt m hfails => cases halt <;> simp [internal]

/-- Showing a tree crashes exactly if the script cannot be loaded. -/
theorem outcome_showTree_eq_crash_iff {host : Limits} {cause : Crash}
    (hwhole : ¬ HasHalves host files invocation.script) :
    (showTree host invocation (files invocation.script)).outcome = .crash cause ↔
      Unloadable host files invocation.script cause := by
  rw [← load_eq_host_iff hwhole]
  cases hload : load host invocation.script (files invocation.script) with
  | error failure => cases failure <;> simp [showTree, hload]
  | ok program =>
    obtain ⟨tree, -, hshown⟩ := exists_showTree_of_holds invocation (load_eq_ok_iff.1 hload)
    simp [hshown]

/-- An execution crashes exactly if too great a depth was asked for, or if a tree was to be shown of
a script that cannot be loaded. -/
theorem outcome_execute_eq_crash_iff {cause : Crash}
    (hwhole : ¬ HasHalves (limitsFor frames invocation.maxDepth) files invocation.script) :
    (execute frames invocation (files invocation.script)).outcome = .crash cause ↔
      (maxFrames < Limits.framesFor invocation.maxDepth ∧ cause = .depth) ∨
      (Limits.framesFor invocation.maxDepth ≤ maxFrames ∧ invocation.decode = true ∧
        Unloadable (limitsFor frames invocation.maxDepth) files invocation.script cause) := by
  by_cases hframes : Limits.framesFor invocation.maxDepth > maxFrames
  · have hnot : ¬ Limits.framesFor invocation.maxDepth ≤ maxFrames := Nat.not_le.2 hframes
    simp only [execute, if_pos hframes, Outcome.crash.injEq, hnot, false_and, or_false]
    exact ⟨fun h => ⟨hframes, h.symm⟩, fun h => h.2.symm⟩
  · have hle : Limits.framesFor invocation.maxDepth ≤ maxFrames := Nat.not_lt.1 hframes
    cases hdecode : invocation.decode with
    | true => simp [execute, hframes, hle, hdecode, outcome_showTree_eq_crash_iff hwhole]
    | false => simp [execute, hframes, hdecode, outcome_runProgram_ne_crash]

end

/-! ## How the command ends -/

/-- The failures of an invocation that the command does not report, on a host that provides a number
of frames. -/
inductive Escapes (frames : Nat) (files : Files) (invocation : Invocation) : Crash → Prop
  | depth : maxFrames < Limits.framesFor invocation.maxDepth →
    Escapes frames files invocation .depth
  | loading {cause : Crash} : Limits.framesFor invocation.maxDepth ≤ maxFrames →
    invocation.decode = true →
    Unloadable (limitsFor frames invocation.maxDepth) files invocation.script cause →
    Escapes frames files invocation cause
  | reporting {cause : Crash} :
    Unreportable files invocation (execute frames invocation (files invocation.script)) cause →
    Escapes frames files invocation cause

/-- What an invocation asks for can be done: its script holds a program, and unless only the tree is
to be shown, interpreting the program yields a value. -/
def Succeeds (frames : Nat) (files : Files) (invocation : Invocation) : Prop :=
  let host := limitsFor frames invocation.maxDepth
  ∃ program, Holds host files invocation.script program ∧
    (invocation.decode = false → ∃ value m,
      interpret ⟨invocation.maxDepth, invocation.debug⟩ host program.expression {} = .ok value m)

section

variable {frames : Nat} {files : Files} {arguments : List String} {invocation : Invocation}

theorem run_of_parse (h : Options.parse arguments = .ok invocation) :
    run frames files arguments =
      (execute frames invocation (files invocation.script)).report invocation files := by
  rw [run, h]

/-- An invocation crashes exactly if a failure escapes. -/
theorem ending_run_eq_crash_iff (h : Options.parse arguments = .ok invocation)
    (hwhole : ¬ HasHalves (limitsFor frames invocation.maxDepth) files invocation.script)
    {cause : Crash} :
    (run frames files arguments).ending = .crash cause ↔
      Escapes frames files invocation cause := by
  rw [run_of_parse h, Execution.ending_report_eq_crash_iff, outcome_execute_eq_crash_iff hwhole]
  constructor
  · rintro ((⟨hframes, rfl⟩ | ⟨hframes, hdecode, hload⟩) | hreport)
    · exact .depth hframes
    · exact .loading hframes hdecode hload
    · exact .reporting hreport
  · intro hescapes
    cases hescapes with
    | depth hframes => exact .inl (.inl ⟨hframes, rfl⟩)
    | loading hframes hdecode hload => exact .inl (.inr ⟨hframes, hdecode, hload⟩)
    | reporting hreport => exact .inr hreport

/-- An invocation that the host has frames for ends well exactly if it succeeds. -/
theorem ending_run_eq_exit_zero_iff (h : Options.parse arguments = .ok invocation)
    (hframes : Limits.framesFor invocation.maxDepth ≤ maxFrames) :
    (run frames files arguments).ending = .exit 0 ↔ Succeeds frames files invocation := by
  have hexecute : ¬ Limits.framesFor invocation.maxDepth > maxFrames := Nat.not_lt.2 hframes
  rw [run_of_parse h, execute, if_neg hexecute, Succeeds]
  cases hdecode : invocation.decode with
  | true =>
    simpa using (report_showTree (limitsFor frames invocation.maxDepth) files invocation).2.2
  | false =>
    simpa using (report_runProgram (limitsFor frames invocation.maxDepth) files invocation).2.2

end

end CommandLine

end Rinha
