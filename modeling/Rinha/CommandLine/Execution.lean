import Rinha.CommandLine.Files
import Rinha.CommandLine.Options
import Rinha.Diagnostic
import Rinha.Evaluation
import Rinha.Node.Dump
import Rinha.Text.Utf8
import Rinha.Wire

/-!
# Running the command

The command reads a script, decodes it and either shows the tree or runs the program.  What the
program prints goes to one channel; diagnostics, the log of a debugging run and the wording of
failures go to the other.  An error that points at a source file is reported with that file's text
if it can be read.

The work is done in two parts, so that the only files needed are named in advance: `execute` needs
the octets of the script, `Execution.report` the source files that the execution asks for.

## Main definitions

* `Report` -- what is written on the two channels, and how the command ends.
* `Crash` -- the failures that end the command without a report of their own.
* `Execution` -- a finished execution whose outcome has yet to be reported.
* `CommandLine.run` -- the command, from its arguments and the files.
-/

namespace Rinha

/-- A failure that ends the command without a report of its own. -/
inductive Crash where
  /-- An integer is too long to be converted. -/
  | digits (refusal : TooManyDigits)
  /-- A file cannot be opened. -/
  | file (path : String) (e : FileError)
  /-- The depth asked for is more than the host can provide frames for. -/
  | depth
  /-- An operation on data has no result. -/
  | fault (cause : Fault)
  /-- A recursion is nested beyond what the host can follow. -/
  | nesting
  /-- An option was left without its value. -/
  | lostValue
  deriving DecidableEq, Repr

/-- The wording of a failure. -/
def Crash.message : Crash → String
  | .digits refusal => refusal.message
  | .file path e => e.message path
  | .depth => "the depth asked for is more than the host can provide"
  | .fault cause => cause.message
  | .nesting => "maximum recursion depth exceeded"
  | .lostValue => "an option was left without its value"

/-- How the command ends. -/
inductive Ending where
  | exit (status : Nat)
  | crash (cause : Crash)
  deriving DecidableEq, Repr

/-- What the command writes, and how it ends. -/
structure Report where
  out : String := ""
  err : String := ""
  ending : Ending
  deriving DecidableEq, Repr

/-- How an execution came out. -/
inductive Outcome where
  | success
  /-- An error of the language, to be reported with the source text that it points at. -/
  | error (e : Error) (location : Option Location)
  /-- A failure that the command words itself. -/
  | internal (message : String)
  /-- A failure that it does not word. -/
  | crash (cause : Crash)
  deriving DecidableEq, Repr

/-- A finished execution: what was printed, what was logged, and how it came out. -/
structure Execution where
  out : String := ""
  log : String := ""
  outcome : Outcome
  deriving DecidableEq, Repr

namespace CommandLine

/-- Why a script yields no program: an error of the language, or a failure of the host. -/
inductive LoadFailure where
  | error (e : Error) (location : Option Location)
  | host (cause : Crash)
  deriving DecidableEq, Repr

/-- The failure of a script that could not be decoded. -/
def LoadFailure.ofHalt : Halt → LoadFailure
  | .error e location => .error e location
  | .digits refusal | .unworded refusal => .host (.digits refusal)
  | .fault cause => .host (.fault cause)
  | .nesting => .error (.malformedInput "AST is nested too deeply to decode" none) none

/-- The program that a script holds. -/
def load (host : Limits) (path : String) (content : Except FileError (List UInt8)) :
    Except LoadFailure Program :=
  let refused (message : String) : Except LoadFailure Program :=
    .error (.error (.malformedInput message (some path)) none)
  match content with
  | .error .notFound => refused "file not found"
  | .error .directory => refused "is a directory"
  | .error .permissionDenied => refused "permission denied"
  | .error e => .error (.host (.file path e))
  | .ok octets =>
    match Text.readText octets with
    | .error fault => refused ("cannot decode file as UTF-8: " ++ fault.message)
    | .ok text =>
      match Wire.decodeText host text path with
      | .error halt => .error (.ofHalt halt)
      | .ok program => .ok program

/-- A line of the log, which is kept in debugging runs only. -/
def logged (invocation : Invocation) (logger message : String) : String :=
  if invocation.debug then "DEBUG " ++ logger ++ ": " ++ message ++ "\n" else ""

/-- The name under which a program is shown: its own, or that of its script. -/
def shownName (invocation : Invocation) (program : Program) : String :=
  if program.name.isEmpty then invocation.script else program.name

/-- A failure of the host while a program is loaded or run is worded by the command. -/
def internal (cause : Crash) : Outcome :=
  .internal cause.message

/-- The log of a run. -/
def traceLog (trace : Array TraceEntry) : String :=
  trace.foldl (fun log entry => log ++ "DEBUG RinhaInterpreter: " ++ entry.text ++ "\n") ""

/-- Loads a script and shows its tree. -/
def showTree (host : Limits) (invocation : Invocation)
    (content : Except FileError (List UInt8)) : Execution :=
  let log := logged invocation "RinhaDecoder" ("Decoding " ++ invocation.script)
  match load host invocation.script content with
  | .error (.error e location) => { log := log, outcome := .error e location }
  | .error (.host cause) => { log := log, outcome := .crash cause }
  | .ok program =>
    let title := "Program " ++ shownName invocation program ++ "\n"
    match program.expression.dump 1 with
    | .error refusal => { out := title, log := log, outcome := .crash (.digits refusal) }
    | .ok tree => { out := title ++ tree ++ "\n", log := log, outcome := .success }

/-- Loads a script and runs it. -/
def runProgram (host : Limits) (invocation : Invocation)
    (content : Except FileError (List UInt8)) : Execution :=
  let log := logged invocation "RinhaDecoder" ("Decoding " ++ invocation.script)
  match load host invocation.script content with
  | .error (.error e location) => { log := log, outcome := .error e location }
  | .error (.host cause) => { log := log, outcome := internal cause }
  | .ok program =>
    let log := log ++ logged invocation "Rinha"
      ("Decoded program " ++ Text.quote (shownName invocation program))
    let settings : Settings := ⟨invocation.maxDepth, invocation.debug⟩
    match interpret settings host program.expression {} with
    | .ok value m =>
      let finished :=
        logged invocation "Rinha" ("Program finished with a " ++ value.tag ++ " value")
      { out := m.output, log := log ++ traceLog m.trace ++ finished, outcome := .success }
    | .error halt m =>
      let outcome := match halt with
        | .error e location => .error e location
        | .digits refusal | .unworded refusal => internal (.digits refusal)
        | .fault cause => internal (.fault cause)
        | .nesting => internal .nesting
      { out := m.output, log := log ++ traceLog m.trace, outcome := outcome }

/-- The greatest number of frames that a host can provide. -/
def maxFrames : Nat := Nat.pow 2 31 - 1

/-- The limits of a host that provides a number of frames already and has been asked for a given
depth: it never provides less than before. -/
def limitsFor (frames : Nat) (depth : Int) : Limits :=
  .ofFrames (max frames (Limits.framesFor depth))

/-- Carries out an invocation on the octets of its script, on a host that provides a number of
frames. -/
def execute (frames : Nat) (invocation : Invocation)
    (content : Except FileError (List UInt8)) : Execution :=
  if Limits.framesFor invocation.maxDepth > maxFrames then { outcome := .crash .depth }
  else
    let host := limitsFor frames invocation.maxDepth
    if invocation.decode then showTree host invocation content
    else runProgram host invocation content

end CommandLine

namespace Execution

/-- The paths under which the source file that an error points at is looked for: from the directory
of the script, then from the working directory. -/
def sourcePaths (execution : Execution) (script : String) : List String :=
  match execution.outcome with
  | .error _ (some location) =>
    if location.filename.isEmpty then []
    else
      let path := Path.ofString location.filename
      [((Path.ofString script).parent.join path).toString, path.toString]
  | _ => []

/-- The text of the first file that can be read.  A path that no file can have is a failure. -/
def firstSource (files : Files) : List String → Except Crash (Option (List Char))
  | [] => .ok none
  | path :: rest =>
    match files path with
    | .error .embeddedNull => .error (.file path .embeddedNull)
    | .error _ => firstSource files rest
    | .ok octets =>
      match Text.readText octets with
      | .ok text => .ok (some text.toList)
      | .error _ => firstSource files rest

/-- What stands in the log for the trace of a failure that the command words itself. -/
def backtrace : String := "<traceback>\n"

/-- Reports how an execution came out. -/
def report (execution : Execution) (invocation : Invocation) (files : Files) : Report :=
  let finish (err : String) (ending : Ending) : Report :=
    ⟨execution.out, execution.log ++ err, ending⟩
  match execution.outcome with
  | .success => finish "" (.exit 0)
  | .crash cause => finish "" (.crash cause)
  | .internal message =>
    let line := "InternalError: unexpected failure while running '" ++ invocation.script ++ "': " ++
      message ++ "\n"
    finish (line ++ if invocation.debug then backtrace else "") (.exit 1)
  | .error e location =>
    match firstSource files (execution.sourcePaths invocation.script) with
    | .error cause => finish "" (.crash cause)
    | .ok source =>
      match Diagnostic.format e location source invocation.debug with
      | .error cause => finish "" (.crash (.fault cause))
      | .ok line => finish (line ++ "\n") (.exit 1)

end Execution

namespace CommandLine

/-- The report of an answer to the arguments. -/
def reply : Answer → Report
  | .display text => { out := text, ending := .exit 0 }
  | .refuse message =>
    { err := Options.usage ++ "rinha: error: " ++ message ++ "\n", ending := .exit 2 }
  | .lostValue => { ending := .crash .lostValue }

/-- The command, from its arguments and the files, on a host that provides a number of frames. -/
def run (frames : Nat) (files : Files) (arguments : List String) : Report :=
  match Options.parse arguments with
  | .error answer => reply answer
  | .ok invocation =>
    (execute frames invocation (files invocation.script)).report invocation files

end CommandLine

end Rinha
