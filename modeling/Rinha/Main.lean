import Rinha.CommandLine.Execution

/-!
# The command

Reads the files that the command asks for and writes what it reports; everything else is decided by
`CommandLine.execute` and `Execution.report`.
-/

namespace Rinha

namespace Terminal

/-- The number of a failure of the system, which may arrive as its negative. -/
def number (code : UInt32) : Nat :=
  if code.toNat < Nat.pow 2 31 then code.toNat else Nat.pow 2 32 - code.toNat

/-- A failure of the system by its number and wording. -/
def numbered (code : UInt32) (text : String) : FileError :=
  match number code with
  | 20 => .notADirectory
  | 21 => .directory
  | 36 => .nameTooLong
  | n => .other n text

/-- The reason for which the system does not read a file. -/
def reason (e : IO.Error) : FileError :=
  match e with
  | .noFileOrDirectory .. => .notFound
  | .permissionDenied .. => .permissionDenied
  | .inappropriateType _ code text | .invalidArgument _ code text
  | .resourceExhausted _ code text => numbered code text
  | .otherError code text => numbered code text
  | e => .other 5 e.toString

/-- The octets of a file, or the reason why it cannot be read. -/
def readFile (path : String) : IO (Except FileError (List UInt8)) := do
  if path.toList.contains '\x00' then return .error .embeddedNull
  try
    let octets ← IO.FS.readBinFile path
    return .ok octets.toList
  catch e => return .error (reason e)

/-- Writes a report on the two channels; the result is the exit status. -/
def emit (report : Report) : IO UInt32 := do
  IO.print report.out
  (← IO.getStdout).flush
  IO.eprint report.err
  match report.ending with
  | .exit status => return status.toUInt32
  | .crash cause =>
    IO.eprintln cause.message
    return 1

/-- The files that have been read, as all the files there are. -/
def filesOf (read : List (String × Except FileError (List UInt8))) : Files := fun path =>
  match read.find? fun entry => entry.1 == path with
  | some entry => entry.2
  | none => .error .notFound

end Terminal

end Rinha

open Rinha in
/-- The command. -/
def main (arguments : List String) : IO UInt32 := do
  match Options.parse arguments with
  | .error answer => Terminal.emit (CommandLine.reply answer)
  | .ok invocation =>
    let content ← Terminal.readFile invocation.script
    let execution := CommandLine.execute Limits.freshFrames invocation content
    let sources ← (execution.sourcePaths invocation.script).mapM fun path => do
      return (path, ← Terminal.readFile path)
    Terminal.emit (execution.report invocation (Terminal.filesOf sources))
