import Rinha.Error
import Rinha.Repetition
import Rinha.Source

/-!
# Diagnostics

A diagnostic is the line that reports an error: its kind and wording, and the place it points at.
When the source text is at hand the place is given by line and column, and the line itself can be
shown with carets under the span; otherwise the place is given by its offsets.  Offsets may lie so
far outside the text that there is no room for the blanks before the carets, or for the carets.

## Main definitions

* `Diagnostic.describe` -- the place that a location points at.
* `Diagnostic.context` -- a line of source text with carets under a span.
* `Diagnostic.contextWithin` -- the same, if there is room for it.
* `Diagnostic.format` -- the report of an error.
-/

namespace Rinha

namespace Diagnostic

/-- Whether a location starts inside a text or at its end. -/
def covers (text : List Char) (location : Location) : Bool :=
  location.start.toInt ≤ text.length

/-- The place that a location points at: by line and column if the source text reaches that far,
by its offsets otherwise. -/
def describe (location : Location) (source : Option (List Char)) :
    Except TooManyDigits String :=
  match source with
  | some text =>
    if covers text location then do
      let line := toString (Source.lineNumber text location.start.toInt)
      let column ← decimal (Source.column text location.start.toInt)
      return location.shownName ++ ":" ++ line ++ ":" ++ column
    else location.text
  | none => location.text

/-- The number of a line, filled up with blanks to the width of the margin. -/
def margin (line : Nat) : List Char :=
  let digits := (toString line).toList
  List.replicate (4 - digits.length) ' ' ++ digits

/-- How many carets mark a span: as many as it has characters on its first line, at least one. -/
def caretCount (lineLength column start : Int) (stop : Option Int) : Nat :=
  match stop with
  | some stop =>
    if start < stop then (max 1 (min (stop - start) (lineLength - column + 1))).toNat else 1
  | none => 1

/-- The line of source text that a span starts on, with carets under the span. -/
def context (text : List Char) (start : Int) (stop : Option Int) : String :=
  let line := Source.lineText text start
  let column := Source.column text start
  let shown := margin (Source.lineNumber text start) ++ [':', ' '] ++ line
  let carets := List.replicate (caretCount line.length column start stop) '^'
  String.ofList (shown ++ ['\n'] ++ List.replicate 6 ' ' ++
    List.replicate (column - 1).toNat ' ' ++ carets)

/-- The line of source text that a span starts on, with carets under the span, if there is room for
the blanks before the carets and for the carets. -/
def contextWithin (text : List Char) (start : Int) (stop : Option Int) : Except Fault String := do
  let line := Source.lineText text start
  let column := Source.column text start
  let _ ← repetitions 1 (column - 1) .tooLong
  let _ ← repetitions 1 (caretCount line.length column start stop) .tooLong
  return context text start stop

/-- Where the host has room for the blanks and the carets, the line is shown. -/
theorem contextWithin_eq {text : List Char} {start : Int} {stop : Option Int}
    (low : -(Limits.maxLength : Int) ≤ Source.column text start)
    (high : Source.column text start ≤ Limits.maxHeld)
    (carets : caretCount (Source.lineText text start).length (Source.column text start) start stop ≤
      Limits.maxHeld) :
    contextWithin text start stop = .ok (context text start stop) := by
  have blanks : repetitions 1 (Source.column text start - 1) .tooLong = .ok _ :=
    repetitions_one (by omega) (by omega) _
  have marks : repetitions 1 (caretCount (Source.lineText text start).length
      (Source.column text start) start stop) .tooLong = .ok _ :=
    repetitions_one (by omega) (by omega) _
  simp only [contextWithin, blanks, marks]
  rfl

/-- The report of an error, on request with the line of source text that it points at. -/
def format (e : Error) (location : Option Location) (source : Option (List Char))
    (showContext : Bool) : Except Fault String :=
  match location with
  | none => .ok e.text
  | some location => do
    let place ← (describe location source).mapError .digits
    let line := e.text ++ " at " ++ place
    match source with
    | some text =>
      if showContext && covers text location then
        let shown ← contextWithin text location.start.toInt (some location.stop.toInt)
        return line ++ "\n" ++ shown
      else return line
    | none => return line

end Diagnostic

end Rinha
