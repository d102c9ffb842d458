import Rinha.Decimal

/-!
# Source locations

A node of a program may carry the span of source text that it stands for: a pair of offsets and the
name of the source file.  Offsets are integers; a truth value is accepted in their place, counts as
one or zero, and keeps its own spelling.

## Main definitions

* `Offset` -- a place in a source file, with its number and its text.
* `Location` -- a span of a source file.
* `Location.text` -- a location written with its offsets.
-/

namespace Rinha

/-- A place in a source file: an integer, or a truth value that counts as one. -/
inductive Offset where
  | int (value : Int)
  | bool (value : Bool)
  deriving DecidableEq, Repr, Inhabited

namespace Offset

/-- The number that an offset counts as. -/
def toInt : Offset → Int
  | .int value => value
  | .bool value => if value then 1 else 0

/-- The text of an offset. -/
def text : Offset → Except TooManyDigits String
  | .int value => decimal value
  | .bool value => .ok (if value then "True" else "False")

end Offset

/-- A span of a source file, from one offset up to another. -/
structure Location where
  start : Offset
  stop : Offset
  filename : String
  deriving DecidableEq, Repr, Inhabited

namespace Location

/-- The name under which a source file is shown; one without a name is the input. -/
def shownName (location : Location) : String :=
  if location.filename.isEmpty then "<input>" else location.filename

/-- A location written with its offsets. -/
def text (location : Location) : Except TooManyDigits String := do
  let start ← location.start.text
  let stop ← location.stop.text
  return location.shownName ++ "[" ++ start ++ ".." ++ stop ++ "]"

end Location

end Rinha
