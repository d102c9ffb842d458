/-!
# Positions in a source text

A position counts the characters before it.  This module finds the line that a position lies on,
its number, and the column of the position on it.  Positions come from outside and may lie beyond
either end of the text: one past the end is as good as the end, and a negative one counts from the
end, except that a column is always reckoned from the position as it was given.

## Main definitions

* `Source.index` -- the place in the text that a position stands for.
* `Source.lineNumber`, `Source.column`, `Source.lineText` -- the line of a position, and where on it
  the position lies.
-/

namespace Rinha

namespace Source

/-- The part of a line that ends at the end of the given text. -/
def lineEnd (before : List Char) : List Char :=
  (before.reverse.takeWhile (· != '\n')).reverse

/-- The place in a text that a position stands for. -/
def index (text : List Char) (position : Int) : Nat :=
  if position < 0 then (position + text.length).toNat else min position.toNat text.length

/-- The text before a position. -/
def before (text : List Char) (position : Int) : List Char :=
  text.take (index text position)

/-- The number of the line that a position lies on, counted from one. -/
def lineNumber (text : List Char) (position : Int) : Nat :=
  (before text position).count '\n' + 1

/-- How many characters precede the line that a position lies on. -/
def lineStart (text : List Char) (position : Int) : Nat :=
  (before text position).length - (lineEnd (before text position)).length

/-- The column of a position on its line, counted from one. -/
def column (text : List Char) (position : Int) : Int :=
  position - lineStart text position + 1

/-- The whole line that a position lies on, without its line feed. -/
def lineText (text : List Char) (position : Int) : List Char :=
  lineEnd (before text position) ++
    (text.drop (index text position)).takeWhile (· != '\n')

end Source

end Rinha
