/-!
# Paths

A path names a file by the directories that lead to it.  Empty and single-dot steps lead nowhere and
are dropped; a double-dot step is kept, since what it leads to depends on the files.

## Main definitions

* `Path` -- a path, absolute or relative.
* `Path.ofString`, `Path.toString` -- its text.
* `Path.parent`, `Path.join` -- the directory that holds it, and a path taken from a directory.
-/

namespace Rinha

/-- A path: its steps, and whether they start at the root. -/
structure Path where
  absolute : Bool
  steps : List String
  deriving DecidableEq, Repr, Inhabited

namespace Path

/-- The parts of a text between slashes. -/
def split (text : List Char) : List (List Char) :=
  text.foldr
    (fun c parts =>
      if c == '/' then [] :: parts
      else
        match parts with
        | [] => [[c]]
        | part :: rest => (c :: part) :: rest)
    [[]]

/-- The path that a text spells. -/
def ofString (text : String) : Path where
  absolute := text.toList.head? == some '/'
  steps := ((split text.toList).filter fun part => part != [] && part != ['.']).map String.ofList

/-- The text of a path; the path without steps is a dot. -/
def toString (path : Path) : String :=
  let steps := "/".intercalate path.steps
  if path.absolute then "/" ++ steps
  else if path.steps.isEmpty then "."
  else steps

/-- The directory that holds a path. -/
def parent (path : Path) : Path :=
  { path with steps := path.steps.dropLast }

/-- A path taken from a directory; an absolute one does not depend on it. -/
def join (directory path : Path) : Path :=
  if path.absolute then path else { directory with steps := directory.steps ++ path.steps }

end Path

end Rinha
