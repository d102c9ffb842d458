import Rinha.CommandLine.Path
import Rinha.Text.Quoted

/-!
# Files

What the command sees of the file system: opening a path yields the octets of a file or a reason why
not.  A tree of files and directories below the working directory is one such file system.

## Main definitions

* `FileError` -- why a path cannot be read, with the wording of the system.
* `Files` -- what opening each path yields.
* `FileTree` -- the files and directories below the working directory.
* `FileTree.read` -- what opening a path yields there.
-/

namespace Rinha

/-- Why a path cannot be read. -/
inductive FileError where
  /-- Nothing is there. -/
  | notFound
  /-- A directory is there. -/
  | directory
  /-- The path goes through, or ends in a slash after, something that is no directory. -/
  | notADirectory
  /-- The path or one of its steps is too long. -/
  | nameTooLong
  /-- The file may not be read. -/
  | permissionDenied
  /-- The path holds the character that ends names. -/
  | embeddedNull
  /-- Another reason, with its number and the wording of the system. -/
  | other (code : Nat) (reason : String)
  deriving DecidableEq, Repr

/-- The wording of the system for a path that cannot be read. -/
def FileError.message (path : String) : FileError → String
  | .notFound => "[Errno 2] No such file or directory: " ++ Text.quote path
  | .directory => "[Errno 21] Is a directory: " ++ Text.quote path
  | .notADirectory => "[Errno 20] Not a directory: " ++ Text.quote path
  | .nameTooLong => "[Errno 36] File name too long: " ++ Text.quote path
  | .permissionDenied => "[Errno 13] Permission denied: " ++ Text.quote path
  | .embeddedNull => "embedded null byte"
  | .other code reason => "[Errno " ++ toString code ++ "] " ++ reason ++ ": " ++ Text.quote path

/-- What opening each path yields. -/
abbrev Files := String → Except FileError (List UInt8)

/-- The files and directories below the working directory: the steps to each, and the octets of a
file. -/
structure FileTree where
  entries : List (List String × Option (List UInt8))

namespace FileTree

/-- The greatest number of octets of a step of a path. -/
def stepLimit : Nat := 255

/-- The number of octets from which on a path is too long. -/
def pathLimit : Nat := 4096

/-- What is at the end of some steps below the working directory: a file with its octets or a
directory.  A directory exists when something is below it. -/
def find? (tree : FileTree) (steps : List String) : Option (Option (List UInt8)) :=
  if steps.isEmpty then some none
  else
    match tree.entries.find? fun entry => entry.1 == steps with
    | some entry => some entry.2
    | none => if tree.entries.any fun entry => steps.isPrefixOf entry.1 then some none else none

/-- A place that a path leads to: below the working directory, or in a directory outside it. -/
inductive Place where
  | below (steps : List String)
  | outside
  deriving DecidableEq, Repr

/-- One step from a place. -/
def step (tree : FileTree) (place : Place) (name : String) : Except FileError Place :=
  match place with
  | .outside =>
    if name == "" || name == "." || name == ".." then .ok .outside
    else if name.utf8ByteSize > stepLimit then .error .nameTooLong
    else .error .notFound
  | .below steps =>
    match tree.find? steps with
    | none => .error .notFound
    | some (some _) => .error .notADirectory
    | some none =>
      if name == "" || name == "." then .ok place
      else if name == ".." then
        .ok (if steps.isEmpty then .outside else .below steps.dropLast)
      else if name.utf8ByteSize > stepLimit then .error .nameTooLong
      else
        match tree.find? (steps ++ [name]) with
        | none => .error .notFound
        | some _ => .ok (.below (steps ++ [name]))

/-- Several steps from a place. -/
def walk (tree : FileTree) : Place → List String → Except FileError Place
  | place, [] => .ok place
  | place, name :: rest => do tree.walk (← tree.step place name) rest

/-- What opening a path yields. -/
def read (tree : FileTree) : Files := fun path =>
  if path.toList.contains '\x00' then .error .embeddedNull
  else if path.isEmpty then .error .notFound
  else if path.utf8ByteSize ≥ pathLimit then .error .nameTooLong
  else
    let start := if path.toList.head? == some '/' then Place.outside else Place.below []
    match tree.walk start ((Path.split path.toList).map String.ofList) with
    | .error e => .error e
    | .ok .outside => .error .directory
    | .ok (.below steps) =>
      match tree.find? steps with
      | some (some octets) => .ok octets
      | some none => .error .directory
      | none => .error .notFound

end FileTree

end Rinha
