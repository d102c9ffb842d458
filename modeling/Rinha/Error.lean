import Rinha.Fault
import Rinha.Location

/-!
# Failures

Everything that can go wrong is a cause; the wording of a cause is fixed in one place.  A cause may
carry the location of the node at fault.  Beside the errors of the language there are four other
ways for a computation to stop: an integer that is too long to be converted, a depth that is refused
while the refusal cannot be worded, nesting beyond what the host can follow, and an operation that a
host asks for on data of its own and that has no result.

Some wordings hold integers that come from outside.  An error can only be made with integers that
can be written.

## Main definitions

* `Amount` -- what an error may be worded with in the place of a number.
* `Error` -- the errors of the language, with `Error.kind`, `Error.message` and `Error.isRuntime`.
* `Halt` -- every way in which a computation can stop short of a result.
* `Halt.within` -- gives an error the location of a node around it, unless it has one already.
* `Halt.refusal` -- the refusal to nest more deeply than to a given depth.
* `Halt.seen` -- what a host sees of a halt.
-/

namespace Rinha

/-- A number in the wording of an error, or the text that a host gives in place of one. -/
inductive Amount where
  /-- So many items of a list. -/
  | count (length : Nat)
  /-- An integer that can be written. -/
  | number (value : Int) (short : value.natAbs < decimalBound)
  | other (words : String)
  deriving DecidableEq, Repr, Inhabited

instance : Coe Nat Amount := ⟨.count⟩

namespace Amount

/-- An integer in the wording of an error, unless it has too many digits to be written. -/
def ofInt (value : Int) : Except TooManyDigits Amount :=
  if short : value.natAbs < decimalBound then .ok (.number value short) else .error .writing

/-- An integer below the bound is an amount. -/
theorem ofInt_of_lt {value : Int} (h : value.natAbs < decimalBound) :
    ofInt value = .ok (.number value h) :=
  dif_pos h

/-- An integer from the bound on is none. -/
theorem ofInt_of_le {value : Int} (h : decimalBound ≤ value.natAbs) :
    ofInt value = .error .writing :=
  dif_neg (Nat.not_lt.2 h)

/-- How an amount is written. -/
def shown : Amount → String
  | .count length => decimalText length
  | .number value _ => decimalText value
  | .other words => words

/-- What becomes of an integer as an amount is what becomes of it as a text. -/
theorem map_shown_ofInt (value : Int) : (ofInt value).map shown = decimal value := by
  by_cases h : value.natAbs < decimalBound
  · rw [ofInt_of_lt h, decimal_of_lt h]
    rfl
  · have hle : decimalBound ≤ value.natAbs := Nat.not_lt.1 h
    rw [ofInt_of_le hle, (decimal_eq_error_iff value).2 hle]
    rfl

end Amount

/-- The errors of the language. -/
inductive Error where
  /-- A failure that is only described. -/
  | general (message : String)
  /-- A failure of a running program that is only described. -/
  | runtime (message : String)
  /-- A name that no scope in reach binds. -/
  | unboundVariable (name : String)
  /-- A call of a value that is no function. -/
  | notCallable (tag : String)
  /-- A call with the wrong number of arguments. -/
  | wrongArity (expected got : Amount)
  /-- A component taken of a value that is no tuple. -/
  | notATuple (tag projection : String)
  /-- A division by zero. -/
  | divisionByZero (op : String)
  /-- An operator that does not exist, or not for evaluated operands. -/
  | unknownOperator (op : String)
  /-- A kind of node that does not exist. -/
  | unknownNodeKind (kind : String)
  /-- Operands that an operator does not take. -/
  | typeMismatch (op left right : String)
  /-- Evaluation nested beyond the limit. -/
  | stackExhausted (limit : Amount)
  /-- A program that could not be read, with the name of the file it was read from. -/
  | malformedInput (message : String) (path : Option String)
  deriving DecidableEq, Repr, Inhabited

namespace Error

/-- The name of the kind of an error. -/
def kind : Error → String
  | .general _ => "RinhaError"
  | .runtime _ => "RuntimeError"
  | .unboundVariable _ => "UnboundVariable"
  | .notCallable _ => "NotCallable"
  | .wrongArity .. => "WrongArity"
  | .notATuple .. => "NotATuple"
  | .divisionByZero _ => "DivisionByZero"
  | .unknownOperator _ => "UnknownOperator"
  | .unknownNodeKind _ => "UnknownNodeKind"
  | .typeMismatch .. => "TypeMismatch"
  | .stackExhausted _ => "StackExhausted"
  | .malformedInput .. => "MalformedInput"

/-- Whether an error is one of a running program, and not of its reading. -/
def isRuntime : Error → Bool
  | .general _ | .malformedInput .. => false
  | _ => true

/-- The wording of an error. -/
def message : Error → String
  | .general message | .runtime message => message
  | .unboundVariable name => "variable '" ++ name ++ "' is not bound"
  | .notCallable tag => "value of type " ++ tag ++ " is not a function"
  | .wrongArity expected got =>
    "function expects " ++ expected.shown ++ " arguments, got " ++ got.shown
  | .notATuple tag projection => projection ++ " requires a Tuple, got " ++ tag
  | .divisionByZero op => op ++ " by zero"
  | .unknownOperator op => "unknown binary operator '" ++ op ++ "'"
  | .unknownNodeKind kind => "unknown node kind '" ++ kind ++ "'"
  | .typeMismatch op left right => "cannot apply " ++ op ++ " to " ++ left ++ " and " ++ right
  | .stackExhausted limit => "evaluation exceeded the maximum depth of " ++ limit.shown
  | .malformedInput message path =>
    match path with
    | none => message
    | some path => if path.isEmpty then message else path ++ ": " ++ message

/-- An error with the name of its kind. -/
def text (error : Error) : String :=
  error.kind ++ ": " ++ error.message

/-- Names the file that a program was read from, in an error that does not name one yet. -/
def inFile (path : String) : Error → Error
  | .malformedInput message none => .malformedInput message (some path)
  | error => error

end Error

/-- Every way in which a computation can stop short of a result. -/
inductive Halt where
  /-- An error of the language, with the location of the node at fault if that is known. -/
  | error (error : Error) (location : Option Location)
  /-- An integer that is too long to be converted to or from text. -/
  | digits (refusal : TooManyDigits)
  /-- Nesting beyond the depth allowed, where that depth is too long to be written in an error.  A
  host sees only the refusal to convert it. -/
  | unworded (refusal : TooManyDigits)
  /-- Nesting beyond what the host can follow. -/
  | nesting
  /-- An operation on data that has no result. -/
  | fault (cause : Fault)
  deriving DecidableEq, Repr, Inhabited

namespace Halt

/-- An error whose location is not known. -/
def unlocated (e : Error) : Halt :=
  .error e none

/-- An error inside a node: unless it has a location already, it gets that of the node. -/
def within (location : Option Location) : Halt → Halt
  | .error e none => .error e location
  | halt => halt

@[simp] theorem within_digits (location : Option Location) (refusal : TooManyDigits) :
    within location (.digits refusal) = .digits refusal := rfl

@[simp] theorem within_unworded (location : Option Location) (refusal : TooManyDigits) :
    within location (.unworded refusal) = .unworded refusal := rfl

@[simp] theorem within_nesting (location : Option Location) : within location .nesting = .nesting :=
  rfl

@[simp] theorem within_fault (location : Option Location) (cause : Fault) :
    within location (.fault cause) = .fault cause := rfl

@[simp] theorem within_unlocated (location : Option Location) (e : Error) :
    within location (.error e none) = .error e location := rfl

@[simp] theorem within_located (location : Option Location) (e : Error) (l : Location) :
    within location (.error e (some l)) = .error e (some l) := rfl

/-- The refusal to nest more deeply than to an amount, if there is one to word it with. -/
def worded (location : Option Location) : Except TooManyDigits Amount → Halt
  | .ok limit => .error (.stackExhausted limit) location
  | .error refusal => .unworded refusal

/-- The refusal to nest more deeply than to a given depth, at a node with the given location. -/
def refusal (maxDepth : Int) (location : Option Location) : Halt :=
  worded location (Amount.ofInt maxDepth)

/-- A depth that can be written is named in an error. -/
theorem refusal_of_lt {maxDepth : Int} (h : maxDepth.natAbs < decimalBound)
    (location : Option Location) :
    refusal maxDepth location = .error (.stackExhausted (.number maxDepth h)) location :=
  congrArg (worded location) (Amount.ofInt_of_lt h)

/-- A depth that cannot be written leaves the refusal without a wording. -/
theorem refusal_of_le {maxDepth : Int} (h : decimalBound ≤ maxDepth.natAbs)
    (location : Option Location) : refusal maxDepth location = .unworded .writing :=
  congrArg (worded location) (Amount.ofInt_of_le h)

/-- A refusal is either worded or not, whatever its location. -/
theorem refusal_cases (maxDepth : Int) :
    (∃ limit, ∀ location, refusal maxDepth location = .error (.stackExhausted limit) location) ∨
      ∀ location, refusal maxDepth location = .unworded .writing := by
  by_cases h : maxDepth.natAbs < decimalBound
  · exact .inl ⟨_, refusal_of_lt h⟩
  · exact .inr (refusal_of_le (Nat.not_lt.1 h))

@[simp] theorem within_refusal (location : Option Location) (maxDepth : Int) :
    within location (refusal maxDepth none) = refusal maxDepth location := by
  rcases refusal_cases maxDepth with ⟨limit, h⟩ | h <;> simp [h]

@[simp] theorem within_refusal_some (location : Option Location) (maxDepth : Int) (l : Location) :
    within location (refusal maxDepth (some l)) = refusal maxDepth (some l) := by
  rcases refusal_cases maxDepth with ⟨limit, h⟩ | h <;> simp [h]

@[simp] theorem refusal_ne_nesting (maxDepth : Int) (location : Option Location) :
    refusal maxDepth location ≠ .nesting := by
  rcases refusal_cases maxDepth with ⟨limit, h⟩ | h <;> simp [h]

-- The bound on what can be written is too large to be computed with where a refusal is compared.
attribute [irreducible] refusal

/-- What a host sees of a halt: a refusal that could not be worded is any refusal to convert. -/
def seen : Halt → Halt
  | .unworded refusal => .digits refusal
  | halt => halt

/-- A conversion to or from text as a computation that can stop. -/
def ofConversion {α : Type} : Except TooManyDigits α → Except Halt α
  | .ok value => .ok value
  | .error refusal => .error (.digits refusal)

/-- An operation on data as a computation that can stop. -/
def ofOperation {α : Type} : Except Fault α → Except Halt α
  | .ok value => .ok value
  | .error (.digits refusal) => .error (.digits refusal)
  | .error cause => .error (.fault cause)

end Halt

end Rinha
