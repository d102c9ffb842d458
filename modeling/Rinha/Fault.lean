import Rinha.Decimal
import Rinha.Text.Quoted

/-!
# Faults of operations on data

A host may ask for an operation on data of its own, and there is not always a result: data of the
wrong kinds, a division by zero, numbers or texts beyond what can be held, a text whose directives
cannot be filled in.

## Main definitions

* `TemplateFault` -- why a text cannot be filled in.
* `Fault` -- why an operation on data has no result.
* `TemplateFault.message`, `Fault.message` -- their wording.
-/

namespace Rinha

/-- Why a text cannot be filled in. -/
inductive TemplateFault where
  /-- A directive finds the data taken already. -/
  | missingData
  /-- No directive takes the data. -/
  | unusedData
  /-- A directive names a field of data that has no parts. -/
  | noParts
  /-- A directive names a field of a list. -/
  | listField
  /-- The name of a field is not closed. -/
  | openName
  /-- The text ends within a directive. -/
  | incomplete
  /-- No directive has this letter, which stands at the given place of the text. -/
  | unknownLetter (letter : Char) (index : Nat)
  /-- The data given for a width or a precision is no integer. -/
  | starNotInteger
  /-- The data given for a width is beyond all widths. -/
  | beyondWidth
  /-- The data given for a precision is beyond all precisions. -/
  | beyondPrecision
  /-- The digits of a width are. -/
  | widthTooBig
  /-- The digits of a precision are. -/
  | precisionTooBig
  /-- An integer of that precision could not be held. -/
  | precisionTooLarge
  /-- A directive for integers was given data of another kind. -/
  | integerRequired (letter : Char) (kind : String)
  /-- A directive for numbers was given data of another kind. -/
  | numberRequired (letter : Char) (kind : String)
  /-- A directive for floating-point numbers was given data of another kind. -/
  | realRequired (kind : String)
  /-- A directive for one character was given something else. -/
  | characterRequired
  /-- A directive for one character was given a number that is none. -/
  | beyondCharacters
  /-- An infinite number has no whole part. -/
  | infinite
  /-- What is not a number has no whole part. -/
  | notANumber
  deriving DecidableEq, Repr, Inhabited

/-- A letter in a message: one outside the plain characters is not shown. -/
def TemplateFault.shownLetter (letter : Char) : Char :=
  if 31 ≤ letter.toNat && letter.toNat ≤ 126 then letter else '?'

/-- The wording of a fault of a text to be filled in. -/
def TemplateFault.message : TemplateFault → String
  | .missingData => "not enough arguments for format string"
  | .unusedData => "not all arguments converted during string formatting"
  | .noParts => "format requires a mapping"
  | .listField => "list indices must be integers or slices, not str"
  | .openName => "incomplete format key"
  | .incomplete => "incomplete format"
  | .unknownLetter letter index =>
    "unsupported format character '" ++ (shownLetter letter).toString ++ "' (0x" ++
      String.ofList (Nat.toDigits 16 letter.toNat) ++ ") at index " ++ toString index
  | .starNotInteger => "* wants int"
  | .beyondWidth => "the width asked for is beyond all widths"
  | .beyondPrecision => "the precision asked for is beyond all precisions"
  | .widthTooBig => "width too big"
  | .precisionTooBig => "precision too big"
  | .precisionTooLarge => "precision too large"
  | .integerRequired letter kind =>
    "%" ++ letter.toString ++ " format: an integer is required, not " ++ kind
  | .numberRequired letter kind =>
    "%" ++ letter.toString ++ " format: a real number is required, not " ++ kind
  | .realRequired kind => "must be real number, not " ++ kind
  | .characterRequired => "%c requires int or char"
  | .beyondCharacters => "%c arg not in range(0x110000)"
  | .infinite => "cannot convert float infinity to integer"
  | .notANumber => "cannot convert float NaN to integer"

/-- Why an operation on data has no result. -/
inductive Fault where
  /-- The operation is not defined on data of these kinds. -/
  | unsupported (symbol left right : String)
  /-- Data of these kinds has no order. -/
  | unordered (symbol left right : String)
  /-- Something was joined with data of another kind. -/
  | unjoinable (kind other : String)
  /-- Something was repeated, and not a whole number of times. -/
  | unrepeatable (count : String)
  /-- A division of integers by zero, or the remainder of one. -/
  | integerByZero (remainder : Bool)
  /-- A division of floating-point numbers by zero, or the remainder of one. -/
  | realByZero (remainder : Bool)
  /-- An integer beyond all floating-point numbers. -/
  | beyondReal
  /-- A number of repetitions beyond all lengths. -/
  | beyondLength
  /-- A text that would be longer than all texts. -/
  | tooLong
  /-- A result that is more than the host can hold. -/
  | memory
  /-- Nothing is kept under a name. -/
  | missing (name : String)
  /-- A text that spells no integer. -/
  | notANumeral (text : String)
  /-- So many values where a pair is expected. -/
  | notAPair (count : Nat)
  /-- A text that cannot be filled in. -/
  | template (cause : TemplateFault)
  /-- A text that would have half of a character. -/
  | unpaired
  /-- An integer that is too long to be converted. -/
  | digits (refusal : TooManyDigits)
  deriving DecidableEq, Repr, Inhabited

/-- The wording of a fault. -/
def Fault.message : Fault → String
  | .unsupported symbol left right =>
    "unsupported operand type(s) for " ++ symbol ++ ": '" ++ left ++ "' and '" ++ right ++ "'"
  | .unordered symbol left right =>
    "'" ++ symbol ++ "' not supported between instances of '" ++ left ++ "' and '" ++ right ++ "'"
  | .unjoinable kind other =>
    "can only concatenate " ++ kind ++ " (not \x22" ++ other ++ "\x22) to " ++ kind
  | .unrepeatable count => "can't multiply sequence by non-int of type '" ++ count ++ "'"
  | .integerByZero remainder =>
    if remainder then "integer modulo by zero" else "integer division or modulo by zero"
  | .realByZero remainder => if remainder then "float modulo" else "float floor division by zero"
  | .beyondReal => "int too large to convert to float"
  | .beyondLength => "cannot fit 'int' into an index-sized integer"
  | .tooLong => "repeated string is too long"
  | .memory => ""
  | .missing name => Text.quote name
  | .notANumeral text => "invalid literal for int() with base 10: " ++ Text.quote text
  | .notAPair count =>
    if 2 < count then "too many values to unpack (expected 2)"
    else "not enough values to unpack (expected 2, got " ++ toString count ++ ")"
  | .template cause => cause.message
  | .unpaired => "half of a character stands without the other half"
  | .digits refusal => refusal.message

end Rinha
