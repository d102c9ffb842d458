import Rinha.Binary64.Rounded
import Rinha.Json.Basic
import Rinha.Limits

/-!
# Templates

A text may hold directives, each marked by a percent sign, in whose place data is written.  One
piece of data is at hand: a directive takes it as it is, or, if it names a field, takes that field
of it.  A directive may ask for a width, a precision, a sign and so on, and ends with a letter that
says how the data is written.  Two percent signs stand for one.

## Main definitions

* `Template.Directive`, `Template.directive` -- a directive, and how it is read.
* `Template.written` -- what a directive writes for data.
* `Template.fill` -- a text with its directives filled in.
-/

namespace Rinha

namespace Template

/-- What a directive asks for. -/
structure Directive where
  /-- Room is filled on the right of what is written. -/
  leftAligned : Bool
  /-- A number that is not negative has a plus sign. -/
  plus : Bool
  /-- A number that is not negative has a blank for its sign. -/
  blank : Bool
  /-- A number shows its base, or its point. -/
  explicit : Bool
  /-- Room before a number is filled with zeros. -/
  zeros : Bool
  /-- The least number of characters. -/
  width : Nat
  /-- The least number of digits, the number of places, or the greatest number of characters. -/
  precision : Option Nat
  /-- The letter that says how data is written. -/
  letter : Char

/-- The data that directives take, and whether it is still to be taken. -/
structure Supply where
  data : Json
  fresh : Bool

/-- The data at hand, which can be taken once. -/
def Supply.take (supply : Supply) : Except Fault (Json × Supply) :=
  if supply.fresh then .ok (supply.data, { supply with fresh := false })
  else .error (.template .missingData)

/-- The name of a field in parentheses, which may hold balanced parentheses itself, and the text
after it. -/
def fieldName : Nat → List Char → Option (List Char × List Char)
  | _, [] => none
  | depth, ')' :: rest =>
    match depth with
    | 0 => some ([], rest)
    | depth + 1 => (fieldName depth rest).map fun (name, rest) => (')' :: name, rest)
  | depth, '(' :: rest => (fieldName (depth + 1) rest).map fun (name, rest) => ('(' :: name, rest)
  | depth, c :: rest => (fieldName depth rest).map fun (name, rest) => (c :: name, rest)

/-- The data that a directive starts with: that at hand, or the field that it names. -/
def named (whole : Json) (supply : Supply) : List Char → Except Fault (Supply × List Char)
  | '(' :: rest =>
    if !whole.hasParts then .error (.template .noParts)
    else
      match fieldName 0 rest, whole with
      | none, _ => .error (.template .openName)
      | some (name, rest), .obj fields =>
        match Json.lookup (String.ofList name) fields with
        | some data => .ok (⟨data, true⟩, rest)
        | none => .error (.missing (String.ofList name))
      | some _, _ => .error (.template .listField)
  | text => .ok (supply, text)

/-- The whole number that data is. -/
def whole? : Json → Option Int
  | .int n => some n
  | .bool b => some (if b then 1 else 0)
  | _ => none

/-- The greatest width. -/
def maxWidth : Nat := Nat.pow 2 63 - 1

/-- The greatest precision. -/
def maxPrecision : Nat := Nat.pow 2 31 - 1

/-- A number in a directive: digits, or a star in place of which data is taken.  A number beyond the
greatest is refused, in the words for digits or in those for data. -/
def number (greatest : Nat) (digitsFault dataFault : TemplateFault) (supply : Supply)
    (text : List Char) : Except Fault (Option Int × Supply × List Char) :=
  match text with
  | '*' :: rest => do
    let (data, supply) ← supply.take
    match whole? data with
    | some n =>
      if n > greatest ∨ n < -(greatest : Int) - 1 then .error (.template dataFault)
      else .ok (some n, supply, rest)
    | none => .error (.template .starNotInteger)
  | text =>
    let digits := text.takeWhile Char.isDigit
    let value := digits.foldl (fun n c => 10 * n + (c.toNat - '0'.toNat)) 0
    if value > greatest then .error (.template digitsFault)
    else .ok (if digits.isEmpty then none else some value, supply, text.dropWhile Char.isDigit)

/-- The directive at the start of a text, the data it is for, and the text after it. -/
def directive (whole : Json) (supply : Supply) (text : List Char) :
    Except Fault (Directive × Supply × List Char) := do
  let (supply, text) ← named whole supply text
  let isFlag (c : Char) : Bool := ['-', '+', ' ', '#', '0'].contains c
  let flags := text.takeWhile isFlag
  let (width, supply, text) ←
    number maxWidth .widthTooBig .beyondWidth supply (text.dropWhile isFlag)
  let (precision, supply, text) ← match text with
    | '.' :: rest => do
      let (precision, supply, rest) ←
        number maxPrecision .precisionTooBig .beyondPrecision supply rest
      pure (some (precision.getD 0).toNat, supply, rest)
    | text => pure (none, supply, text)
  let text := match text with
    | 'h' :: rest | 'l' :: rest | 'L' :: rest => rest
    | text => text
  match text with
  | [] => .error (.template .incomplete)
  | letter :: rest =>
    let width := width.getD 0
    .ok ({ leftAligned := flags.contains '-' || width < 0, plus := flags.contains '+',
           blank := flags.contains ' ', explicit := flags.contains '#',
           zeros := flags.contains '0', width := width.natAbs, precision := precision,
           letter := letter }, supply, rest)

/-- The sign of a number that is written without one. -/
def Directive.sign (d : Directive) (negative : Bool) : List Char :=
  if negative then ['-'] else if d.plus then ['+'] else if d.blank then [' '] else []

/-- Fills the room around a text. -/
def Directive.place (d : Directive) (text : List Char) : List Char :=
  let room := List.replicate (d.width - text.length) ' '
  if d.leftAligned then text ++ room else room ++ text

/-- Fills the room around a number, whose sign and mark of base stay in front of zeros. -/
def Directive.placeNumber (d : Directive) (front digits : List Char) : List Char :=
  if d.zeros && !d.leftAligned then
    front ++ List.replicate (d.width - front.length - digits.length) '0' ++ digits
  else d.place (front ++ digits)

/-- The digits of an integer, as many as the precision asks for at least. -/
def Directive.placeInteger (d : Directive) (negative : Bool) (base digits : List Char) :
    List Char :=
  let padded := List.replicate (d.precision.getD 0 - digits.length) '0' ++ digits
  d.placeNumber (d.sign negative ++ if d.explicit then base else []) padded

/-- A text, cut to the precision. -/
def Directive.placeText (d : Directive) (text : List Char) : List Char :=
  d.place (match d.precision with
    | some length => text.take length
    | none => text)

/-- A text in which every character beyond the first 128 is written by its number. -/
def plain (text : List Char) : List Char :=
  text.flatMap fun c =>
    let n := c.toNat
    if n < 0x80 then [c]
    else if n < 0x100 then '\\' :: 'x' :: Text.Quoted.hexDigits 2 n
    else if n < 0x10000 then '\\' :: 'u' :: Text.Quoted.hexDigits 4 n
    else '\\' :: 'U' :: Text.Quoted.hexDigits 8 n

/-- The text of an attempt at a conversion. -/
def converted (text : Except TooManyDigits String) : Except Fault (List Char) :=
  match text with
  | .ok text => .ok text.toList
  | .error refusal => .error (.digits refusal)

/-- The integer that data is, or is cut down to. -/
def integerOf (letter : Char) (data : Json) : Except Fault Int :=
  match data with
  | .real .nan => .error (.template .notANumber)
  | .real x =>
    match x.truncate? with
    | some n => .ok n
    | none => .error (.template .infinite)
  | data =>
    match whole? data with
    | some n => .ok n
    | none => .error (.template (.numberRequired letter data.typeName))

/-- The floating-point number that data is. -/
def realOf (data : Json) : Except Fault Binary64 :=
  match data.number? with
  | some n => n.toReal
  | none => .error (.template (.realRequired data.typeName))

/-- The greatest precision of an integer. -/
def maxDigits : Nat := maxPrecision - 3

/-- The digits of an integer in the place that a directive gives them. -/
def integer (d : Directive) (n : Int) (base digits : List Char) :
    Except Fault (List Char) :=
  if d.precision.getD 0 > maxDigits then .error (.template .precisionTooLarge)
  else .ok (d.placeInteger (n < 0) base digits)

/-- An integer in base sixteen or eight. -/
def inBase (base : Nat) (d : Directive) (data : Json) : Except Fault (List Char) :=
  match whole? data with
  | some n => integer d n ['0', if base = 16 then 'x' else 'o'] (Nat.toDigits base n.natAbs)
  | none => .error (.template (.integerRequired d.letter data.typeName))

/-- The number of places of a floating-point number when a directive does not say. -/
def defaultPlaces : Nat := 6

/-- The precision of a floating-point number.  The greatest one leaves no room for the digit before
the point of the scientific layout, and counts as none there. -/
def Directive.places (d : Directive) (layout : Layout) : Nat :=
  let places := d.precision.getD defaultPlaces
  if layout = .scientific ∧ places = maxPrecision then 0 else places

/-- A floating-point number in the given layout. -/
def real (layout : Layout) (d : Directive) (data : Json) : Except Fault (List Char) := do
  let x ← realOf data
  .ok (d.placeNumber (d.sign x.isNegative) (x.magnitude layout (d.places layout) d.explicit))

/-- One character: a text of one, or the character of a number. -/
def character (d : Directive) (data : Json) : Except Fault (List Char) :=
  match data with
  | .str s =>
    match s.toList with
    | [c] => .ok (d.place [c])
    | _ => .error (.template .characterRequired)
  | data =>
    match whole? data with
    | some n =>
      if 0 ≤ n && n < 0x110000 then .ok (d.place [Char.ofNat n.toNat])
      else .error (.template .beyondCharacters)
    | none => .error (.template .characterRequired)

/-- Upper-case text. -/
def upper (text : Except Fault (List Char)) : Except Fault (List Char) :=
  text.map (·.map Char.toUpper)

/-- What a directive, whose letter stands at the given place of the text, asks to be written for
data. -/
def form (d : Directive) (index : Nat) (data : Json) : Except Fault (List Char) :=
  match d.letter with
  | 's' => do return d.placeText (← converted data.display)
  | 'r' => do return d.placeText (← converted data.shown)
  | 'a' => do return d.placeText (plain (← converted data.shown))
  | 'd' | 'i' | 'u' => do
    let n ← integerOf d.letter data
    integer d n [] (← converted (decimal n.natAbs))
  | 'x' => inBase 16 d data
  | 'X' => upper (inBase 16 d data)
  | 'o' => inBase 8 d data
  | 'e' => real .scientific d data
  | 'E' => upper (real .scientific d data)
  | 'f' => real .positional d data
  | 'F' => upper (real .positional d data)
  | 'g' => real .general d data
  | 'G' => upper (real .general d data)
  | 'c' => character d data
  | letter => .error (.template (.unknownLetter letter index))

/-- What a directive writes for data, if the host has the room that it asks for. -/
def written (d : Directive) (index : Nat) (data : Json) : Except Fault (List Char) :=
  if d.width ≤ Limits.maxHeld then form d index data
  else do
    let _ ← form { d with width := 0 } index data
    .error .memory

/-- A text with its directives filled in, and the data left over.  The text is the end of one of the
given length.  Every step takes up a character at least, so as many steps as there are characters
are enough. -/
def fillFrom (whole : Json) (length : Nat) :
    Nat → Supply → List Char → Except Fault (List Char × Supply)
  | 0, supply, _ | _, supply, [] => .ok ([], supply)
  | steps + 1, supply, '%' :: '%' :: rest => do
    let (text, supply) ← fillFrom whole length steps supply rest
    return ('%' :: text, supply)
  | steps + 1, supply, '%' :: rest => do
    let (d, supply, rest) ← directive whole supply rest
    let (data, supply) ← supply.take
    let inserted ← written d (length - rest.length - 1) data
    let (text, supply) ← fillFrom whole length steps supply rest
    return (inserted ++ text, supply)
  | steps + 1, supply, c :: rest => do
    let (text, supply) ← fillFrom whole length steps supply rest
    return (c :: text, supply)

/-- A text with its directives filled in.  Data that has no parts must have been taken. -/
def fill (text : String) (data : Json) : Except Fault String := do
  let chars := text.toList
  let (filled, supply) ← fillFrom data chars.length chars.length ⟨data, true⟩ chars
  if supply.fresh && !data.hasParts then .error (.template .unusedData)
  else return String.ofList filled

end Template

end Rinha
