import Rinha.Binary64.Shortest
import Rinha.Decimal
import Rinha.Number
import Rinha.Text.Quoted

/-!
# Data trees

The data that programs are written in: null, booleans, integers of any size, floating-point numbers,
strings, lists and objects.  An object keeps its fields in the order in which their names first
occur, and each name once.

## Main definitions

* `Json` -- a data tree.
* `Json.typeName` -- the name under which messages refer to a kind of data.
* `Json.field?` -- a field of an object.
* `Json.isTagged`, `Json.tagOrTypeName` -- the type that data carries with it.
* `Json.display` -- the text of data that stands where a name is expected.
* `Json.number?` -- the number that data counts as.
* `Json.same` -- equality of data by value, under which numbers and booleans compare as numbers.
-/

namespace Rinha

/-- A data tree. -/
inductive Json where
  | null
  | bool (value : Bool)
  | int (value : Int)
  | real (value : Binary64)
  | str (value : String)
  | arr (items : List Json)
  | obj (fields : List (String × Json))
  deriving Inhabited

namespace Json

/-- The name under which messages refer to a kind of data. -/
def typeName : Json → String
  | .null => "NoneType"
  | .bool _ => "bool"
  | .int _ => "int"
  | .real _ => "float"
  | .str _ => "str"
  | .arr _ => "list"
  | .obj _ => "dict"

/-- The value of the first field of the given name. -/
def lookup (key : String) : List (String × Json) → Option Json
  | [] => none
  | (name, value) :: rest => if name == key then some value else lookup key rest

/-- Sets a field: in its place if the name is there, at the end otherwise. -/
def insert (key : String) (value : Json) : List (String × Json) → List (String × Json)
  | [] => [(key, value)]
  | (name, old) :: rest =>
    if name == key then (name, value) :: rest else (name, old) :: insert key value rest

/-- A field of an object; other data has no fields. -/
def field? (key : String) : Json → Option Json
  | .obj fields => lookup key fields
  | _ => none

/-- Whether data has parts that can be named: an object has, and a list. -/
def hasParts : Json → Bool
  | .arr _ | .obj _ => true
  | _ => false

/-- Whether data carries a type of its own, as an object with a `type`. -/
def isTagged (data : Json) : Bool :=
  (data.field? "type").isSome

/-- The type that data carries, or else the name of its kind of data. -/
def tagOrTypeName (data : Json) : Json :=
  (data.field? "type").getD (.str data.typeName)

/-- The field that was just set is the one that is found. -/
theorem lookup_insert_self (key : String) (value : Json) (fields : List (String × Json)) :
    lookup key (insert key value fields) = some value := by
  induction fields with
  | nil => simp [insert, lookup]
  | cons field rest ih =>
    by_cases h : field.1 = key
    · simp [insert, lookup, h]
    · simp [insert, lookup, h, ih]

/-- Setting a field leaves every other field as it was. -/
theorem lookup_insert_of_ne {key other : String} (h : other ≠ key) (value : Json)
    (fields : List (String × Json)) :
    lookup other (insert key value fields) = lookup other fields := by
  induction fields with
  | nil => simp [insert, lookup, Ne.symm h]
  | cons field rest ih =>
    by_cases hk : field.1 = key
    · have hne : field.1 ≠ other := fun h' => h (h'.symm.trans hk)
      simp [insert, lookup, hk, Ne.symm h]
    · by_cases ho : field.1 = other <;> simp [insert, lookup, hk, ho, ih, h]

mutual

/-- The text of data as it stands inside a list or an object: strings are quoted there. -/
def shown : Json → Except TooManyDigits String
  | .null => .ok "None"
  | .bool value => .ok (if value then "True" else "False")
  | .int value => decimal value
  | .real value => .ok value.text
  | .str value => .ok (Text.quote value)
  | .arr items => do return "[" ++ ", ".intercalate (← shownItems items) ++ "]"
  | .obj fields => do return "\x7b" ++ ", ".intercalate (← shownFields fields) ++ "\x7d"

/-- The texts of the items of a list. -/
def shownItems : List Json → Except TooManyDigits (List String)
  | [] => .ok []
  | item :: rest => do
    let text ← item.shown
    return text :: (← shownItems rest)

/-- The texts of the fields of an object. -/
def shownFields : List (String × Json) → Except TooManyDigits (List String)
  | [] => .ok []
  | (name, value) :: rest => do
    let text ← value.shown
    return (Text.quote name ++ ": " ++ text) :: (← shownFields rest)

end

/-- The text of data: a string is its own text, other data is written out. -/
def display : Json → Except TooManyDigits String
  | .str value => .ok value
  | data => data.shown

/-- The number that data counts as: a boolean counts as one or zero. -/
def number? : Json → Option Number
  | .bool value => some (.int (if value then 1 else 0))
  | .int value => some (.int value)
  | .real value => some (.real value)
  | _ => none

/-- Data that is a number. -/
def ofNumber : Number → Json
  | .int value => .int value
  | .real value => .real value

/-- Whether data is not-a-number. -/
def isNan : Json → Bool
  | .real .nan => true
  | _ => false

mutual

/-- Equality of data by value: numbers and booleans compare as numbers, lists item by item, and
objects field by field whatever the order. -/
def same : Json → Json → Bool
  | .null, .null => true
  | .bool a, b => sameAsNumber (.int (if a then 1 else 0)) b
  | .int a, b => sameAsNumber (.int a) b
  | .real a, b => sameAsNumber (.real a) b
  | .str a, .str b => a == b
  | .arr as, .arr bs => sameItems as bs
  | .obj as, .obj bs => as.length == bs.length && sameFields as bs
  | _, _ => false
where
  /-- Whether data counts as the given number. -/
  sameAsNumber (n : Number) (data : Json) : Bool :=
    match data.number? with
    | some m => n.equal m
    | none => false

/-- Two lists of one length whose items agree one by one.  Inside a list or an object not-a-number
agrees with itself, although it is equal to no number. -/
def sameItems : List Json → List Json → Bool
  | [], [] => true
  | a :: as, b :: bs => ((a.isNan && b.isNan) || a.same b) && sameItems as bs
  | _, _ => false

/-- Every field of the first object has an equal field in the second. -/
def sameFields : List (String × Json) → List (String × Json) → Bool
  | [], _ => true
  | (name, a) :: as, bs =>
    (match lookup name bs with
      | some b => (a.isNan && b.isNan) || a.same b
      | none => false) && sameFields as bs

end

/-- Whether two items of lists agree. -/
def agrees (a b : Json) : Bool :=
  (a.isNan && b.isNan) || a.same b

end Json

end Rinha
