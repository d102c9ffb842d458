import Rinha.Error
import Rinha.Json.Basic
import Rinha.Node.Alike
import Rinha.Text.Numeral

/-!
# Runtime values

The values that programs compute: integers of any size, strings, truth values, pairs and closures.
A closure has an identity of its own, which is all that equality sees of it, and the scope that it
was created in.  A host may also put tagged data of its own into a scope; programs can pass such
data around and print its tag.

## Main definitions

* `Value` -- a runtime value, with `Value.tag`, the name of its type.
* `Value.isTruthy` -- what counts as true in a condition.
* `Value.equal` -- equality of values.
* `Value.alike` -- likeness of values, which looks into functions as well.
* `Value.display` -- the text of a value.
* `Value.ofNumeral`, `Value.ofComponents` -- values as a host spells them out.
-/

namespace Rinha

/-- The number of a scope in the store. -/
abbrev ScopeId := Nat

/-- A runtime value. -/
inductive Value where
  | int (value : Int)
  | str (value : String)
  | bool (value : Bool)
  | tuple (left right : Value)
  | closure (id : Nat) (parameters : List String) (body : Node) (scope : ScopeId)
  | foreign (tag : String) (payload : Json)
  deriving Inhabited

namespace Value

/-- The name of the type of a value. -/
def tag : Value → String
  | .int _ => "Int"
  | .str _ => "Str"
  | .bool _ => "Bool"
  | .tuple .. => "Tuple"
  | .closure .. => "Closure"
  | .foreign tag _ => tag

/-- Everything but the truth value false counts as true. -/
def isTruthy : Value → Bool
  | .bool value => value
  | _ => true

/-- Equality of values: of one type, and equal in content.  Closures are equal only to themselves,
and tagged data compares by value. -/
def equal : Value → Value → Bool
  | .int a, .int b => a == b
  | .str a, .str b => a == b
  | .bool a, .bool b => a == b
  | .tuple a b, .tuple c d => a.equal c && b.equal d
  | .closure a .., .closure b .. => a == b
  | .foreign a x, .foreign b y => a == b && x.same y
  | _, _ => false

/-- Likeness of values: of one type, and of the same content.  Two functions are alike if they are
one, or have the same parameters, like bodies and one scope. -/
def alike : Value → Value → Bool
  | .int a, .int b => a == b
  | .str a, .str b => a == b
  | .bool a, .bool b => a == b
  | .tuple a b, .tuple c d => a.alike c && b.alike d
  | .closure id ps body scope, .closure id' qs body' scope' =>
    id == id' || (ps == qs && body.alike body' && scope == scope')
  | .foreign a x, .foreign b y => a == b && x.agrees y
  | _, _ => false

/-- The text of a value, refused when an integer in it has too many digits. -/
def display : Value → Except TooManyDigits String
  | .str value => .ok value
  | .int value => decimal value
  | .bool value => .ok (if value then "true" else "false")
  | .tuple a b => do
    let left ← a.display
    let right ← b.display
    return "(" ++ left ++ ", " ++ right ++ ")"
  | .closure .. => .ok "<#closure>"
  | .foreign tag _ => .ok ("<" ++ tag ++ ">")

/-- The integer that a numeral spells.  One that is too long is refused as such. -/
def ofNumeral (text : String) : Except Halt Value :=
  match Text.readInteger? digitLimit text, Text.readInteger? text.length text with
  | some value, _ => .ok (.int value)
  | none, some _ =>
    .error (.digits (.reading (text.toList.filter Text.isDecimalDigit).length))
  | none, none => .error (.fault (.notANumeral text))

/-- The pair of given components, of which there must be two. -/
def ofComponents : List Value → Except Halt Value
  | [left, right] => .ok (.tuple left right)
  | items => .error (.fault (.notAPair items.length))

/-- The line that printing a value writes. -/
def printed (value : Value) : Except TooManyDigits String := do
  return (← value.display) ++ "\n"

end Value

end Rinha
