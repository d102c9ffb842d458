import Rinha.Content

/-!
# Operations on values

The operators that take two evaluated operands.  Comparisons and arithmetic each form a family: a
member has a name for its errors, the types that it accepts on both sides, and, for arithmetic,
whether a zero on the right is an error.  The operators of the language are members that accept
integers, or integers and strings; a host may make members that accept data of its own.

## Main definitions

* `Comparison`, `Comparison.apply` -- ordering two operands of one accepted type.
* `Arithmetic`, `Arithmetic.apply` -- combining two operands of one accepted type.
* `Comparison.result`, `Arithmetic.result` -- what they yield for data of a host, which need not be
  a value of the language.
* `Operator.apply` -- the meaning of the operators of the language; the two connectives are absent,
  since they do not always evaluate both operands.
-/

namespace Rinha

/-- Operands of types that an operator does not take. -/
def mismatch (op : String) (x y : Value) : Error :=
  .typeMismatch op x.tag y.tag

/-- The result of a function at the contents of two values.  Functions have no content. -/
def Value.apply (f : BinaryFunction) (x y : Value) : Except Fault Content :=
  match x.content?, y.content? with
  | some x, some y => x.apply f y
  | _, _ => .error (.missing "value")

/-- Two integers are compared by size. -/
@[simp] theorem Value.apply_relation_int (r : Relation) (a b : Int) :
    Value.apply (.relation r) (.int a) (.int b) = .ok (.data (.bool (r.holds (compare a b)))) := by
  simp [Value.apply, Value.content?, Content.apply, Json.apply, Json.holds, Json.number?,
    Number.holds, Number.order?, Bind.bind, Except.bind, Pure.pure, Except.pure]

/-- Two strings are compared by their code points. -/
@[simp] theorem Value.apply_relation_str (r : Relation) (s t : String) :
    Value.apply (.relation r) (.str s) (.str t) = .ok (.data (.bool (r.holds (compare s t)))) := by
  simp [Value.apply, Value.content?, Content.apply, Json.apply, Json.holds, Bind.bind, Except.bind,
    Pure.pure, Except.pure]

/-- Two integers are combined by the function itself, except that nothing is divided by zero. -/
theorem Value.apply_arithmetic_int {f : ArithmeticFunction} {b : Int}
    (h : f.divides = true → b ≠ 0) (a : Int) :
    Value.apply (.arithmetic f) (.int a) (.int b) = .ok (.data (.int (f.onInt a b))) := by
  have hb : (f.divides && b == 0) = false := by
    cases hf : f.divides <;> simp_all
  simp [Value.apply, Value.content?, Content.apply, Json.apply, Json.combine, Json.number?,
    ArithmeticFunction.onNumbers, hb, Json.ofNumber, Bind.bind, Except.bind, Pure.pure,
    Except.pure]

/-- Content under a type as the value that it is; the language has no other results. -/
def Halt.ofTagged (tagged : Tagged) : Except Halt Value :=
  match tagged.value? with
  | some value => .ok value
  | none => .error (.fault (.missing tagged.tag))

/-- A comparison of operands of one type: whatever its function yields is taken for a truth
value. -/
structure Comparison where
  function : BinaryFunction
  name : String
  accepted : List String := ["Int", "Str"]

/-- What a comparison yields for two operands, which must be of one accepted type. -/
def Comparison.result (op : Comparison) (x y : Value) : Except Halt Tagged :=
  if x.tag ≠ y.tag ∨ x.tag ∉ op.accepted then .error (.unlocated (mismatch op.name x y))
  else do return ⟨"Bool", ← Halt.ofOperation (x.apply op.function y)⟩

/-- Compares two operands, which must be of one accepted type. -/
def Comparison.apply (op : Comparison) (x y : Value) : Except Halt Value := do
  Halt.ofTagged (← op.result x y)

/-- An arithmetic operation on operands of one type: whatever its function yields is taken to be of
that type. -/
structure Arithmetic where
  function : BinaryFunction
  name : String
  accepted : List String := ["Int"]
  /-- Whether a zero on the right is an error. -/
  rejectsZero : Bool := false

/-- A value that counts as zero on the right of an operation. -/
def Value.isZero (x : Value) : Bool :=
  x.content?.any Content.isZero

@[simp] theorem Value.isZero_int (a : Int) : Value.isZero (.int a) = decide (a = 0) := by
  have h : (compare a 0 == Ordering.eq) = decide (a = 0) := by
    by_cases ha : a = 0
    · simp [ha]
    · have hc : compare a 0 ≠ Ordering.eq := fun h => ha (Int.compare_eq_eq.1 h)
      simp [ha]
  simp [Value.isZero, Value.content?, Content.isZero, Json.same, Json.same.sameAsNumber,
    Json.number?, Number.equal, Number.order?, h]

/-- What an arithmetic operation yields for two operands, which must be of one accepted type. -/
def Arithmetic.result (op : Arithmetic) (x y : Value) : Except Halt Tagged :=
  if x.tag ≠ y.tag ∨ x.tag ∉ op.accepted then .error (.unlocated (mismatch op.name x y))
  else if op.rejectsZero && y.isZero then .error (.unlocated (.divisionByZero op.name))
  else do return ⟨x.tag, ← Halt.ofOperation (x.apply op.function y)⟩

/-- Combines two operands, which must be of one accepted type. -/
def Arithmetic.apply (op : Arithmetic) (x y : Value) : Except Halt Value := do
  Halt.ofTagged (← op.result x y)

/-- Addition: a string on either side makes it the joining of the two texts, two integers are
added, and nothing else is. -/
def Value.add (x y : Value) : Except Halt Value :=
  match x, y with
  | .int a, .int b => .ok (.int (a + b))
  | .str _, _ | _, .str _ => do
    let left ← Halt.ofConversion x.display
    let right ← Halt.ofConversion y.display
    return .str (left ++ right)
  | _, _ => .error (.unlocated (mismatch Operator.add.name x y))

/-- The arithmetic operation that an operator stands for. -/
def Operator.arithmetic? : Operator → Option Arithmetic
  | .sub => some { function := .arithmetic .sub, name := Operator.sub.name }
  | .mul => some { function := .arithmetic .mul, name := Operator.mul.name }
  | .div =>
    some { function := .arithmetic .floorDiv, name := Operator.div.name, rejectsZero := true }
  | .rem =>
    some { function := .arithmetic .floorMod, name := Operator.rem.name, rejectsZero := true }
  | _ => none

/-- The comparison that an operator stands for. -/
def Operator.comparison? : Operator → Option Comparison
  | .lt => some { function := .relation .lt, name := Operator.lt.name }
  | .lte => some { function := .relation .le, name := Operator.lte.name }
  | .gt => some { function := .relation .gt, name := Operator.gt.name }
  | .gte => some { function := .relation .ge, name := Operator.gte.name }
  | _ => none

/-- Applies an operator to two evaluated operands. -/
def Operator.apply (op : Operator) (x y : Value) : Except Halt Value :=
  match op with
  | .add => x.add y
  | .eq => .ok (.bool (x.equal y))
  | .neq => .ok (.bool !(x.equal y))
  | .and | .or => .error (.unlocated (.unknownOperator op.name))
  | op =>
    match op.arithmetic?, op.comparison? with
    | some operation, _ => operation.apply x y
    | none, some comparison => comparison.apply x y
    | none, none => .error (.unlocated (.unknownOperator op.name))

end Rinha
