import Rinha.Proofs.Values

/-!
# Equality of values

Equality is an equivalence of the values of the language, and nothing in the language tells equal
values apart: they have the same text and the same truth value, and operators do with one what they
do with the other.  What makes two values differ is that they are of different types, or that their
parts at some place are.

## Main definitions

* `Value.Same.refl`, `Value.Same.symm`, `Value.Same.trans` -- the rules make an equivalence.
* `Value.Same.resembles` -- operators do not tell apart what is the same.
* `Value.part?` -- the part of a value at a place inside nested pairs.
* `Value.AnswersAlike` -- the same failure, or equal values.
* `equality_congruence` -- all of this of the equality that evaluation uses.
-/

namespace Rinha

namespace Value

variable {P : ClosureProperty} {x x' y y' z : Value}

/-! ## The rules make an equivalence -/

theorem Same.refl (hx : x.All P) : x.Same x := by
  induction x with
  | int | str | bool | closure => constructor
  | tuple a b iha ihb => exact .tuple (iha hx.1) (ihb hx.2)
  | foreign => exact hx.elim

theorem Same.symm (h : x.Same y) : y.Same x := by
  induction h with
  | int | str | bool | closure => constructor
  | tuple _ _ iha ihb => exact .tuple iha ihb

theorem Same.trans (h : x.Same y) (h' : y.Same z) : x.Same z := by
  induction h generalizing z with
  | int | str | bool => exact h'
  | tuple _ _ iha ihb =>
    cases h' with
    | tuple ha hb => exact .tuple (iha ha) (ihb hb)
  | closure =>
    cases h'
    constructor

/-! ## What equal values have in common -/

theorem Same.tag_eq (h : x.Same y) : x.tag = y.tag := by
  cases h <;> rfl

theorem Same.isTruthy_eq (h : x.Same y) : x.isTruthy = y.isTruthy := by
  cases h <;> rfl

/-- The texts are the same, or both values have an integer that is too long. -/
theorem Same.display_eq (h : x.Same y) : x.display = y.display := by
  induction h with
  | int | str | bool | closure => rfl
  | tuple _ _ iha ihb => simp only [display, iha, ihb]

/-- Apart from pairs and functions, what is the same is one value. -/
theorem Same.resembles (h : x.Same y) : x.Resembles y where
  tag := h.tag_eq
  display := h.display_eq
  same htag := by
    cases h with
    | int | str | bool => rfl
    | tuple | closure => simp [tag, compound] at htag

/-! ## Parts of equal values -/

/-- The two components of a pair. -/
inductive Side where
  | left | right
  deriving DecidableEq, Repr

/-- The part of a value at a place, which is reached through one component after the other. -/
def part? : List Side → Value → Option Value
  | [], x => some x
  | .left :: path, .tuple a _ => a.part? path
  | .right :: path, .tuple _ b => b.part? path
  | _ :: _, _ => none

theorem tag_eq_of_equal (h : x.equal y) : x.tag = y.tag := by
  cases x <;> cases y <;> simp_all [equal, tag]

/-- Equal values have equal parts at the same places. -/
theorem exists_part_of_equal {path : List Side} {u : Value} (h : x.equal y)
    (hu : x.part? path = some u) : ∃ v, y.part? path = some v ∧ u.equal v := by
  induction path generalizing x y with
  | nil =>
    cases hu
    exact ⟨y, rfl, h⟩
  | cons side path ih =>
    cases x with
    | tuple a b =>
      cases y with
      | tuple c d =>
        simp only [equal, Bool.and_eq_true] at h
        cases side with
        | left => exact ih h.1 hu
        | right => exact ih h.2 hu
      | _ => cases h
    | _ => cases side <;> cases hu

/-- Values that have parts of different types at some place are not equal. -/
theorem equal_eq_false_of_part {path : List Side} {u v : Value} (hu : x.part? path = some u)
    (hv : y.part? path = some v) (htag : u.tag ≠ v.tag) : x.equal y = false := by
  rw [← Bool.not_eq_true]
  intro h
  obtain ⟨w, hw, huw⟩ := exists_part_of_equal h hu
  obtain rfl : v = w := Option.some.inj (hv.symm.trans hw)
  exact htag (tag_eq_of_equal huw)

/-! ## Equality of values of the language -/

theorem equal_self (hx : x.All P) : x.equal x :=
  (equal_iff_same hx).2 (.refl hx)

theorem equal_symm (hx : x.All P) (hy : y.All P) (h : x.equal y) : y.equal x :=
  (equal_iff_same hy).2 ((equal_iff_same hx).1 h).symm

theorem equal_trans (hx : x.All P) (hy : y.All P) (h : x.equal y) (h' : y.equal z) :
    x.equal z :=
  (equal_iff_same hx).2 (((equal_iff_same hx).1 h).trans ((equal_iff_same hy).1 h'))

/-- Equality makes no difference between equal values on either side. -/
theorem equal_congr (hx : x.All P) (hx' : x'.All P) (hy : y.All P) (hy' : y'.All P)
    (hxx' : x.equal x') (hyy' : y.equal y') : x.equal y = x'.equal y' := by
  refine Bool.eq_iff_iff.2 ⟨fun h => ?_, fun h => ?_⟩
  · exact equal_trans hx' hx (equal_symm hx hx' hxx') (equal_trans hx hy h hyy')
  · exact equal_trans hx hx' hxx' (equal_trans hx' hy' h (equal_symm hy hy' hyy'))

/-- Two computations answer alike: both fail for the same reason, or their values are equal. -/
inductive AnswersAlike : Except Halt Value → Except Halt Value → Prop
  | ok {x y : Value} : x.equal y → AnswersAlike (.ok x) (.ok y)
  | error (halt : Halt) : AnswersAlike (.error halt) (.error halt)

end Value

namespace Operator

variable {P : ClosureProperty} {x x' y y' : Value}

/-- What an operator yields for values of the language is one of them. -/
theorem all_of_apply {op : Operator} {z : Value} (hx : x.All P) (hy : y.All P)
    (h : op.apply x y = .ok z) : z.All P := by
  by_cases hand : op = .and
  · subst hand
    cases h
  by_cases hor : op = .or
  · subst hor
    cases h
  exact (h ▸ applies_apply hand hor hx hy : op.Applies x y (.ok z)).all P

/-- Operators answer alike for equal operands. -/
theorem apply_answersAlike (op : Operator) (hx : x.All P) (hx' : x'.All P) (hy : y.All P)
    (hy' : y'.All P) (hxx' : x.equal x') (hyy' : y.equal y') :
    Value.AnswersAlike (op.apply x y) (op.apply x' y') := by
  have hsame : op.apply x y = op.apply x' y' :=
    op.apply_eq_of_resembles ((Value.equal_iff_same hx).1 hxx').resembles
      ((Value.equal_iff_same hy).1 hyy').resembles (Value.equal_congr hx hx' hy hy' hxx' hyy')
  rw [hsame]
  cases h : op.apply x' y' with
  | error halt => exact .error halt
  | ok z => exact .ok (Value.equal_self (all_of_apply hx' hy' h))

end Operator

/-- **Equality is a congruence.**  On the values of the language, whatever closures are in them,
equality is reflexive, symmetric and transitive.  Equal values have the same text, or are refused
one for the same reason, and count as true alike.  Every operator fails with the same error for
equal operands, or yields values that are equal again.  Values that have parts of different types at
some place inside nested pairs are not equal. -/
theorem equality_congruence (P : ClosureProperty) :
    (∀ x : Value, x.All P → x.equal x) ∧
    (∀ x y : Value, x.All P → y.All P → x.equal y → y.equal x) ∧
    (∀ x y z : Value, x.All P → y.All P → z.All P → x.equal y → y.equal z → x.equal z) ∧
    (∀ x y : Value, x.All P → y.All P → x.equal y →
      x.display = y.display ∧ x.isTruthy = y.isTruthy) ∧
    (∀ (op : Operator) (x x' y y' : Value), x.All P → x'.All P → y.All P → y'.All P →
      x.equal x' → y.equal y' → Value.AnswersAlike (op.apply x y) (op.apply x' y')) ∧
    ∀ (path : List Value.Side) (x y u v : Value), x.part? path = some u → y.part? path = some v →
      u.tag ≠ v.tag → x.equal y = false := by
  refine ⟨fun x hx => Value.equal_self hx, fun x y hx hy h => Value.equal_symm hx hy h,
    fun x y z hx hy _ h h' => Value.equal_trans hx hy h h', fun x y hx _ h => ?_,
    fun op x x' y y' hx hx' hy hy' => op.apply_answersAlike hx hx' hy hy',
    fun path x y u v hu hv => Value.equal_eq_false_of_part hu hv⟩
  have hsame : x.Same y := (Value.equal_iff_same hx).1 h
  exact ⟨hsame.display_eq, hsame.isTruthy_eq⟩

/-- A pair that holds a function, joined with a string and divided by one; and two nested pairs, of
which one has a truth value where the other has the integer one. -/
theorem equality_congruence_pairs :
    let function : Value := .closure 3 ["x"] (.var "x" none) 0
    let pair : Value := .tuple function (.bool false)
    let nested (x : Value) : Value := .tuple pair (.tuple x (.str "a"))
    pair.equal pair ∧
    Operator.add.apply pair (.str "a") = .ok (.str "(<#closure>, false)a") ∧
    Value.AnswersAlike (Operator.add.apply pair (.str "a")) (Operator.add.apply pair (.str "a")) ∧
    Value.AnswersAlike (Operator.div.apply pair (.str "a")) (Operator.div.apply pair (.str "a")) ∧
    (nested (.bool true)).equal (nested (.int 1)) = false := by
  intro function pair nested
  obtain ⟨hself, -, -, -, happly, hparts⟩ := equality_congruence fun _ _ _ captured => captured = 0
  have hpair : pair.All fun _ _ _ captured => captured = 0 := ⟨rfl, trivial⟩
  have hequal : pair.equal pair := hself pair hpair
  exact ⟨hequal, rfl, happly .add _ _ _ _ hpair hpair trivial trivial hequal (by decide),
    happly .div _ _ _ _ hpair hpair trivial trivial hequal (by decide),
    hparts [.right, .left] _ _ (.bool true) (.int 1) rfl rfl (by decide)⟩

end Rinha
