import Rinha.Proofs.Values

/-!
# Division

Two operators divide: one yields the quotient, rounded down, and the other what is left, which has
the sign of the divisor.  They are built apart from each other, and still they agree: their results
for two integers are the one quotient and the one remainder that belong together.  Both look at the
types of their operands before they look for a zero.

## Main definitions

* `FloorDivision` -- a quotient and a remainder that belong together.
* `FloorDivision.iff_fdiv_fmod` -- there is exactly one such pair, unless the divisor is zero.
* `Operator.dividing` -- the operators that divide.
* `floor_division_law` -- they yield that pair.
-/

namespace Rinha

/-! ## Quotients and remainders -/

/-- A quotient and a remainder of a division that rounds down: multiplied back they give the
dividend, and the remainder lies between zero, included, and the divisor, excluded. -/
structure FloorDivision (a b q r : Int) : Prop where
  sum : a = b * q + r
  between : 0 ≤ r ∧ r < b ∨ b < r ∧ r ≤ 0

namespace FloorDivision

variable {a b q r : Int}

/-- Nothing lies between zero and zero. -/
theorem ne_zero (h : FloorDivision a b q r) : b ≠ 0 := by
  intro hb
  have hbetween := h.between
  omega

/-- The side of zero that a remainder is on is that of the divisor. -/
theorem between_iff_of_pos (hb : 0 < b) : (0 ≤ r ∧ r < b ∨ b < r ∧ r ≤ 0) ↔ 0 ≤ r ∧ r < b := by
  omega

theorem between_iff_of_neg (hb : b < 0) : (0 ≤ r ∧ r < b ∨ b < r ∧ r ≤ 0) ↔ b < r ∧ r ≤ 0 := by
  omega

theorem iff_and : FloorDivision a b q r ↔
    r + b * q = a ∧ (0 ≤ r ∧ r < b ∨ b < r ∧ r ≤ 0) := by
  constructor
  · intro h
    have hsum := h.sum
    exact ⟨by omega, h.between⟩
  · intro h
    exact ⟨by omega, h.2⟩

/-- Of a division by anything but zero there is one quotient and one remainder. -/
theorem iff_fdiv_fmod (hb : b ≠ 0) :
    FloorDivision a b q r ↔ q = a.fdiv b ∧ r = a.fmod b := by
  have hunique : FloorDivision a b q r ↔ a.fdiv b = q ∧ a.fmod b = r := by
    rcases lt_or_gt_of_ne hb with hneg | hpos
    · rw [iff_and, between_iff_of_neg hneg]
      exact (Int.fdiv_fmod_unique' hneg).symm
    · rw [iff_and, between_iff_of_pos hpos]
      exact (Int.fdiv_fmod_unique hpos).symm
  rw [hunique, eq_comm (a := q), eq_comm (a := r)]

end FloorDivision

/-! ## The operators that divide -/

namespace Operator

/-- The operators that divide. -/
def dividing : List Operator := [.div, .rem]

theorem mem_dividing {op : Operator} : op ∈ dividing ↔ op = div ∨ op = rem := by
  simp [dividing]

theorem mem_integral_of_mem_dividing {op : Operator} (h : op ∈ dividing) : op ∈ integral := by
  rcases mem_dividing.1 h with rfl | rfl <;> decide

section

variable {P : ClosureProperty} {x y : Value} {op : Operator} {a b : Int}

/-- Whatever is no pair of integers is refused for its types, a zero of another type included. -/
theorem divide_of_not_isInt (hx : x.All P) (hy : y.All P) (h : ¬ (x.IsInt ∧ y.IsInt))
    (hop : op ∈ dividing) :
    op.apply x y = .error (.unlocated (.typeMismatch op.name x.tag y.tag)) := by
  have hrule : op.Applies x y _ := .integral_mismatch (mem_integral_of_mem_dividing hop) h
  exact apply_eq_of_applies hx hy hrule

/-- What the rules give for two integers is the result. -/
theorem apply_int_of_applies {r : Except Halt Value} (h : op.Applies (.int a) (.int b) r) :
    op.apply (.int a) (.int b) = r := by
  have hint : ∀ n : Int, (Value.int n).All fun _ _ _ _ => True := fun _ => trivial
  exact apply_eq_of_applies (hint a) (hint b) h

theorem divide_zero (hop : op ∈ dividing) (a : Int) :
    op.apply (.int a) (.int 0) = .error (.unlocated (.divisionByZero op.name)) := by
  rcases mem_dividing.1 hop with rfl | rfl
  · exact apply_int_of_applies .div_zero
  · exact apply_int_of_applies .rem_zero

theorem div_apply_int (hb : b ≠ 0) (a : Int) :
    div.apply (.int a) (.int b) = .ok (.int (a.fdiv b)) :=
  apply_int_of_applies (.div hb)

theorem rem_apply_int (hb : b ≠ 0) (a : Int) :
    rem.apply (.int a) (.int b) = .ok (.int (a.fmod b)) :=
  apply_int_of_applies (.rem hb)

/-- Of two integers, only a zero on the right is refused. -/
theorem divide_eq_error_iff (hop : op ∈ dividing) :
    op.apply (.int a) (.int b) = .error (.unlocated (.divisionByZero op.name)) ↔ b = 0 := by
  constructor
  · intro h
    by_contra hb
    rcases mem_dividing.1 hop with rfl | rfl
    · rw [div_apply_int hb] at h
      cases h
    · rw [rem_apply_int hb] at h
      cases h
  · intro hb
    rw [hb]
    exact divide_zero hop a

end

end Operator

/-- **The floor division law.**  Unless both operands are integers, both operators that divide fail,
and the error names the operator and the types of the operands.  Of two integers both refuse a zero
on the right, and nothing else.  By anything else they yield the quotient and the remainder of the
division that rounds down, and there are no others. -/
theorem floor_division_law (P : ClosureProperty) :
    (∀ x y : Value, x.All P → y.All P → ¬ (x.IsInt ∧ y.IsInt) → ∀ op ∈ Operator.dividing,
      op.apply x y = .error (.unlocated (.typeMismatch op.name x.tag y.tag))) ∧
    (∀ a b : Int, ∀ op ∈ Operator.dividing,
      op.apply (.int a) (.int b) = .error (.unlocated (.divisionByZero op.name)) ↔ b = 0) ∧
    ∀ a b : Int, b ≠ 0 → ∃ q r : Int, Operator.div.apply (.int a) (.int b) = .ok (.int q) ∧
      Operator.rem.apply (.int a) (.int b) = .ok (.int r) ∧
      ∀ q' r' : Int, FloorDivision a b q' r' ↔ q' = q ∧ r' = r := by
  refine ⟨?_, ?_, ?_⟩
  · intro x y hx hy h op hop
    exact Operator.divide_of_not_isInt hx hy h hop
  · intro a b op hop
    exact Operator.divide_eq_error_iff hop
  · intro a b hb
    refine ⟨a.fdiv b, a.fmod b, Operator.div_apply_int hb a, Operator.rem_apply_int hb a, ?_⟩
    intro q' r'
    exact FloorDivision.iff_fdiv_fmod hb

/-- A negative dividend, a negative divisor, and a truth value that stands for zero elsewhere. -/
theorem floor_division_law_signs :
    (Operator.div.apply (.int (-7)) (.int 2) = .ok (.int (-4)) ∧
      Operator.rem.apply (.int (-7)) (.int 2) = .ok (.int 1)) ∧
    (Operator.div.apply (.int 7) (.int (-2)) = .ok (.int (-4)) ∧
      Operator.rem.apply (.int 7) (.int (-2)) = .ok (.int (-1))) ∧
    Operator.rem.apply (.int 7) (.int 0) = .error (.unlocated (.divisionByZero "Rem")) ∧
    Operator.div.apply (.int 7) (.bool false) =
      .error (.unlocated (.typeMismatch "Div" "Int" "Bool")) := by
  obtain ⟨hrefused, hzero, hlaw⟩ := floor_division_law fun _ _ _ _ => True
  have hdivide : ∀ a b q r : Int, FloorDivision a b q r →
      Operator.div.apply (.int a) (.int b) = .ok (.int q) ∧
        Operator.rem.apply (.int a) (.int b) = .ok (.int r) := by
    intro a b q r h
    obtain ⟨q', r', hdiv, hrem, hunique⟩ := hlaw a b h.ne_zero
    obtain ⟨rfl, rfl⟩ := (hunique q r).1 h
    exact ⟨hdiv, hrem⟩
  have hbool : ¬ ((Value.int 7).IsInt ∧ (Value.bool false).IsInt) := by
    rintro ⟨-, _, h⟩
    cases h
  refine ⟨hdivide _ _ _ _ ⟨by decide, by decide⟩, hdivide _ _ _ _ ⟨by decide, by decide⟩, ?_, ?_⟩
  · exact (hzero 7 0 .rem (by decide)).2 rfl
  · exact hrefused (.int 7) (.bool false) trivial trivial hbool .div (by decide)

end Rinha
