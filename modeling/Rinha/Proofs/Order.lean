import Mathlib.Data.List.Lex
import Rinha.Proofs.Values

/-!
# The order of integers and strings

Six operators compare two values.  Four of them order, and take two integers or two strings; the
other two tell whether values are equal, and take any.  On two integers, or two strings, all six
read off one and the same ordering, so that they agree with each other as the comparisons of a total
order do.

## Main definitions

* `Value.Comparable` -- two values that have an order.
* `Operator.Holds` -- an operator yields true.
* `Value.OrderedAs` -- what the operators read off an ordering.
* `Value.ObeysOrder` -- the laws of a total order.
* `comparison_total_order` -- the operators obey them.
-/

namespace Rinha

/-! ## One ordering, read in six ways -/

/-- Two integers, or two strings. -/
def Value.Comparable (x y : Value) : Prop :=
  (x.IsInt ∧ y.IsInt) ∨ (x.IsStr ∧ y.IsStr)

/-- An operator yields true. -/
def Operator.Holds (op : Operator) (x y : Value) : Prop :=
  op.apply x y = .ok (.bool true)

namespace Value

/-- The operators that compare yield for two values what an ordering says. -/
structure OrderedAs (o : Ordering) (x y : Value) : Prop where
  lt : Operator.lt.apply x y = .ok (.bool o.isLT)
  lte : Operator.lte.apply x y = .ok (.bool o.isLE)
  gt : Operator.gt.apply x y = .ok (.bool o.isGT)
  gte : Operator.gte.apply x y = .ok (.bool o.isGE)
  eq : Operator.eq.apply x y = .ok (.bool o.isEq)
  neq : Operator.neq.apply x y = .ok (.bool o.isNe)

theorem beq_eq_isEq_compare {α : Type} [LinearOrder α] [BEq α] [LawfulBEq α] (a b : α) :
    (a == b) = (compare a b).isEq := by
  rw [Bool.eq_iff_iff, beq_iff_eq, Ordering.isEq_iff_eq_eq, compare_eq_iff_eq]

/-- If every comparison reads an ordering, and equality does, then all six operators do. -/
theorem OrderedAs.of_comparisons {o : Ordering} {x y : Value}
    (hcompare : ∀ (c : Comparison) (r : Relation), c.accepted = ["Int", "Str"] →
      c.function = .relation r → c.apply x y = .ok (.bool (r.holds o)))
    (hequal : x.equal y = o.isEq) : OrderedAs o x y where
  lt := hcompare _ .lt rfl rfl
  lte := hcompare _ .le rfl rfl
  gt := hcompare _ .gt rfl rfl
  gte := hcompare _ .ge rfl rfl
  eq := by rw [Operator.apply, hequal]
  neq := by
    rw [Operator.apply, hequal]
    cases o <;> rfl

theorem orderedAs_int (a b : Int) : OrderedAs (compare a b) (.int a) (.int b) :=
  .of_comparisons (fun _ _ haccepted hr => Comparison.apply_int haccepted hr a b)
    (beq_eq_isEq_compare a b)

theorem orderedAs_str (s t : String) : OrderedAs (compare s t) (.str s) (.str t) :=
  .of_comparisons (fun _ _ haccepted hr => Comparison.apply_str haccepted hr s t)
    (beq_eq_isEq_compare s t)

/-- Comparable values have an ordering, which is the other way round seen from the other side. -/
theorem Comparable.exists_orderedAs {x y : Value} (h : x.Comparable y) :
    ∃ o, OrderedAs o x y ∧ OrderedAs o.swap y x ∧ (o = .eq ↔ x = y) := by
  rcases h with ⟨⟨a, rfl⟩, ⟨b, rfl⟩⟩ | ⟨⟨s, rfl⟩, ⟨t, rfl⟩⟩
  · have hswap : (compare a b).swap = compare b a := Std.OrientedOrd.eq_swap.symm
    exact ⟨_, orderedAs_int a b, hswap ▸ orderedAs_int b a, by simp⟩
  · have hswap : (compare s t).swap = compare t s := Std.OrientedOrd.eq_swap.symm
    exact ⟨_, orderedAs_str s t, hswap ▸ orderedAs_str t s, by simp⟩

/-! ## The laws of a total order -/

/-- The laws that the operators that compare obey on two values: they all answer, exactly one of
less, equal and greater holds, and the other three operators are put together from these. -/
structure ObeysOrder (x y : Value) : Prop where
  answers : ∀ op ∈ [Operator.lt, .lte, .gt, .gte, .eq, .neq],
    ∃ truth, op.apply x y = .ok (.bool truth)
  one : ∃! op, op ∈ [Operator.lt, .eq, .gt] ∧ op.Holds x y
  eq : Operator.eq.Holds x y ↔ x = y
  lte : Operator.lte.Holds x y ↔ Operator.lt.Holds x y ∨ Operator.eq.Holds x y
  gte : Operator.gte.Holds x y ↔ ¬ Operator.lt.Holds x y
  neq : Operator.neq.Holds x y ↔ ¬ Operator.eq.Holds x y
  gt : Operator.gt.apply x y = Operator.lt.apply y x

theorem Comparable.obeysOrder {x y : Value} (h : x.Comparable y) : ObeysOrder x y := by
  obtain ⟨o, ho, hswap, heq⟩ := h.exists_orderedAs
  have hgt : Operator.gt.apply x y = Operator.lt.apply y x := by
    rw [ho.gt, hswap.lt]
    cases o <;> rfl
  constructor
  case answers =>
    simp only [List.forall_mem_cons, ho.lt, ho.lte, ho.gt, ho.gte, ho.eq, ho.neq]
    simp
  case gt => exact hgt
  case one =>
    cases o
    · exact ⟨.lt, by simp [Operator.Holds, ho.lt], by simp [Operator.Holds, ho.eq, ho.gt]⟩
    · exact ⟨.eq, by simp [Operator.Holds, ho.eq], by simp [Operator.Holds, ho.lt, ho.gt]⟩
    · exact ⟨.gt, by simp [Operator.Holds, ho.gt], by simp [Operator.Holds, ho.eq, ho.lt]⟩
  all_goals
    simp only [Operator.Holds, ho.lt, ho.lte, ho.gte, ho.eq, ho.neq, ← heq]
    cases o <;> simp

end Value

namespace Operator

/-- Less is less of two integers. -/
theorem lt_holds_int (a b : Int) : lt.Holds (.int a) (.int b) ↔ a < b := by
  simp [Holds, (Value.orderedAs_int a b).lt, compare_lt_iff_lt]

/-- Less of two strings is less by the code points at the first place where they differ; a string
that ends there is less. -/
theorem lt_holds_str (s t : String) :
    lt.Holds (.str s) (.str t) ↔
      List.Lex (fun c d : Char => c.toNat < d.toNat) s.toList t.toList := by
  have hless : lt.Holds (.str s) (.str t) ↔ s < t := by
    simp [Holds, (Value.orderedAs_str s t).lt, compare_lt_iff_lt]
  rw [hless, String.lt_iff, ← List.lex_lt]
  exact Iff.rfl

theorem lt_holds_trans {x y z : Value} (hxy : x.Comparable y) (hyz : y.Comparable z)
    (h : lt.Holds x y) (h' : lt.Holds y z) : lt.Holds x z := by
  rcases hxy with ⟨⟨a, rfl⟩, ⟨b, rfl⟩⟩ | ⟨⟨s, rfl⟩, ⟨t, rfl⟩⟩
  · rcases hyz with ⟨-, ⟨c, rfl⟩⟩ | ⟨⟨_, hb⟩, -⟩
    · rw [lt_holds_int] at h h' ⊢
      exact Int.lt_trans h h'
    · cases hb
  · rcases hyz with ⟨⟨_, ht⟩, -⟩ | ⟨-, ⟨u, rfl⟩⟩
    · cases ht
    · rw [lt_holds_str] at h h' ⊢
      exact List.lex_trans (fun hcd hde => Nat.lt_trans hcd hde) h h'

/-- Operators that order refuse what has no order. -/
theorem apply_of_not_comparable {P : ClosureProperty} {x y : Value} (hx : x.All P) (hy : y.All P)
    (h : ¬ x.Comparable y) {op : Operator} (hop : op ∈ ordering) :
    op.apply x y = .error (.unlocated (.typeMismatch op.name x.tag y.tag)) := by
  obtain ⟨comparison, r, happly, haccepted, hname, -⟩ := exists_comparison hop
  rw [happly, ← hname]
  exact Comparison.apply_mismatch haccepted hx hy (fun hint => h (.inl hint))
    (fun hstr => h (.inr hstr))

end Operator

/-- **The operators that compare form one total order.**  On two integers, and on two strings, all
six yield truth values, which obey the laws of a total order; less is transitive.  Integers are
ordered by size.  Strings are ordered by the code points at the first place where they differ, and a
string is less than one that goes on after it.  On any other two values of the language the four
operators that order fail, and the error names the operator and the types of both operands.  The two
operators for equality never fail, and are each other's negation. -/
theorem comparison_total_order (P : ClosureProperty) :
    (∀ x y : Value, x.Comparable y → x.ObeysOrder y) ∧
    (∀ x y z : Value, x.Comparable y → y.Comparable z →
      Operator.lt.Holds x y → Operator.lt.Holds y z → Operator.lt.Holds x z) ∧
    (∀ a b : Int, Operator.lt.Holds (.int a) (.int b) ↔ a < b) ∧
    (∀ s t : String, Operator.lt.Holds (.str s) (.str t) ↔
      List.Lex (fun c d : Char => c.toNat < d.toNat) s.toList t.toList) ∧
    (∀ s t : String, t ≠ "" → Operator.lt.Holds (.str s) (.str (s ++ t))) ∧
    (∀ x y : Value, x.All P → y.All P → ¬ x.Comparable y → ∀ op ∈ Operator.ordering,
      op.apply x y = .error (.unlocated (.typeMismatch op.name x.tag y.tag))) ∧
    ∀ x y : Value, ∃ truth, Operator.eq.apply x y = .ok (.bool truth) ∧
      Operator.neq.apply x y = .ok (.bool !truth) := by
  refine ⟨fun x y h => h.obeysOrder, fun x y z => Operator.lt_holds_trans, Operator.lt_holds_int,
    Operator.lt_holds_str, fun s t ht => ?_,
    fun x y hx hy h op hop => Operator.apply_of_not_comparable hx hy h hop,
    fun x y => ⟨x.equal y, rfl, rfl⟩⟩
  obtain ⟨c, cs, hcons⟩ := List.exists_cons_of_ne_nil (mt String.toList_eq_nil_iff.1 ht)
  rw [Operator.lt_holds_str, String.toList_append, hcons]
  simpa using List.Lex.append_left _ (.nil (a := c) (l := cs)) s.toList

/-- A string and a longer one that begins with it, a string with a character beyond all of sixteen
bits, and a pair, which has no order. -/
theorem comparison_total_order_strings :
    Value.ObeysOrder (.str "a") (.str "ab") ∧
    Operator.lt.Holds (.str "a") (.str "a\uffff") ∧
    Operator.lt.Holds (.str "a\uffff") (.str "a😀") ∧
    Operator.lt.Holds (.str "a") (.str "a😀") ∧
    Operator.gte.apply (.str "a") (.tuple (.int 1) (.bool true)) =
      .error (.unlocated (.typeMismatch "Gte" "Str" "Tuple")) := by
  have hstrings : ∀ s t : String, Value.Comparable (.str s) (.str t) :=
    fun s t => .inr ⟨⟨s, rfl⟩, ⟨t, rfl⟩⟩
  have hpair : ¬ Value.Comparable (.str "a") (.tuple (.int 1) (.bool true)) := by
    simp [Value.Comparable, Value.IsInt, Value.IsStr]
  obtain ⟨hlaws, htrans, -, hlex, hlonger, hrefused, -⟩ :=
    comparison_total_order fun _ _ _ _ => True
  have hfirst := hlonger "a" "\uffff" (by decide)
  have hsecond := (hlex "a\uffff" "a😀").2 (.cons (.rel (by decide)))
  refine ⟨hlaws _ _ (hstrings _ _), hfirst, hsecond, ?_,
    hrefused (.str "a") (.tuple (.int 1) (.bool true)) trivial ⟨trivial, trivial⟩ hpair .gte
      (by decide)⟩
  exact htrans _ _ _ (hstrings _ _) (hstrings _ _) hfirst hsecond

end Rinha
