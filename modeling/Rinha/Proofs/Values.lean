import Mathlib.Data.String.Basic
import Mathlib.Order.Compare
import Rinha.Operation
import Rinha.Proofs.Semantics

/-!
# Values and operators follow the rules

The values of the language are those that hold no data of a host.  On them the texts of values,
equality and the operators are exactly as the rules of the language have them.

## Main definitions

* `ClosureProperty`, `Value.All` -- a value of the language, all of whose closures have a property.
* `Value.display_of_shows`, `Value.display_of_unshowable` -- the text of a value.
* `Value.equal_iff_same` -- equality of values.
* `Operator.applies_apply`, `Operator.apply_eq_of_applies` -- the operators.
* `Halt.OfOperands` -- what operators fail with.
* `Operator.tag_of_apply` -- the types of what operators yield.
* `Value.Resembles`, `Operator.apply_eq_of_resembles` -- operands that operators do not tell apart.
-/

namespace Rinha

/-- A property of closures, in terms of what they consist of. -/
abbrev ClosureProperty := Nat → List String → Node → ScopeId → Prop

namespace Value

/-- A value of the language, all of whose closures have a property: no data of a host is anywhere
in it. -/
def All (P : ClosureProperty) : Value → Prop
  | .int _ | .str _ | .bool _ => True
  | .tuple a b => a.All P ∧ b.All P
  | .closure id parameters body captured => P id parameters body captured
  | .foreign .. => False

theorem All.mono {P Q : ClosureProperty} {x : Value}
    (h : ∀ id parameters body captured, P id parameters body captured →
      Q id parameters body captured)
    (hx : x.All P) : x.All Q := by
  induction x with
  | int | str | bool => trivial
  | tuple a b iha ihb => exact ⟨iha hx.1, ihb hx.2⟩
  | closure id parameters body captured => exact h _ _ _ _ hx
  | foreign => exact hx

variable {P : ClosureProperty} {x y : Value}

/-! ## Texts -/

theorem decimalText_eq_toString (value : Int) : decimalText value = toString value := by
  cases value with
  | ofNat n => rfl
  | negSucc n => simp only [decimalText, Int.negSucc_lt_zero, ↓reduceIte]; rfl

theorem display_of_shows {text : String} (h : x.Shows text) : x.display = .ok text := by
  induction h with
  | @int value hlt =>
    have hbound : value.natAbs < decimalBound := by
      unfold decimalBound
      exact hlt
    rw [display, decimal, if_pos hbound, decimalText_eq_toString]
  | str | true | false | closure => rfl
  | tuple _ _ iha ihb => simp [display, iha, ihb, bind, Except.bind, pure, Except.pure]

/-- A text is refused for no other reason than an integer that is too long. -/
theorem eq_writing_of_display {refusal : TooManyDigits} (h : x.display = .error refusal) :
    refusal = .writing := by
  induction x with
  | int value =>
    simp only [display, decimal] at h
    split at h <;> cases h
    rfl
  | str | bool | closure | foreign => cases h
  | tuple a b iha ihb =>
    cases ha : a.display with
    | error r =>
      simp only [display, ha, bind, Except.bind, Except.error.injEq] at h
      subst h
      exact iha ha
    | ok left =>
      cases hb : b.display with
      | error r =>
        simp only [display, ha, hb, bind, Except.bind, Except.error.injEq] at h
        subst h
        exact ihb hb
      | ok right => simp [display, ha, hb, bind, Except.bind, pure, Except.pure] at h

theorem display_of_unshowable (h : x.Unshowable) : x.display = .error .writing := by
  induction h with
  | @int value hle =>
    have hbound : decimalBound ≤ value.natAbs := by
      unfold decimalBound
      exact hle
    exact (decimal_eq_error_iff value).2 hbound
  | left _ ih => simp [display, ih, bind, Except.bind]
  | @right a b _ ih =>
    cases ha : a.display with
    | error r => simp [display, ha, bind, Except.bind, eq_writing_of_display ha]
    | ok left => simp [display, ha, ih, bind, Except.bind]

/-- A value of the language has a text or is unshowable. -/
theorem shows_or_unshowable (hx : x.All P) : (∃ text, x.Shows text) ∨ x.Unshowable := by
  induction x with
  | int value =>
    by_cases h : value.natAbs < Nat.pow 10 digitLimit
    · exact .inl ⟨_, .int h⟩
    · exact .inr (.int (Nat.le_of_not_lt h))
  | str value => exact .inl ⟨_, .str⟩
  | bool value => cases value <;> exact .inl ⟨_, by constructor⟩
  | tuple a b iha ihb =>
    rcases iha hx.1 with ⟨left, hleft⟩ | ha
    · rcases ihb hx.2 with ⟨right, hright⟩ | hb
      · exact .inl ⟨_, .tuple hleft hright⟩
      · exact .inr (.right hb)
    · exact .inr (.left ha)
  | closure id parameters body captured => exact .inl ⟨_, .closure⟩
  | foreign tag payload => exact hx.elim

/-! ## Equality -/

/-- Values of the language are equal exactly as the rules say. -/
theorem equal_iff_same (hx : x.All P) : x.equal y ↔ x.Same y := by
  constructor
  · intro h
    induction x generalizing y with
    | tuple a b iha ihb =>
      cases y with
      | tuple c d =>
        simp only [equal, Bool.and_eq_true] at h
        exact .tuple (iha hx.1 h.1) (ihb hx.2 h.2)
      | _ => simp [equal] at h
    | foreign => exact hx.elim
    | int | str | bool | closure =>
      cases y <;> simp only [equal, beq_iff_eq, Bool.false_eq_true] at h
      subst h
      constructor
  · intro h
    induction h with
    | tuple _ _ iha ihb => simp [equal, iha hx.1, ihb hx.2]
    | int | str | bool | closure => simp [equal]

/-! ## Types -/

theorem tag_eq_int_iff (hx : x.All P) : x.tag = "Int" ↔ x.IsInt := by
  cases x with
  | foreign => exact hx.elim
  | _ => simp [tag, IsInt]

theorem tag_eq_str_iff (hx : x.All P) : x.tag = "Str" ↔ x.IsStr := by
  cases x with
  | foreign => exact hx.elim
  | _ => simp [tag, IsStr]

/-- A string on either side makes an addition the joining of the two texts. -/
theorem add_of_isStr (h : x.IsStr ∨ y.IsStr) :
    x.add y = (do
      let left ← Halt.ofConversion x.display
      let right ← Halt.ofConversion y.display
      return .str (left ++ right)) := by
  rcases h with ⟨text, rfl⟩ | ⟨text, rfl⟩
  · cases y <;> rfl
  · cases x <;> rfl

theorem add_mismatch (hstr : ¬ (x.IsStr ∨ y.IsStr)) (hint : ¬ (x.IsInt ∧ y.IsInt)) :
    x.add y = .error (.unlocated (.typeMismatch "Add" x.tag y.tag)) := by
  cases x with
  | str => exact absurd (.inl ⟨_, rfl⟩) hstr
  | int =>
    cases y with
    | str => exact absurd (.inr ⟨_, rfl⟩) hstr
    | int => exact absurd ⟨⟨_, rfl⟩, ⟨_, rfl⟩⟩ hint
    | _ => rfl
  | _ =>
    cases y with
    | str => exact absurd (.inr ⟨_, rfl⟩) hstr
    | _ => rfl

end Value

/-! ## The two families of operators -/

section

variable {P : ClosureProperty} {x y : Value}

theorem Arithmetic.apply_mismatch {op : Arithmetic} (hop : op.accepted = ["Int"]) (hx : x.All P)
    (hy : y.All P) (h : ¬ (x.IsInt ∧ y.IsInt)) :
    op.apply x y = .error (.unlocated (.typeMismatch op.name x.tag y.tag)) := by
  have hrefused : x.tag ≠ y.tag ∨ x.tag ∉ op.accepted := by
    rw [hop, List.mem_singleton, Value.tag_eq_int_iff hx]
    by_contra hcon
    obtain ⟨htag, hint⟩ := not_or.1 hcon
    have hxint : x.IsInt := not_not.1 hint
    refine h ⟨hxint, (Value.tag_eq_int_iff hy).1 ?_⟩
    rw [← not_not.1 htag, (Value.tag_eq_int_iff hx).2 hxint]
  simp only [Arithmetic.apply, Arithmetic.result, if_pos hrefused]
  rfl

theorem Arithmetic.apply_int {op : Arithmetic} {f : ArithmeticFunction}
    (hop : op.accepted = ["Int"]) (hf : op.function = .arithmetic f)
    (hzero : op.rejectsZero = f.divides) (a b : Int) :
    op.apply (.int a) (.int b) =
      if f.divides = true ∧ b = 0 then .error (.unlocated (.divisionByZero op.name))
      else .ok (.int (f.onInt a b)) := by
  by_cases h : f.divides = true ∧ b = 0
  · simp [Arithmetic.apply, Arithmetic.result, hop, hzero, h, Value.tag, bind, Except.bind]
  · have hdivides : f.divides = true → b ≠ 0 := fun hd hb => h ⟨hd, hb⟩
    have hnot : (f.divides && decide (b = 0)) = false := by
      cases hd : f.divides <;> simp_all
    simp [Arithmetic.apply, Arithmetic.result, hop, hzero, hf, h, hnot, Value.tag, bind,
      Except.bind, pure, Except.pure, Value.apply_arithmetic_int hdivides, Halt.ofOperation,
      Halt.ofTagged, Tagged.value?]

theorem Comparison.apply_mismatch {op : Comparison} (hop : op.accepted = ["Int", "Str"])
    (hx : x.All P) (hy : y.All P) (hint : ¬ (x.IsInt ∧ y.IsInt)) (hstr : ¬ (x.IsStr ∧ y.IsStr)) :
    op.apply x y = .error (.unlocated (.typeMismatch op.name x.tag y.tag)) := by
  have hrefused : x.tag ≠ y.tag ∨ x.tag ∉ op.accepted := by
    rw [hop]
    by_contra hcon
    obtain ⟨htag, hmem⟩ := not_or.1 hcon
    have htags : x.tag = y.tag := not_not.1 htag
    simp only [List.mem_cons, List.not_mem_nil, or_false, not_not] at hmem
    rcases hmem with h | h
    · exact hint ⟨(Value.tag_eq_int_iff hx).1 h, (Value.tag_eq_int_iff hy).1 (htags ▸ h)⟩
    · exact hstr ⟨(Value.tag_eq_str_iff hx).1 h, (Value.tag_eq_str_iff hy).1 (htags ▸ h)⟩
  simp only [Comparison.apply, Comparison.result, if_pos hrefused]
  rfl

theorem Comparison.apply_int {op : Comparison} {r : Relation}
    (hop : op.accepted = ["Int", "Str"]) (hr : op.function = .relation r) (a b : Int) :
    op.apply (.int a) (.int b) = .ok (.bool (r.holds (compare a b))) := by
  simp [Comparison.apply, Comparison.result, hop, hr, Value.tag, bind, Except.bind, pure,
    Except.pure, Halt.ofOperation, Halt.ofTagged, Tagged.value?]

theorem Comparison.apply_str {op : Comparison} {r : Relation}
    (hop : op.accepted = ["Int", "Str"]) (hr : op.function = .relation r) (a b : String) :
    op.apply (.str a) (.str b) = .ok (.bool (r.holds (compare a b))) := by
  simp [Comparison.apply, Comparison.result, hop, hr, Value.tag, bind, Except.bind, pure,
    Except.pure, Halt.ofOperation, Halt.ofTagged, Tagged.value?]

/-- A relation holds between two things exactly if their order is one that it admits. -/
theorem Relation.holds_compare {α : Type} [LinearOrder α] (r : Relation) (a b : α) :
    r.holds (compare a b) ↔
      match r with
      | .lt => a < b
      | .le => a ≤ b
      | .gt => b < a
      | .ge => b ≤ a := by
  rcases lt_trichotomy a b with h | h | h
  · have hc : compare a b = .lt := compare_lt_iff_lt.2 h
    cases r <;> simp [holds, hc, h, h.le]
  · cases r <;> simp [holds, h]
  · have hc : compare a b = .gt := compare_gt_iff_gt.2 h
    cases r <;> simp [holds, hc, h, h.le]

namespace Operator

/-- Every operator that orders is a comparison of integers and of strings. -/
theorem exists_comparison {op : Operator} (h : op ∈ ordering) :
    ∃ (c : Comparison) (r : Relation), (∀ x y, op.apply x y = c.apply x y) ∧
      c.accepted = ["Int", "Str"] ∧ c.name = op.name ∧ c.function = .relation r ∧
      (∀ a b : Int, r.holds (compare a b) ↔ op.Orders a b) ∧
      (∀ a b : String, r.holds (compare a b) ↔ op.Orders a b) := by
  simp only [ordering, List.mem_cons, List.not_mem_nil, or_false] at h
  rcases h with rfl | rfl | rfl | rfl
  · exact ⟨_, .lt, fun _ _ => rfl, rfl, rfl, rfl, Relation.holds_compare .lt,
      Relation.holds_compare .lt⟩
  · exact ⟨_, .le, fun _ _ => rfl, rfl, rfl, rfl, Relation.holds_compare .le,
      Relation.holds_compare .le⟩
  · exact ⟨_, .gt, fun _ _ => rfl, rfl, rfl, rfl, Relation.holds_compare .gt,
      Relation.holds_compare .gt⟩
  · exact ⟨_, .ge, fun _ _ => rfl, rfl, rfl, rfl, Relation.holds_compare .ge,
      Relation.holds_compare .ge⟩

/-- Every operator that takes integers only is an arithmetic operation. -/
theorem exists_arithmetic {op : Operator} (h : op ∈ integral) :
    ∃ a : Arithmetic, (∀ x y, op.apply x y = a.apply x y) ∧ a.accepted = ["Int"] ∧
      a.name = op.name := by
  simp only [integral, List.mem_cons, List.not_mem_nil, or_false] at h
  rcases h with rfl | rfl | rfl | rfl <;> exact ⟨_, fun _ _ => rfl, rfl, rfl⟩

/-- What the rules give for an operator is its result. -/
theorem apply_eq_of_applies {op : Operator} {r : Except Halt Value} (hx : x.All P) (hy : y.All P)
    (h : op.Applies x y r) : op.apply x y = r := by
  cases h with
  | add => rfl
  | join hstr hleft hright =>
    simp only [apply, Value.add_of_isStr hstr, Value.display_of_shows hleft,
      Value.display_of_shows hright]
    rfl
  | join_refused hstr hrefused =>
    simp only [apply, Value.add_of_isStr hstr]
    rcases hrefused with hleft | hright
    · simp only [Value.display_of_unshowable hleft]
      rfl
    · rw [Value.display_of_unshowable hright]
      cases hleft : x.display with
      | error refusal => rw [Value.eq_writing_of_display hleft]; rfl
      | ok left => rfl
  | add_mismatch hstr hint => exact Value.add_mismatch hstr hint
  | @sub a b =>
    exact (Arithmetic.apply_int (f := .sub) rfl rfl rfl a b).trans (if_neg fun h => nomatch h.1)
  | @mul a b =>
    exact (Arithmetic.apply_int (f := .mul) rfl rfl rfl a b).trans (if_neg fun h => nomatch h.1)
  | @div a b hb => exact (Arithmetic.apply_int rfl rfl rfl a b).trans (if_neg fun h => hb h.2)
  | @rem a b hb => exact (Arithmetic.apply_int rfl rfl rfl a b).trans (if_neg fun h => hb h.2)
  | @div_zero a => exact (Arithmetic.apply_int rfl rfl rfl a 0).trans (if_pos ⟨rfl, rfl⟩)
  | @rem_zero a => exact (Arithmetic.apply_int rfl rfl rfl a 0).trans (if_pos ⟨rfl, rfl⟩)
  | integral_mismatch hop hint =>
    obtain ⟨operation, happly, haccepted, hname⟩ := exists_arithmetic hop
    rw [happly, Arithmetic.apply_mismatch haccepted hx hy hint, hname]
  | eq htruth =>
    have : x.equal y = _ := Bool.eq_iff_iff.2 ((Value.equal_iff_same hx).trans htruth.symm)
    simp only [apply, this]
  | neq htruth =>
    have : (!x.equal y) = _ := Bool.eq_iff_iff.2
      (by rw [htruth, Bool.not_eq_true', ← Bool.not_eq_true, Value.equal_iff_same hx])
    simp only [apply, this]
  | @order_int _ a b truth hop htruth =>
    obtain ⟨comparison, r, happly, haccepted, -, hr, hint, -⟩ := exists_comparison hop
    have : r.holds (compare a b) = truth := Bool.eq_iff_iff.2 ((hint a b).trans htruth.symm)
    rw [happly, Comparison.apply_int haccepted hr, this]
  | @order_str _ a b truth hop htruth =>
    obtain ⟨comparison, r, happly, haccepted, -, hr, -, hstr⟩ := exists_comparison hop
    have : r.holds (compare a b) = truth := Bool.eq_iff_iff.2 ((hstr a b).trans htruth.symm)
    rw [happly, Comparison.apply_str haccepted hr, this]
  | order_mismatch hop hint hstr =>
    obtain ⟨comparison, r, happly, haccepted, hname, -⟩ := exists_comparison hop
    rw [happly, Comparison.apply_mismatch haccepted hx hy hint hstr, hname]

/-- Some rule applies to every operator but the two connectives. -/
theorem exists_applies {op : Operator} (hand : op ≠ .and) (hor : op ≠ .or) (hx : x.All P)
    (hy : y.All P) : ∃ r, op.Applies x y r := by
  have hordering : op ∈ ordering → ∃ r, op.Applies x y r := by
    intro hop
    obtain ⟨-, r, -, -, -, -, hints, hstrs⟩ := exists_comparison hop
    by_cases hint : x.IsInt ∧ y.IsInt
    · obtain ⟨⟨a, rfl⟩, ⟨b, rfl⟩⟩ := hint
      exact ⟨_, .order_int hop (hints a b)⟩
    by_cases hstr : x.IsStr ∧ y.IsStr
    · obtain ⟨⟨a, rfl⟩, ⟨b, rfl⟩⟩ := hstr
      exact ⟨_, .order_str hop (hstrs a b)⟩
    exact ⟨_, .order_mismatch hop hint hstr⟩
  have hintegral : op ∈ integral →
      (∀ a b, ∃ r, op.Applies (.int a) (.int b) r) → ∃ r, op.Applies x y r := by
    intro hop hints
    by_cases hint : x.IsInt ∧ y.IsInt
    · obtain ⟨⟨a, rfl⟩, ⟨b, rfl⟩⟩ := hint
      exact hints a b
    · exact ⟨_, .integral_mismatch hop hint⟩
  cases op with
  | add =>
    by_cases hstr : x.IsStr ∨ y.IsStr
    · rcases Value.shows_or_unshowable hx with ⟨left, hleft⟩ | hleft
      · rcases Value.shows_or_unshowable hy with ⟨right, hright⟩ | hright
        · exact ⟨_, .join hstr hleft hright⟩
        · exact ⟨_, .join_refused hstr (.inr hright)⟩
      · exact ⟨_, .join_refused hstr (.inl hleft)⟩
    · by_cases hint : x.IsInt ∧ y.IsInt
      · obtain ⟨⟨a, rfl⟩, ⟨b, rfl⟩⟩ := hint
        exact ⟨_, .add⟩
      · exact ⟨_, .add_mismatch hstr hint⟩
  | sub => exact hintegral (by simp [integral]) fun a b => ⟨_, .sub⟩
  | mul => exact hintegral (by simp [integral]) fun a b => ⟨_, .mul⟩
  | div =>
    refine hintegral (by simp [integral]) fun a b => ?_
    by_cases hb : b = 0
    · subst hb
      exact ⟨_, .div_zero⟩
    · exact ⟨_, .div hb⟩
  | rem =>
    refine hintegral (by simp [integral]) fun a b => ?_
    by_cases hb : b = 0
    · subst hb
      exact ⟨_, .rem_zero⟩
    · exact ⟨_, .rem hb⟩
  | eq => exact ⟨_, .eq (Value.equal_iff_same hx)⟩
  | neq =>
    refine ⟨.ok (.bool !(x.equal y)), .neq ?_⟩
    rw [Bool.not_eq_true', ← Bool.not_eq_true, Value.equal_iff_same hx]
  | lt => exact hordering (by simp [ordering])
  | lte => exact hordering (by simp [ordering])
  | gt => exact hordering (by simp [ordering])
  | gte => exact hordering (by simp [ordering])
  | and => exact absurd rfl hand
  | or => exact absurd rfl hor

/-- The result of an operator is what the rules give for it. -/
theorem applies_apply {op : Operator} (hand : op ≠ .and) (hor : op ≠ .or) (hx : x.All P)
    (hy : y.All P) : op.Applies x y (op.apply x y) := by
  obtain ⟨r, hr⟩ := exists_applies hand hor hx hy
  rwa [apply_eq_of_applies hx hy hr]

/-- An operator yields integers, strings and truth values only. -/
theorem Applies.all {op : Operator} {value : Value} (h : op.Applies x y (.ok value))
    (Q : ClosureProperty) : value.All Q := by
  cases h <;> trivial

end Operator

end

/-! ## Failures of operators -/

/-- What an operator can fail with: an error about its operands, whose location is not known, or
something that is no error of the language. -/
inductive Halt.OfOperands : Halt → Prop
  | mismatch {op left right : String} : OfOperands (.unlocated (.typeMismatch op left right))
  | zero {op : String} : OfOperands (.unlocated (.divisionByZero op))
  | connective {op : String} : OfOperands (.unlocated (.unknownOperator op))
  | digits {refusal : TooManyDigits} : OfOperands (.digits refusal)
  | fault {cause : Fault} : OfOperands (.fault cause)

namespace Halt.OfOperands

variable {halt : Halt}

theorem of_conversion {α : Type} {result : Except TooManyDigits α}
    (h : Halt.ofConversion result = .error halt) : halt.OfOperands := by
  cases result with
  | ok value => cases h
  | error refusal =>
    cases h
    exact .digits

theorem of_operation {α : Type} {result : Except Fault α}
    (h : Halt.ofOperation result = .error halt) : halt.OfOperands := by
  unfold Halt.ofOperation at h
  split at h <;> cases h
  · exact .digits
  · exact .fault

theorem of_tagged {tagged : Tagged} (h : Halt.ofTagged tagged = .error halt) :
    halt.OfOperands := by
  unfold Halt.ofTagged at h
  split at h <;> cases h
  exact .fault

end Halt.OfOperands

theorem bind_eq_error {ε α β : Type} {first : Except ε α} {next : α → Except ε β} {e : ε}
    (h : first >>= next = .error e) :
    first = .error e ∨ ∃ a, first = .ok a ∧ next a = .error e := by
  cases first with
  | error e' =>
    cases h
    exact .inl rfl
  | ok a => exact .inr ⟨a, rfl, h⟩

theorem bind_eq_ok {ε α β : Type} {first : Except ε α} {next : α → Except ε β} {b : β}
    (h : first >>= next = .ok b) : ∃ a, first = .ok a ∧ next a = .ok b := by
  cases first with
  | error e => cases h
  | ok a => exact ⟨a, rfl, h⟩

theorem Arithmetic.ofOperands_of_apply {op : Arithmetic} {x y : Value} {halt : Halt}
    (h : op.apply x y = .error halt) : halt.OfOperands := by
  rcases bind_eq_error h with h | ⟨tagged, -, h⟩
  · unfold Arithmetic.result at h
    split at h
    · cases h
      exact .mismatch
    · split at h
      · cases h
        exact .zero
      · rcases bind_eq_error h with h | ⟨content, -, h⟩
        · exact .of_operation h
        · cases h
  · exact .of_tagged h

theorem Comparison.ofOperands_of_apply {op : Comparison} {x y : Value} {halt : Halt}
    (h : op.apply x y = .error halt) : halt.OfOperands := by
  rcases bind_eq_error h with h | ⟨tagged, -, h⟩
  · unfold Comparison.result at h
    split at h
    · cases h
      exact .mismatch
    · rcases bind_eq_error h with h | ⟨content, -, h⟩
      · exact .of_operation h
      · cases h
  · exact .of_tagged h

theorem Value.ofOperands_of_add {x y : Value} {halt : Halt} (h : x.add y = .error halt) :
    halt.OfOperands := by
  by_cases hstr : x.IsStr ∨ y.IsStr
  · rw [Value.add_of_isStr hstr] at h
    rcases bind_eq_error h with h | ⟨left, -, h⟩
    · exact .of_conversion h
    · rcases bind_eq_error h with h | ⟨right, -, h⟩
      · exact .of_conversion h
      · cases h
  · by_cases hint : x.IsInt ∧ y.IsInt
    · obtain ⟨⟨a, rfl⟩, ⟨b, rfl⟩⟩ := hint
      cases h
    · rw [Value.add_mismatch hstr hint] at h
      cases h
      exact .mismatch

/-- Whatever its operands are, an operator fails with nothing else. -/
theorem Operator.ofOperands_of_apply {op : Operator} {x y : Value} {halt : Halt}
    (h : op.apply x y = .error halt) : halt.OfOperands := by
  cases op with
  | add => exact Value.ofOperands_of_add h
  | eq => cases h
  | neq => cases h
  | and => cases h; exact .connective
  | or => cases h; exact .connective
  | sub => exact Arithmetic.ofOperands_of_apply h
  | mul => exact Arithmetic.ofOperands_of_apply h
  | div => exact Arithmetic.ofOperands_of_apply h
  | rem => exact Arithmetic.ofOperands_of_apply h
  | lt => exact Comparison.ofOperands_of_apply h
  | lte => exact Comparison.ofOperands_of_apply h
  | gt => exact Comparison.ofOperands_of_apply h
  | gte => exact Comparison.ofOperands_of_apply h

/-! ## The types of results -/

/-- The types of values that have parts or captured a scope. -/
def Value.compound : List String := ["Tuple", "Closure"]

section

variable {x y z : Value}

theorem Halt.tag_of_ofTagged {tagged : Tagged} (h : Halt.ofTagged tagged = .ok z) :
    z.tag = tagged.tag := by
  obtain ⟨tag, content⟩ := tagged
  unfold Halt.ofTagged Tagged.value? at h
  split at h
  · next hvalue =>
    cases h
    split at hvalue <;> cases hvalue <;> simp_all [Value.tag]
  · cases h

theorem Arithmetic.tag_of_apply {op : Arithmetic}
    (hop : ∀ tag ∈ op.accepted, tag ∉ Value.compound) (h : op.apply x y = .ok z) :
    z.tag ∉ Value.compound := by
  obtain ⟨tagged, hresult, hz⟩ := bind_eq_ok h
  have htag : tagged.tag ∈ op.accepted := by
    unfold result at hresult
    split at hresult
    · cases hresult
    · next haccepted =>
      split at hresult
      · cases hresult
      · obtain ⟨content, -, hcontent⟩ := bind_eq_ok hresult
        cases hcontent
        exact not_not.1 (not_or.1 haccepted).2
  exact Halt.tag_of_ofTagged hz ▸ hop _ htag

theorem Comparison.tag_of_apply {op : Comparison} (h : op.apply x y = .ok z) :
    z.tag ∉ Value.compound := by
  obtain ⟨tagged, hresult, hz⟩ := bind_eq_ok h
  have htag : tagged.tag = "Bool" := by
    unfold result at hresult
    split at hresult
    · cases hresult
    · obtain ⟨content, -, hcontent⟩ := bind_eq_ok hresult
      cases hcontent
      rfl
  rw [Halt.tag_of_ofTagged hz, htag]
  decide

theorem Value.tag_of_add (h : x.add y = .ok z) : z.tag ∉ Value.compound := by
  by_cases hstr : x.IsStr ∨ y.IsStr
  · rw [add_of_isStr hstr] at h
    obtain ⟨left, -, h⟩ := bind_eq_ok h
    obtain ⟨right, -, h⟩ := bind_eq_ok h
    cases h
    simp [tag, compound]
  by_cases hint : x.IsInt ∧ y.IsInt
  · obtain ⟨⟨a, rfl⟩, ⟨b, rfl⟩⟩ := hint
    cases h
    simp [tag, compound]
  · rw [add_mismatch hstr hint] at h
    cases h

/-- An operator yields neither pairs nor functions, whatever its operands are. -/
theorem Operator.tag_of_apply {op : Operator} (h : op.apply x y = .ok z) :
    z.tag ∉ Value.compound := by
  cases op with
  | add => exact Value.tag_of_add h
  | eq => cases h; simp [Value.tag, Value.compound]
  | neq => cases h; simp [Value.tag, Value.compound]
  | and => cases h
  | or => cases h
  | sub => exact Arithmetic.tag_of_apply (by decide) h
  | mul => exact Arithmetic.tag_of_apply (by decide) h
  | div => exact Arithmetic.tag_of_apply (by decide) h
  | rem => exact Arithmetic.tag_of_apply (by decide) h
  | lt => exact Comparison.tag_of_apply h
  | lte => exact Comparison.tag_of_apply h
  | gt => exact Comparison.tag_of_apply h
  | gte => exact Comparison.tag_of_apply h

end

/-! ## Values that operators do not tell apart -/

/-- Two values of one type and with one text, which are the same unless they have parts or captured
a scope. -/
structure Value.Resembles (x x' : Value) : Prop where
  tag : x.tag = x'.tag
  display : x.display = x'.display
  same : x.tag ∉ Value.compound → x = x'

section

variable {x x' y y' : Value}

theorem Value.tag_str_notMem (text : String) : (Value.str text).tag ∉ compound := by
  simp [tag, compound]

theorem Value.tag_int_notMem (value : Int) : (Value.int value).tag ∉ compound := by
  simp [tag, compound]

namespace Value.Resembles

theorem isStr_iff (h : x.Resembles x') : x.IsStr ↔ x'.IsStr := by
  constructor
  · rintro ⟨text, rfl⟩
    exact ⟨text, (h.same (tag_str_notMem text)).symm⟩
  · rintro ⟨text, rfl⟩
    exact ⟨text, h.same (h.tag ▸ tag_str_notMem text)⟩

theorem isInt_iff (h : x.Resembles x') : x.IsInt ↔ x'.IsInt := by
  constructor
  · rintro ⟨value, rfl⟩
    exact ⟨value, (h.same (tag_int_notMem value)).symm⟩
  · rintro ⟨value, rfl⟩
    exact ⟨value, h.same (h.tag ▸ tag_int_notMem value)⟩

/-- A family of operators that takes no pairs and no functions refuses operands alike that resemble
each other, and those that it takes are the same values. -/
theorem refused_or_eq {accepted : List String}
    (haccepted : ∀ tag ∈ accepted, tag ∉ Value.compound) (hx : x.Resembles x')
    (hy : y.Resembles y') :
    ((x.tag ≠ y.tag ∨ x.tag ∉ accepted) ∧ (x'.tag ≠ y'.tag ∨ x'.tag ∉ accepted)) ∨
      (x = x' ∧ y = y') := by
  by_cases h : x.tag ≠ y.tag ∨ x.tag ∉ accepted
  · exact .inl ⟨h, hx.tag ▸ hy.tag ▸ h⟩
  · obtain ⟨htags, hmem⟩ := not_or.1 h
    have hxtag : x.tag ∉ Value.compound := haccepted _ (not_not.1 hmem)
    exact .inr ⟨hx.same hxtag, hy.same (not_not.1 htags ▸ hxtag)⟩

end Value.Resembles

theorem mismatch_eq_of_resembles (op : String) (hx : x.Resembles x') (hy : y.Resembles y') :
    mismatch op x y = mismatch op x' y' := by
  simp only [mismatch, hx.tag, hy.tag]

theorem Arithmetic.apply_eq_of_resembles {op : Arithmetic}
    (hop : ∀ tag ∈ op.accepted, tag ∉ Value.compound) (hx : x.Resembles x')
    (hy : y.Resembles y') : op.apply x y = op.apply x' y' := by
  rcases hx.refused_or_eq hop hy with ⟨h, h'⟩ | ⟨rfl, rfl⟩
  · simp only [apply, result, if_pos h, if_pos h', mismatch_eq_of_resembles op.name hx hy]
  · rfl

theorem Comparison.apply_eq_of_resembles {op : Comparison}
    (hop : ∀ tag ∈ op.accepted, tag ∉ Value.compound) (hx : x.Resembles x')
    (hy : y.Resembles y') : op.apply x y = op.apply x' y' := by
  rcases hx.refused_or_eq hop hy with ⟨h, h'⟩ | ⟨rfl, rfl⟩
  · simp only [apply, result, if_pos h, if_pos h', mismatch_eq_of_resembles op.name hx hy]
  · rfl

theorem Value.add_eq_of_resembles (hx : x.Resembles x') (hy : y.Resembles y') :
    x.add y = x'.add y' := by
  by_cases hstr : x.IsStr ∨ y.IsStr
  · have hstr' : x'.IsStr ∨ y'.IsStr := by rwa [← hx.isStr_iff, ← hy.isStr_iff]
    rw [add_of_isStr hstr, add_of_isStr hstr', hx.display, hy.display]
  by_cases hint : x.IsInt ∧ y.IsInt
  · obtain ⟨⟨a, rfl⟩, ⟨b, rfl⟩⟩ := hint
    rw [hx.same (tag_int_notMem a), hy.same (tag_int_notMem b)]
  · have hstr' : ¬ (x'.IsStr ∨ y'.IsStr) := by rwa [← hx.isStr_iff, ← hy.isStr_iff]
    have hint' : ¬ (x'.IsInt ∧ y'.IsInt) := by rwa [← hx.isInt_iff, ← hy.isInt_iff]
    rw [add_mismatch hstr hint, add_mismatch hstr' hint', hx.tag, hy.tag]

/-- Operators give the same for operands that resemble each other, if these are also equal to each
other or not on both sides. -/
theorem Operator.apply_eq_of_resembles (op : Operator) (hx : x.Resembles x') (hy : y.Resembles y')
    (hequal : x.equal y = x'.equal y') : op.apply x y = op.apply x' y' := by
  cases op with
  | add => exact Value.add_eq_of_resembles hx hy
  | eq => simp only [apply, hequal]
  | neq => simp only [apply, hequal]
  | and => rfl
  | or => rfl
  | sub => exact Arithmetic.apply_eq_of_resembles (by decide) hx hy
  | mul => exact Arithmetic.apply_eq_of_resembles (by decide) hx hy
  | div => exact Arithmetic.apply_eq_of_resembles (by decide) hx hy
  | rem => exact Arithmetic.apply_eq_of_resembles (by decide) hx hy
  | lt => exact Comparison.apply_eq_of_resembles (by decide) hx hy
  | lte => exact Comparison.apply_eq_of_resembles (by decide) hx hy
  | gt => exact Comparison.apply_eq_of_resembles (by decide) hx hy
  | gte => exact Comparison.apply_eq_of_resembles (by decide) hx hy

end

end Rinha
