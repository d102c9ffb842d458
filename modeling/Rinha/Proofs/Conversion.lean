import Rinha.Proofs.Equality
import Rinha.Proofs.Plan

/-!
# Texts and their limit

Integers are computed with at any size, but are written only up to a number of digits.  What cannot
be written is a value that has such an integer somewhere inside it, and this shows only where the
value is turned into text: where it is printed, and where it is joined to a string.  Either happens
as a whole or not at all.

## Main definitions

* `Value.Oversized` -- an integer inside a value is too long to be written.
* `Value.display_eq_error_iff`, `Value.exists_shows` -- such a value has no text, any other has one.
* `evaluate_print` -- a value is printed as a whole, or nothing is.
* `Operator.add_eq_refused_iff` -- when an addition is refused for the length of an integer.
* `conversion_limit` -- all of this of the values of the language.
-/

namespace Rinha

namespace Value

variable {P : ClosureProperty} {x y : Value}

/-! ## Integers that are too long -/

/-- An integer that is reached in a value through pairs has more digits than are ever written. -/
def Oversized (x : Value) : Prop :=
  ∃ path value, x.part? path = some (.int value) ∧ Nat.pow 10 digitLimit ≤ value.natAbs

/-- A value that an integer is reached in is an integer, or a pair with a component that the integer
is reached in. -/
theorem unshowable_of_part {path : List Side} {value : Int}
    (hpart : x.part? path = some (.int value)) (hlong : Nat.pow 10 digitLimit ≤ value.natAbs) :
    x.Unshowable := by
  induction path generalizing x with
  | nil =>
    cases hpart
    exact .int hlong
  | cons side path ih =>
    cases x with
    | tuple a b =>
      cases side with
      | left => exact .left (ih hpart)
      | right => exact .right (ih hpart)
    | _ => cases side <;> cases hpart

theorem oversized_iff_unshowable : x.Oversized ↔ x.Unshowable := by
  constructor
  · rintro ⟨path, value, hpart, hlong⟩
    exact unshowable_of_part hpart hlong
  · intro h
    induction h with
    | @int value hlong => exact ⟨[], value, rfl, hlong⟩
    | left _ ih =>
      obtain ⟨path, value, hpart, hlong⟩ := ih
      exact ⟨.left :: path, value, hpart, hlong⟩
    | right _ ih =>
      obtain ⟨path, value, hpart, hlong⟩ := ih
      exact ⟨.right :: path, value, hpart, hlong⟩

/-- An integer is itself all that is reached in it. -/
theorem oversized_int_iff (value : Int) :
    Oversized (.int value) ↔ Nat.pow 10 digitLimit ≤ value.natAbs := by
  rw [oversized_iff_unshowable]
  constructor
  · rintro ⟨hlong⟩
    exact hlong
  · exact .int

theorem IsStr.not_oversized (h : x.IsStr) : ¬ x.Oversized := by
  obtain ⟨text, rfl⟩ := h
  rw [oversized_iff_unshowable]
  intro hunshowable
  cases hunshowable

/-! ## The text of a value -/

/-- A value without such an integer has a text. -/
theorem exists_shows (hx : x.All P) (h : ¬ x.Oversized) :
    ∃ text, x.Shows text ∧ x.display = .ok text := by
  rcases shows_or_unshowable hx with ⟨text, htext⟩ | hunshowable
  · exact ⟨text, htext, display_of_shows htext⟩
  · exact absurd (oversized_iff_unshowable.2 hunshowable) h

theorem display_of_oversized (h : x.Oversized) : x.display = .error .writing :=
  display_of_unshowable (oversized_iff_unshowable.1 h)

/-- The text of a value is refused for such an integer, wherever it is, and for nothing else. -/
theorem display_eq_error_iff (hx : x.All P) : x.display = .error .writing ↔ x.Oversized := by
  constructor
  · intro h
    by_contra hsmall
    obtain ⟨text, -, htext⟩ := exists_shows hx hsmall
    rw [h] at htext
    cases htext
  · exact display_of_oversized

theorem printed_of_display {text : String} (h : x.display = .ok text) :
    x.printed = .ok (text ++ "\n") := by
  rw [printed, h]
  rfl

theorem printed_of_oversized (h : x.Oversized) : x.printed = .error .writing := by
  rw [printed, display_of_oversized h]
  rfl

end Value

/-! ## Printing -/

section

variable {P : ClosureProperty} {settings : Settings} {budget : Nat} {operand : Node}
  {location : Option Location} {scope : ScopeId} {m m' : Machine} {x : Value}

/-- Once its operand is a value, printing writes a whole line and yields the value, or writes
nothing. -/
theorem evaluate_print (hdepth : m.depth < settings.maxDepth)
    (hoperand : evaluate settings budget operand scope (m.started settings .print) = .ok x m') :
    evaluate settings (budget + 1) (.print operand location) scope m =
      match x.printed with
      | .ok line => .ok x (m'.wrote line).ended
      | .error refusal => .error (.digits refusal) m'.ended := by
  rw [evaluate_granted settings budget (.print operand location) scope m hdepth]
  simp only [Plan.ofNode, Plan.run, Node.kind, hoperand]
  cases x.printed <;> rfl

theorem evaluate_print_of_not_oversized (hx : x.All P) (hdepth : m.depth < settings.maxDepth)
    (hoperand : evaluate settings budget operand scope (m.started settings .print) = .ok x m')
    (h : ¬ x.Oversized) :
    ∃ text, x.Shows text ∧ evaluate settings (budget + 1) (.print operand location) scope m =
      .ok x { m' with output := m'.output ++ (text ++ "\n"), depth := m'.depth - 1 } := by
  obtain ⟨text, hshows, hdisplay⟩ := Value.exists_shows hx h
  refine ⟨text, hshows, ?_⟩
  rw [evaluate_print hdepth hoperand, Value.printed_of_display hdisplay]
  rfl

theorem evaluate_print_of_oversized (hdepth : m.depth < settings.maxDepth)
    (hoperand : evaluate settings budget operand scope (m.started settings .print) = .ok x m')
    (h : x.Oversized) :
    evaluate settings (budget + 1) (.print operand location) scope m =
      .error (.digits .writing) { m' with depth := m'.depth - 1 } := by
  rw [evaluate_print hdepth hoperand, Value.printed_of_oversized h]
  rfl

end

/-! ## Addition -/

namespace Operator

variable {P : ClosureProperty} {x y : Value}

/-- An addition is refused for the length of an integer exactly if one operand is a string and the
integer is in the other. -/
theorem add_eq_refused_iff (hx : x.All P) (hy : y.All P) :
    add.apply x y = .error (.digits .writing) ↔
      x.IsStr ∧ y.Oversized ∨ y.IsStr ∧ x.Oversized := by
  constructor
  · intro h
    have hrule : add.Applies x y (add.apply x y) := applies_apply (by decide) (by decide) hx hy
    rw [h] at hrule
    cases hrule with
    | join_refused hstr hrefused =>
      rw [← Value.oversized_iff_unshowable, ← Value.oversized_iff_unshowable] at hrefused
      rcases hstr with hstr | hstr
      · exact .inl ⟨hstr, hrefused.resolve_left hstr.not_oversized⟩
      · exact .inr ⟨hstr, hrefused.resolve_right hstr.not_oversized⟩
  · rintro (⟨hstr, hlong⟩ | ⟨hstr, hlong⟩)
    · have hrefused := Value.oversized_iff_unshowable.1 hlong
      exact apply_eq_of_applies hx hy (.join_refused (.inl hstr) (.inr hrefused))
    · have hrefused := Value.oversized_iff_unshowable.1 hlong
      exact apply_eq_of_applies hx hy (.join_refused (.inr hstr) (.inl hrefused))

end Operator

/-- **Text conversion and its limit.**  A value is refused its text exactly if an integer that is
reached in it through pairs has too many digits, and has its text otherwise.  Printing a value
writes the text and a line feed and yields the value, or fails and writes nothing.  Addition is
refused for the length of an integer exactly if one operand is a string and such an integer is in
the other; two integers are added whatever their size. -/
theorem conversion_limit (P : ClosureProperty) :
    (∀ x : Value, x.All P → (x.display = .error .writing ↔ x.Oversized) ∧
      (¬ x.Oversized → ∃ text, x.Shows text ∧ x.display = .ok text)) ∧
    (∀ (settings : Settings) (budget : Nat) (operand : Node) (location : Option Location)
      (scope : ScopeId) (m m' : Machine) (x : Value), x.All P → m.depth < settings.maxDepth →
      evaluate settings budget operand scope (m.started settings .print) = .ok x m' →
      (¬ x.Oversized → ∃ text, x.Shows text ∧
        evaluate settings (budget + 1) (.print operand location) scope m =
          .ok x { m' with output := m'.output ++ (text ++ "\n"), depth := m'.depth - 1 }) ∧
      (x.Oversized → evaluate settings (budget + 1) (.print operand location) scope m =
        .error (.digits .writing) { m' with depth := m'.depth - 1 })) ∧
    (∀ x y : Value, x.All P → y.All P →
      (Operator.add.apply x y = .error (.digits .writing) ↔
        x.IsStr ∧ y.Oversized ∨ y.IsStr ∧ x.Oversized)) ∧
    ∀ a b : Int, Operator.add.apply (.int a) (.int b) = .ok (.int (a + b)) := by
  refine ⟨?_, ?_, ?_, ?_⟩
  · intro x hx
    exact ⟨Value.display_eq_error_iff hx, Value.exists_shows hx⟩
  · intro settings budget operand location scope m m' x hx hdepth hoperand
    exact ⟨evaluate_print_of_not_oversized hx hdepth hoperand,
      evaluate_print_of_oversized hdepth hoperand⟩
  · intro x y hx hy
    exact Operator.add_eq_refused_iff hx hy
  · intro a b
    rfl

/-- The least integer that is too long, negated and deep inside a pair, and the integer next to
it. -/
theorem conversion_limit_boundary :
    let long : Int := -(Nat.pow 10 digitLimit : Nat)
    let pair : Value := .tuple (.str "a") (.tuple (.bool true) (.int long))
    pair.display = .error .writing ∧
    (∃ text, Value.display (.int (long + 1)) = .ok text) ∧
    evaluate {} 2 (.print (.int 7 none) none) 0 {} = .ok (.int 7) { output := "7\n" } ∧
    evaluate {} 2 (.print (.int long none) none) 0 {} = .error (.digits .writing) {} ∧
    Operator.add.apply pair (.str "") = .error (.digits .writing) ∧
    Operator.add.apply (.int long) (.int long) = .ok (.int (long + long)) := by
  intro long pair
  -- The power is computed here only; below it is some number beyond seven.
  have hbound : 7 < Nat.pow 10 digitLimit := by decide +kernel
  have hlong : long.natAbs = Nat.pow 10 digitLimit := by
    rw [Int.natAbs_neg, Int.natAbs_natCast]
  have hbefore : (long + 1).natAbs < Nat.pow 10 digitLimit := by omega
  have hoversized : Value.Oversized (.int long) := (Value.oversized_int_iff long).2 hlong.ge
  have hpair : pair.Oversized := ⟨[.right, .right], long, rfl, hlong.ge⟩
  have hsmall {value : Int} (h : value.natAbs < Nat.pow 10 digitLimit) :
      ¬ Value.Oversized (.int value) := by
    rw [Value.oversized_int_iff]
    omega
  obtain ⟨hdisplay, hprint, hadd, hints⟩ := conversion_limit fun _ _ _ _ => True
  refine ⟨(hdisplay pair ⟨trivial, trivial, trivial⟩).1.2 hpair, ?_, ?_, ?_, ?_, hints long long⟩
  · obtain ⟨text, -, htext⟩ := (hdisplay (.int (long + 1)) trivial).2 (hsmall hbefore)
    exact ⟨text, htext⟩
  · obtain ⟨_, ⟨⟩, hrun⟩ := (hprint {} 1 (.int 7 none) none 0 {} (Machine.started {} {} .print)
      (.int 7) trivial (by decide) rfl).1 (hsmall hbound)
    exact hrun
  · exact (hprint {} 1 (.int long none) none 0 {} (Machine.started {} {} .print) (.int long) trivial
      (by decide) rfl).2 hoversized
  · exact (hadd pair (.str "") ⟨trivial, trivial, trivial⟩ trivial).2 (.inr ⟨⟨"", rfl⟩, hpair⟩)

end Rinha
