import Rinha.Proofs.Adequacy
import Rinha.Proofs.Sessions
import Rinha.Wire

/-!
# Programs are safe to run

A program that has been decoded yields a value of the language, or fails in one of a few ways: with
an error that running programs are meant to have, or because an integer is too long to be written.
Errors of decoding never arise, nor does an operator meet operands for which it has no rule.

The rules of the language say so, failure by failure, and evaluation follows the rules unless a
limit cuts it short.

## Main definitions

* `Error.programKinds` -- the kinds of error that programs fail with.
* `Halt.OfProgram` -- the ways in which programs fail.
* `Derives.ordinary` -- the rules of the language give no other failures.
* `evaluate_ofProgram` -- nor does evaluation, unless the host cannot follow it.
-/

namespace Rinha

/-- The kinds of error that programs fail with. -/
def Error.programKinds : List String :=
  ["UnboundVariable", "NotCallable", "WrongArity", "NotATuple", "DivisionByZero", "TypeMismatch",
    "StackExhausted"]

/-- A failure of a program: an error of such a kind, or an integer that is too long to be written,
be it in a value or the depth allowed. -/
def Halt.OfProgram : Halt → Prop
  | .error e _ => e.kind ∈ Error.programKinds
  | .digits refusal => refusal = .writing
  | .unworded _ => True
  | .nesting | .fault _ => False

@[simp] theorem Halt.ofProgram_unplaced (halt : Halt) :
    halt.unplaced.OfProgram ↔ halt.OfProgram := by
  cases halt <;> rfl

/-! ## Failures by the rules -/

/-- A result that is no failure, or a failure of the program. -/
def Ordinary {α : Type} : Except Halt α → Prop
  | .ok _ => True
  | .error halt => halt.OfProgram

/-- The rules for operators give ordinary results. -/
theorem Operator.Applies.ordinary {op : Operator} {x y : Value} {r : Except Halt Value}
    (h : op.Applies x y r) : Ordinary r := by
  cases h <;> simp [Ordinary, Halt.OfProgram, Halt.unlocated, Error.kind, Error.programKinds]

mutual

/-- The rules give ordinary results. -/
theorem Derives.ordinary {node : Node} {e : ScopeId} {s s' : Store} {r : Except Halt Value}
    {o : String} (h : Derives node e s r o s') : Ordinary r := by
  -- By recursion on the derivation: a failure arises in a rule itself, or else in a premise.
  match h with
  | .var_unbound .. | .call_arity .. | .call_other .. | .first_other .. | .second_other .. =>
    simp [Ordinary, Halt.OfProgram, Halt.unlocated, Error.kind, Error.programKinds]
  | .print_refused .. => exact rfl
  | .binary _ _ _ _ happlies => exact happlies.ordinary
  | .head _ h => exact h.ordinary
  | .letIn _ h => exact h.ordinary
  | .cond_then _ _ h => exact h.ordinary
  | .cond_otherwise _ h => exact h.ordinary
  | .call_argument _ _ h => exact h.ordinary
  | .call _ _ _ h => exact h.ordinary
  | .and_right _ _ h => exact h.ordinary
  | .or_right _ h => exact h.ordinary
  | .binary_right _ _ _ h => exact h.ordinary
  | .tuple_right _ h => exact h.ordinary
  | .str | .int | .bool | .var _ | .function | .print .. | .and_left _ | .or_left .. | .tuple ..
  | .first _ | .second _ => trivial

/-- The same for several nodes. -/
theorem DerivesAll.ordinary {nodes : List Node} {e : ScopeId} {s s' : Store}
    {r : Except Halt (List Value)} {o : String} (h : DerivesAll nodes e s r o s') :
    Ordinary r := by
  match h with
  | .nil | .cons .. => trivial
  | .head h => exact h.ordinary
  | .tail _ h => exact h.ordinary

end

/-! ## Failures of evaluation -/

/-- What is due to a limit is a failure of the program, unless it is due to the host. -/
theorem Halt.ofProgram_of_isLimit {halt : Halt} (h : halt.isLimit) :
    halt = .nesting ∨ halt.OfProgram := by
  obtain rfl | ⟨allowed, location, rfl⟩ | ⟨refusal, rfl⟩ := Halt.isLimit_iff.1 h
  · exact .inl rfl
  · exact .inr (by simp [Halt.OfProgram, Error.kind, Error.programKinds])
  · exact .inr trivial

/-- Evaluation in a scope of a valid store fails in no other way, if the host can follow it. -/
theorem evaluate_ofProgram {settings : Settings} {budget : Nat} {node : Node} {e : ScopeId}
    {m m' : Machine} {halt : Halt} (hm : m.store.Valid) (he : e < m.store.scopes.size)
    (h : evaluate settings budget node e m = .error halt m') :
    halt = .nesting ∨ halt.OfProgram := by
  by_cases hlimit : halt.isLimit
  · exact Halt.ofProgram_of_isLimit hlimit
  · obtain ⟨text, houtput⟩ := evaluate_prints settings budget node e m
    rw [h] at houtput
    have hconcludes : Run.Concludes m (evaluate settings budget node e m)
        (.error halt.unplaced) text m'.store :=
      h ▸ Run.Concludes.error_iff.2 ⟨rfl, hlimit, houtput, rfl⟩
    have hfailure : halt.unplaced.OfProgram := (evaluate_sound hm he hconcludes).ordinary
    exact .inr (halt.ofProgram_unplaced.1 hfailure)

/-- A run that the host cannot follow counts as one beyond the depth allowed. -/
theorem Settings.ofProgram_exhausted {settings : Settings} {halt : Halt}
    (h : halt = .nesting ∨ halt.OfProgram) : (settings.exhausted halt).OfProgram := by
  rcases h with rfl | h
  · have hrefusal := Halt.ofProgram_of_isLimit (Halt.isLimit_refusal settings.maxDepth none)
    exact hrefusal.resolve_left (Halt.refusal_ne_nesting settings.maxDepth none)
  · cases halt with
    | nesting => exact h.elim
    | _ => exact h

/-- A run of a tree fails in no other way. -/
theorem interpret_ofProgram (settings : Settings) (host : Limits) (root : Node) {m : Machine}
    (hm : m.store.Valid) (halt : Halt) (m' : Machine)
    (h : interpret settings host root m = .error halt m') : halt.OfProgram := by
  have hfresh : m.fresh.store.Valid := hm.newScope (by simp) (by simp)
  have hscope : m.store.scopes.size < m.fresh.store.scopes.size := by simp [Machine.fresh]
  rw [interpret_apply] at h
  cases hresult : evaluate settings (settings.budgetOn host 0) root
      m.store.scopes.size m.fresh with
  | ok x m'' =>
    rw [hresult] at h
    cases h
  | error cause m'' =>
    rw [hresult] at h
    cases h
    exact Settings.ofProgram_exhausted (evaluate_ofProgram hfresh hscope hresult)

/-- **Decoded programs are safe to run.**  Whatever data a program was decoded from, and whatever
depth is allowed, a run of it yields a value of the language over scopes that exist, or it fails as
programs do: with an error of one of the seven kinds, or because an integer is too long to be
written.  In particular no error of decoding arises, and no operation on data without a result. -/
theorem decoded_program_safe (limits host : Limits) (settings : Settings) (data : Json)
    (program : Program) (m : Machine) (hm : m.store.Valid) :
    Wire.decodeProgram limits data = .ok program →
    (∃ x m', interpret settings host program.expression m = .ok x m' ∧
      x.Valid m'.store.scopes.size) ∨
    ∃ halt m', interpret settings host program.expression m = .error halt m' ∧ halt.OfProgram := by
  intro _
  have hpreserves := interpret_preserves settings host program.expression hm
  cases h : interpret settings host program.expression m with
  | ok x m' =>
    rw [h] at hpreserves
    exact .inl ⟨x, m', rfl, hpreserves.value x m' rfl⟩
  | error halt m' =>
    exact .inr ⟨halt, m', rfl, interpret_ofProgram settings host program.expression hm halt m' h⟩

/-- A program that applies a function to a string: it prints the string and then divides it. -/
theorem decoded_program_safe_division :
    let use : Json := .obj [("kind", .str "Var"), ("text", .str "p")]
    let body : Json := .obj [("kind", .str "Binary"), ("op", .str "Div"),
      ("lhs", .obj [("kind", .str "Print"), ("value", use)]), ("rhs", .int 0)]
    let function : Json :=
      .obj [("kind", .str "Function"), ("parameters", .arr [.str "p"]), ("value", body)]
    let data : Json := .obj [("expression",
      .obj [("kind", .str "Call"), ("callee", function), ("arguments", .arr [.str "a"])])]
    ∃ program halt m', Wire.decodeProgram ⟨9, 9, 9, 9⟩ data = .ok program ∧
      interpret ⟨9, false⟩ .standard program.expression {} = .error halt m' ∧
      m'.output = "a\n" ∧ halt.OfProgram := by
  intro use body function data
  let tree : Node := .call
    (.function ["p"] (.binary .div (.print (.var "p" none) none) (.int 0 none) none) none)
    [.str "a" none] none
  have hprogram : Wire.decodeProgram ⟨9, 9, 9, 9⟩ data = .ok ⟨"", tree, none⟩ := rfl
  have hvalid : Store.Valid {} := ⟨by simp [Store.WellFormed], by simp⟩
  have hfails : (Run.outcome (interpret ⟨9, false⟩ .standard tree {})).isOk = false := by
    decide +kernel
  have hprints : (Run.machine (interpret ⟨9, false⟩ .standard tree {})).output = "a\n" := by
    decide +kernel
  rcases decoded_program_safe ⟨9, 9, 9, 9⟩ .standard ⟨9, false⟩ data _ {} hvalid hprogram with
    ⟨x, m', hvalue, -⟩ | ⟨halt, m', herror, hfailure⟩
  · rw [hvalue] at hfails
    cases hfails
  · rw [herror] at hprints
    exact ⟨_, halt, m', hprogram, herror, hprints, hfailure⟩

end Rinha
