import Rinha.Proofs.Observation
import Rinha.Proofs.Validity

/-!
# Runs with a register of closures

A recorded run keeps a register of all closures that were made so far, newest first.  Every entry of
the register differs from all older ones, and whatever closure is bound in a scope, or is part of
what is yielded, is an entry.

## Main definitions

* `Register`, `recorder`, `record` -- evaluation with a register.
* `Store.Registers` -- the closures of a register differ, and the scopes bind no others.
* `record_registered` -- evaluation keeps the register of a store.
-/

namespace Rinha

/-- The closures that were made so far, newest first. -/
abbrev Register := List Value

/-- Keeps a register. -/
def recorder : Observer (Register → Register) where
  spent _ register := register
  refused _ _ register := register
  granted _ _ inner _ := inner
  still _ _ register := register
  acted _ _ after := after
  closed site m parameters body register :=
    (m.store.newClosure parameters body site.scope).1 :: register
  followed child after register := after (child register)
  entered _ _ _ body := body

/-- A recorded computation, from the register so far. -/
def Run.recorded (register : Register)
    (outcome : EStateM.Result Halt Machine Value × (Register → Register)) :
    EStateM.Result Halt Machine Value × Register :=
  (outcome.1, outcome.2 register)

/-- Evaluates a node with a register, within a budget of nested evaluations. -/
def record (settings : Settings) (budget : Nat) (node : Node) (scope : ScopeId) (m : Machine)
    (register : Register) : EStateM.Result Halt Machine Value × Register :=
  Run.recorded register (observe recorder settings budget node scope m)

/-- Without its register, a recorded evaluation is an evaluation. -/
theorem record_fst (settings : Settings) (budget : Nat) (node : Node) (scope : ScopeId)
    (m : Machine) (register : Register) :
    (record settings budget node scope m register).1 = evaluate settings budget node scope m :=
  observe_fst recorder settings budget node scope m

/-- Evaluating a function adds the closure that it yields to the register. -/
theorem record_function {settings : Settings} {m : Machine} (h : m.depth < settings.maxDepth)
    (budget : Nat) (parameters : List String) (body : Node) (l : Option Location)
    (scope : ScopeId) (register : Register) :
    record settings (budget + 1) (.function parameters body l) scope m register =
      (.ok (m.store.newClosure parameters body scope).1
        ((m.started settings .function).closed parameters body scope).ended,
        (m.store.newClosure parameters body scope).1 :: register) := by
  have hstore : (m.started settings .function).store = m.store := Machine.store_started ..
  rw [record, observe_granted recorder settings budget _ scope m h, ← hstore]
  rfl

/-! ## What registers hold -/

/-- A closure is an entry of a register. -/
def Register.Has (register : Register) : ClosureProperty :=
  fun id parameters body captured => .closure id parameters body captured ∈ register

/-- All closures in a value are entries of a register. -/
def Value.Registered (register : Register) (x : Value) : Prop :=
  x.All register.Has

theorem Value.Registered.mono {register register' : Register} (h : register <:+ register')
    {x : Value} (hx : x.Registered register) : x.Registered register' :=
  Value.All.mono (fun _ _ _ _ hmem => h.subset hmem) hx

/-- The entries of a register are closures that a store has made, each of which differs from all
older ones, and the scopes of the store bind no other closures. -/
structure Store.Registers (store : Store) (register : Register) : Prop where
  made : ∀ x ∈ register, ∃ id parameters body captured,
    x = .closure id parameters body captured ∧ id < store.nextClosure
  distinct : register.Pairwise fun new old => new.equal old = false
  bound : store.Holds (Value.Registered register)

namespace Store.Registers

variable {s : Store} {register : Register}

/-- Making a closure adds it to the register. -/
theorem newClosure (h : s.Registers register) (parameters : List String) (body : Node)
    (e : ScopeId) :
    (s.newClosure parameters body e).2.Registers
      ((s.newClosure parameters body e).1 :: register) where
  made x hx := by
    rcases List.mem_cons.1 hx with rfl | hx
    · exact ⟨_, _, _, _, rfl, Nat.lt_succ_self _⟩
    · obtain ⟨id, ps, body', captured, rfl, hlt⟩ := h.made x hx
      exact ⟨id, ps, body', captured, rfl, Nat.lt_succ_of_lt hlt⟩
  distinct := by
    refine List.pairwise_cons.2 ⟨fun old hold => ?_, h.distinct⟩
    obtain ⟨id, ps, body', captured, rfl, hlt⟩ := h.made old hold
    exact beq_eq_false_iff_ne.2 (Nat.ne_of_gt hlt)
  bound := h.bound.mono fun _ hx => hx.mono (List.suffix_cons _ register)

theorem define (h : s.Registers register) {x : Value} (hx : x.Registered register) (e : ScopeId)
    (name : String) : (s.define e name x).Registers register :=
  ⟨h.made, h.distinct, h.bound.define hx e name⟩

theorem newScope (h : s.Registers register) {bindings : Bindings}
    (hbindings : ∀ binding ∈ bindings, binding.2.Registered register) (parent : Option ScopeId) :
    (s.newScope parent bindings).2.Registers register :=
  ⟨h.made, h.distinct, h.bound.newScope hbindings parent⟩

theorem enter (h : s.Registers register) {values : List Value}
    (hvalues : ∀ x ∈ values, x.Registered register) (parent : Option ScopeId)
    (parameters : List String) :
    (s.newScope parent (.ofArguments parameters values)).2.Registers register :=
  ⟨h.made, h.distinct, h.bound.enter hvalues parent parameters⟩

/-- Entries of a register that are equal are the same. -/
theorem eq_of_equal (h : s.Registers register) {x y : Value} (hx : x ∈ register)
    (hy : y ∈ register) (hequal : x.equal y) : x = y := by
  have hsymm : ∀ {a b : Value}, a ∈ register → b ∈ register → a.equal b = false →
      b.equal a → b = a := by
    intro a b ha hb hab hba
    obtain ⟨id, _, _, _, rfl, -⟩ := h.made a ha
    obtain ⟨id', _, _, _, rfl, -⟩ := h.made b hb
    exact absurd (beq_iff_eq.1 hba).symm (beq_eq_false_iff_ne.1 hab)
  have hdistinct : register.Pairwise fun a b => a.equal b → a = b :=
    h.distinct.imp fun hab hequal => by rw [hab] at hequal; cases hequal
  exact List.Pairwise.forall_of_forall_of_flip (fun _ _ _ => rfl) hdistinct
    (h.distinct.imp_of_mem hsymm) hx hy hequal

end Store.Registers

/-! ## Evaluation keeps the register -/

/-- How a recorded evaluation ends: the store is registered, no closure is taken from the register,
and all closures in what is yielded are entries. -/
structure Run.Registered (register : Register)
    (recorded : EStateM.Result Halt Machine Value × Register) : Prop where
  store : (machine recorded.1).store.Registers recorded.2
  grows : register <:+ recorded.2
  value : ∀ x m', recorded.1 = .ok x m' → x.Registered recorded.2

namespace Run.Registered

variable {register register' : Register} {m : Machine}

theorem error {halt : Halt} (hm : m.store.Registers register) :
    Run.Registered register (.error halt m, register) :=
  ⟨hm, List.suffix_refl register, fun _ _ h => nomatch h⟩

theorem ok {x : Value} (hm : m.store.Registers register) (hx : x.Registered register) :
    Run.Registered register (.ok x m, register) := by
  refine ⟨hm, List.suffix_refl register, ?_⟩
  rintro _ _ ⟨⟩
  exact hx

theorem leave {recorded : EStateM.Result Halt Machine Value × Register}
    (h : Run.Registered register recorded) (location : Option Location) :
    Run.Registered register (Run.leave location recorded.1, recorded.2) := by
  obtain ⟨result, entries⟩ := recorded
  cases result with
  | error halt m' => exact ⟨h.store, h.grows, fun _ _ hx => nomatch hx⟩
  | ok x m' =>
    refine ⟨h.store, h.grows, ?_⟩
    rintro _ _ ⟨⟩
    exact h.value x m' rfl

theorem of_suffix {recorded : EStateM.Result Halt Machine Value × Register}
    (h : Run.Registered register' recorded) (hgrows : register <:+ register') :
    Run.Registered register recorded :=
  ⟨h.store, hgrows.trans h.grows, h.value⟩

end Run.Registered

/-- Carrying out a plan keeps the register, if evaluating nodes does. -/
theorem Plan.record_registered (settings : Settings) {eval : Observed (Register → Register)}
    (heval : ∀ node e (m : Machine) register, m.store.Registers register →
      Run.Registered register (Run.recorded register (eval node e m)))
    (plan : Plan) (site : Site) (m : Machine) (register : Register)
    (hm : m.store.Registers register) (hplan : plan.Carries register.Has) :
    Run.Registered register
      (Run.recorded register (plan.observe recorder settings eval site m)) := by
  induction plan generalizing m register with
  | done result =>
    cases result with
    | error halt => exact .error hm
    | ok value => exact .ok hm hplan
  | write text rest ih => exact ih (m.wrote text) register hm hplan
  | define name value rest ih =>
    refine ih (m.bound settings site.scope name value) register ?_ hplan.2
    rw [Machine.store_bound]
    exact hm.define hplan.1 site.scope name
  | fetch name =>
    simp only [observe]
    cases h : m.store.lookup site.scope name with
    | none => exact .error hm
    | some value => exact .ok hm (hm.bound.lookup h)
  | close parameters body =>
    refine (Run.Registered.ok (hm.newClosure parameters body site.scope) ?_).of_suffix
      (List.suffix_cons _ register)
    exact List.mem_cons_self
  | child node rest ih =>
    have hnode := heval node site.scope m register hm
    simp only [observe]
    rcases h : eval node site.scope m with ⟨result, change⟩
    rw [h] at hnode
    cases result with
    | error halt m' => exact hnode
    | ok value m' =>
      refine (ih value m' (change register) hnode.store ?_).of_suffix hnode.grows
      exact hplan _ (fun _ _ _ _ hmem => hnode.grows.subset hmem) value (hnode.value value m' rfl)
  | enter id parameters body captured values =>
    refine heval body _ _ register ?_
    rw [Machine.store_entered]
    exact hm.enter hplan.2 (some captured) parameters

/-- Evaluation keeps the register, and yields closures of the register only. -/
theorem record_registered (settings : Settings) (budget : Nat) (node : Node) (e : ScopeId)
    (m : Machine) (register : Register) (hm : m.store.Registers register) :
    Run.Registered register (record settings budget node e m register) := by
  refine observe_induction (P := fun _ _ m outcome => ∀ register, m.store.Registers register →
    Run.Registered register (Run.recorded register outcome))
    (fun _ _ m register hm => ?_) (fun _ _ m _ register hm => ?_)
    (fun budget ih node e m _ register hm => ?_) budget node e m register hm
  · exact .error hm
  · exact .error ((Machine.store_noted m settings _).symm ▸ hm)
  · have hstarted : (m.started settings node.kind).store.Registers register :=
      (Machine.store_started m settings node.kind).symm ▸ hm
    exact (Plan.record_registered settings ih (.ofNode node) ⟨node, e, m⟩ _ register hstarted
      (Plan.carries_ofNode node register.Has)).leave node.location

end Rinha
