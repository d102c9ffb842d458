import Mathlib.Logic.Relation
import Rinha.Proofs.Register
import Rinha.Session

/-!
# The identity of closures

A closure is equal to nothing but itself, wherever copies of it have come to in the course of a
session.  To say so, a chronicle keeps beside a session the register of all closures made in it, by
evaluations or by the host, and the answers that it has given.  Closures that circulate, in scopes
or in answers, are entries of the register; entries differ from one another, so that closures that
are equal are the same.

## Main definitions

* `Evaluation`, `Session.evaluation?` -- the evaluation that a command asks for.
* `Chronicle`, `Chronicle.Step` -- a session with its register and its answers, and how it goes on.
* `Chronicle.Circulates` -- the closures in scopes and answers.
* `HandsOn` -- a value gets from place to place as it is.
* `closure_identity_sound` -- equality of closures is sound over whole sessions.
-/

namespace Rinha

/-! ## The evaluations of a session -/

/-- The evaluation of a node in a scope, from some machine. -/
structure Evaluation where
  settings : Settings
  budget : Nat
  node : Node
  scope : ScopeId
  start : Machine

/-- How an evaluation ends. -/
def Evaluation.run (e : Evaluation) : EStateM.Result Halt Machine Value :=
  evaluate e.settings e.budget e.node e.scope e.start

/-- How an evaluation ends, with the register after it. -/
def Evaluation.record (e : Evaluation) (register : Register) :
    EStateM.Result Halt Machine Value × Register :=
  Rinha.record e.settings e.budget e.node e.scope e.start register

/-- The evaluation that a command asks for, if it asks for one and the scope exists. -/
def Session.evaluation? (session : Session) (command : Command) : Option Evaluation :=
  let m : Machine := { session.machine with output := "" }
  let within (settings : Settings) (depth : Int) : Nat :=
    settings.budgetOn session.host depth
  match command with
  | .evaluate scope node => (session.scope? scope).map fun id =>
    ⟨session.settings, within session.settings 0, node, id, { m with depth := 0 }⟩
  | .interpret node =>
    some ⟨session.settings, within session.settings 0, node, m.store.scopes.size, m.fresh⟩
  | .resume scope node => (session.scope? scope).map fun id =>
    ⟨session.settings, within session.settings m.depth, node, id, m⟩
  | .evaluateAfresh scope node => (session.scope? scope).map fun id =>
    ⟨{}, within {} 0, node, id, { m with depth := 0 }⟩
  | _ => none

/-- A run leaves the store that another one leaves, and yields nothing but what that yields. -/
def Run.EndsAs {α β : Type} (f : α → β → Prop) (result : EStateM.Result Halt Machine α)
    (run : EStateM.Result Halt Machine β) : Prop :=
  (machine result).store = (machine run).store ∧
    ∀ a m, result = .ok a m → ∃ b m', run = .ok b m' ∧ f a b

namespace Session

variable {session : Session} {command : Command} {register : Register}

theorem endsAs_conclude (settings : Settings) (depth : Int)
    (run : EStateM.Result Halt Machine Value) :
    Run.EndsAs Eq (Run.conclude settings depth run) run := by
  cases run with
  | error halt m => exact ⟨rfl, fun _ _ hx => nomatch hx⟩
  | ok x m =>
    refine ⟨rfl, ?_⟩
    rintro _ _ ⟨⟩
    exact ⟨x, m, rfl, rfl⟩

theorem endsAs_fromZero (body : Run Value) (m : Machine) :
    Run.EndsAs Eq (fromZero body m) (body { m with depth := 0 }) := by
  rw [fromZero]
  cases body { m with depth := 0 } with
  | error halt m => exact ⟨rfl, fun _ _ hx => nomatch hx⟩
  | ok x m =>
    refine ⟨rfl, ?_⟩
    rintro _ _ ⟨⟩
    exact ⟨x, m, rfl, rfl⟩

/-- An action that yields the value of a run. -/
theorem endsAs_some {body : Run Value} {m : Machine} {run : EStateM.Result Halt Machine Value}
    (h : Run.EndsAs Eq (body m) run) :
    Run.EndsAs (fun answer x => answer = some x) ((do return some (← body)) m) run := by
  rw [Run.bind_apply]
  obtain ⟨hstore, hvalue⟩ := h
  cases hbody : body m with
  | error halt m' =>
    rw [hbody] at hstore
    exact ⟨hstore, fun _ _ hx => nomatch hx⟩
  | ok x m' =>
    rw [hbody] at hstore
    obtain ⟨y, m'', hrun, rfl⟩ := hvalue x m' hbody
    refine ⟨hstore, ?_⟩
    rintro _ _ ⟨⟩
    exact ⟨x, m'', hrun, rfl⟩

theorem scope_bind {α : Type} {name : String} {id : ScopeId}
    (hid : session.scope? name = some id) (next : ScopeId → Run α) (m : Machine) :
    (session.scope name >>= next) m = next id m := by
  rw [Run.bind_apply, Session.scope, hid]
  rfl

/-- A command that asks for an evaluation ends as that does. -/
theorem action_of_evaluation? {e : Evaluation} (h : session.evaluation? command = some e) :
    Run.EndsAs (fun answer x => answer = some x)
      (session.action command { session.machine with output := "" }) e.run := by
  cases command with
  | evaluate scope node =>
    obtain ⟨id, hid, rfl⟩ := Option.map_eq_some_iff.1 h
    rw [action, scope_bind hid]
    refine endsAs_some ?_
    rw [evaluateProgram_apply]
    exact endsAs_conclude ..
  | interpret node =>
    cases h
    refine endsAs_some ?_
    rw [interpret_apply]
    exact endsAs_conclude ..
  | resume scope node =>
    obtain ⟨id, hid, rfl⟩ := Option.map_eq_some_iff.1 h
    rw [action, scope_bind hid]
    refine endsAs_some ?_
    rw [evaluateHere_apply]
    exact ⟨rfl, fun x m hx => ⟨x, m, hx, rfl⟩⟩
  | evaluateAfresh scope node =>
    obtain ⟨id, hid, rfl⟩ := Option.map_eq_some_iff.1 h
    rw [action, scope_bind hid]
    refine endsAs_some ?_
    have hzero := endsAs_fromZero (evaluateHere {} session.host node id)
      { session.machine with output := "" }
    rwa [evaluateHere_apply] at hzero
  | _ => cases h

/-- The evaluation that a command asks for starts with the scopes of the session, or with one more
that binds nothing. -/
theorem registers_start {e : Evaluation} (h : session.evaluation? command = some e)
    (hm : session.machine.store.Registers register) : e.start.store.Registers register := by
  cases command with
  | interpret node =>
    cases h
    exact hm.newScope (by simp) none
  | evaluate scope node | resume scope node | evaluateAfresh scope node =>
    obtain ⟨id, -, rfl⟩ := Option.map_eq_some_iff.1 h
    exact hm
  | _ => cases h

end Session

/-- All closures in the values that a command brings with it are entries of a register. -/
def Command.Brings (register : Register) : Command → Prop
  | .create _ _ bindings => ∀ binding ∈ bindings, binding.2.Registered register
  | .define _ _ value => value.Registered register
  | _ => True

/-- How an action ends that makes no closure: the store is registered as it was, and so is what is
yielded. -/
structure Run.Unrecorded (register : Register)
    (result : EStateM.Result Halt Machine (Option Value)) : Prop where
  store : (machine result).store.Registers register
  value : ∀ x m, result = .ok (some x) m → x.Registered register

namespace Session

variable {session : Session} {command : Command} {register : Register} {m : Machine}

theorem unrecorded_inScope (hm : m.store.Registers register) (name : String)
    {next : ScopeId → Run (Option Value)} (hnext : ∀ id, Run.Unrecorded register (next id m)) :
    Run.Unrecorded register ((session.scope name >>= next) m) := by
  rw [Run.bind_apply, Session.scope]
  cases session.scope? name with
  | none => exact ⟨hm, fun _ _ hx => nomatch hx⟩
  | some id => exact hnext id

/-- A command that asks for no evaluation makes no closure. -/
theorem unrecorded_action (h : session.evaluation? command = none)
    (hm : m.store.Registers register) (hcommand : command.Brings register) :
    Run.Unrecorded register (session.action command m) := by
  have hnone : ∀ {scope : String} {f : ScopeId → Evaluation},
      (session.scope? scope).map f = none → session.scope? scope = none :=
    fun h => Option.map_eq_none_iff.1 h
  cases command with
  | create name parent bindings =>
    refine ⟨hm.newScope (fun binding hbinding => ?_) _, fun _ _ hx => nomatch hx⟩
    exact hcommand binding ((Bindings.mem_foldl_set hbinding).resolve_right List.not_mem_nil)
  | branch name parent =>
    exact unrecorded_inScope hm parent fun id =>
      ⟨hm.newScope (by simp) (some id), fun _ _ hx => nomatch hx⟩
  | define scope name value =>
    exact unrecorded_inScope hm scope fun id =>
      ⟨hm.define hcommand id name, fun _ _ hx => nomatch hx⟩
  | lookup scope name =>
    refine unrecorded_inScope hm scope fun id => ?_
    rw [Run.bind_apply, Run.lookup_apply]
    cases hx : m.store.lookup id name with
    | none => exact ⟨hm, fun _ _ hx => nomatch hx⟩
    | some x =>
      refine ⟨hm, ?_⟩
      rintro _ _ ⟨⟩
      exact hm.bound.lookup hx
  | setDepth depth => exact ⟨hm, fun _ _ hx => nomatch hx⟩
  | interpret node => cases h
  | evaluate scope node | resume scope node | evaluateAfresh scope node =>
    rw [action, Run.bind_apply, Session.scope, hnone h]
    exact ⟨hm, fun _ _ hx => nomatch hx⟩

theorem machine_perform :
    (session.perform command).2.machine =
      Run.machine (session.action command { session.machine with output := "" }) := by
  rw [perform]
  cases session.action command { session.machine with output := "" } <;> rfl

theorem exists_of_result_perform {answer : Option Value}
    (h : (session.perform command).1.result = .ok answer) :
    ∃ m', session.action command { session.machine with output := "" } = .ok answer m' := by
  rw [perform] at h
  cases haction : session.action command { session.machine with output := "" } with
  | error halt m' =>
    rw [haction] at h
    cases h
  | ok answer' m' =>
    rw [haction] at h
    cases h
    exact ⟨m', rfl⟩

end Session

/-! ## Chronicles -/

/-- A session, the register of all closures made in it so far, and all values that it has answered
with. -/
structure Chronicle where
  session : Session
  register : Register := []
  answers : List Value := []

namespace Chronicle

variable {c c' : Chronicle}

/-- The chronicle after a command. -/
def after (c : Chronicle) (command : Command) : Chronicle where
  session := (c.session.perform command).2
  register :=
    match c.session.evaluation? command with
    | some e => (e.record c.register).2
    | none => c.register
  answers :=
    match (c.session.perform command).1.result with
    | .ok (some x) => x :: c.answers
    | _ => c.answers

/-- The chronicle after the host has made a closure over some scope. -/
def make (c : Chronicle) (parameters : List String) (body : Node) (scope : ScopeId) :
    Chronicle :=
  let closure := (c.session.machine.store.newClosure parameters body scope).1
  { session := { c.session with machine := c.session.machine.closed parameters body scope }
    register := closure :: c.register
    answers := closure :: c.answers }

/-- A session goes on with a command, which may bring any closures made so far with it and may
succeed or fail, or with a closure that the host makes. -/
inductive Step : Chronicle → Chronicle → Prop
  | perform (c : Chronicle) (command : Command) : command.Brings c.register →
    Step c (c.after command)
  | make (c : Chronicle) (parameters : List String) (body : Node) (scope : ScopeId) :
    Step c (c.make parameters body scope)

/-- The invariant of chronicles: the closures in scopes and in answers are entries of the register,
which differ from one another. -/
structure Sound (c : Chronicle) : Prop where
  store : c.session.machine.store.Registers c.register
  answers : ∀ x ∈ c.answers, x.Registered c.register

/-- What a command yields is added to the answers. -/
theorem answers_after (c : Chronicle) (command : Command) {P : Value → Prop}
    (hold : ∀ x ∈ c.answers, P x)
    (hnew : ∀ x, (c.session.perform command).1.result = .ok (some x) → P x) :
    ∀ x ∈ (c.after command).answers, P x := by
  intro x hx
  simp only [after] at hx
  split at hx
  · next y hy =>
    rcases List.mem_cons.1 hx with rfl | hx
    · exact hnew x hy
    · exact hold x hx
  · exact hold x hx

theorem Sound.after (h : c.Sound) {command : Command} (hcommand : command.Brings c.register) :
    (c.after command).Sound ∧ c.register <:+ (c.after command).register := by
  cases he : c.session.evaluation? command with
  | none =>
    have haction := Session.unrecorded_action (m := { c.session.machine with output := "" }) he
      h.store hcommand
    have hregister : (c.after command).register = c.register := by simp only [Chronicle.after, he]
    refine ⟨⟨?_, c.answers_after command ?_ ?_⟩, hregister ▸ List.suffix_refl _⟩
    · rw [hregister, Chronicle.after, Session.machine_perform]
      exact haction.store
    · exact hregister ▸ h.answers
    · intro x hx
      obtain ⟨m', hm'⟩ := Session.exists_of_result_perform hx
      exact hregister ▸ haction.value x m' hm'
  | some e =>
    have hrecorded : Run.Registered c.register (e.record c.register) :=
      record_registered e.settings e.budget e.node e.scope e.start c.register
        (Session.registers_start he h.store)
    have hrun : (e.record c.register).1 = e.run := record_fst ..
    obtain ⟨hstore, hvalue⟩ := Session.action_of_evaluation? he
    have hregister : (c.after command).register = (e.record c.register).2 := by
      simp only [Chronicle.after, he]
    refine ⟨⟨?_, c.answers_after command ?_ ?_⟩, hregister ▸ hrecorded.grows⟩
    · rw [hregister, Chronicle.after, Session.machine_perform, hstore, ← hrun]
      exact hrecorded.store
    · exact fun x hx => hregister ▸ (h.answers x hx).mono hrecorded.grows
    · intro x hx
      obtain ⟨m', hm'⟩ := Session.exists_of_result_perform hx
      obtain ⟨y, m'', hy, hxy⟩ := hvalue _ _ hm'
      cases hxy
      exact hregister ▸ hrecorded.value x m'' (hrun.trans hy)

theorem Sound.make (h : c.Sound) (parameters : List String) (body : Node) (scope : ScopeId) :
    (c.make parameters body scope).Sound where
  store := h.store.newClosure parameters body scope
  answers x hx := by
    rcases List.mem_cons.1 hx with rfl | hx
    · exact List.mem_cons_self
    · exact (h.answers x hx).mono (List.suffix_cons _ c.register)

theorem Step.sound (hstep : c.Step c') (h : c.Sound) :
    c'.Sound ∧ c.register <:+ c'.register := by
  cases hstep with
  | perform command hcommand => exact h.after hcommand
  | make parameters body scope =>
    exact ⟨h.make parameters body scope, List.suffix_cons _ c.register⟩

theorem sound_start (settings : Settings) (host : Limits) :
    Sound { session := { settings := settings, host := host } } where
  store := ⟨by simp, .nil, fun id scope hscope => by simp at hscope⟩
  answers := by simp

theorem Sound.of_steps (h : c.Sound) (hsteps : Relation.ReflTransGen Step c c') :
    c'.Sound ∧ c.register <:+ c'.register := by
  induction hsteps with
  | refl => exact ⟨h, List.suffix_refl _⟩
  | tail _ hstep ih =>
    obtain ⟨hsound, hgrows⟩ := hstep.sound ih.1
    exact ⟨hsound, ih.2.trans hgrows⟩

end Chronicle

/-! ## Closures that circulate -/

/-- The closures in a value. -/
def Value.closures : Value → List Value
  | .int _ | .str _ | .bool _ | .foreign .. => []
  | .tuple left right => left.closures ++ right.closures
  | .closure id parameters body captured => [.closure id parameters body captured]

theorem Value.Registered.mem_of_mem_closures {register : Register} {x closure : Value}
    (hx : x.Registered register) (h : closure ∈ x.closures) : closure ∈ register := by
  induction x with
  | int | str | bool | foreign => exact absurd h List.not_mem_nil
  | tuple left right ihl ihr =>
    rcases List.mem_append.1 h with h | h
    · exact ihl hx.1 h
    · exact ihr hx.2 h
  | closure id parameters body captured =>
    obtain rfl := List.mem_singleton.1 h
    exact hx

/-- A closure circulates if it is part of a value that is bound in a scope, or of an answer. -/
inductive Chronicle.Circulates (c : Chronicle) (closure : Value) : Prop
  | bound (id : ScopeId) (scope : Scope) (binding : String × Value) :
    c.session.machine.store.scopes[id]? = some scope → binding ∈ scope.bindings →
    closure ∈ binding.2.closures → Circulates c closure
  | answered (x : Value) : x ∈ c.answers → closure ∈ x.closures → Circulates c closure

theorem Chronicle.Sound.mem_of_circulates {c : Chronicle} (h : c.Sound) {closure : Value}
    (hcirculates : c.Circulates closure) : closure ∈ c.register := by
  cases hcirculates with
  | bound id scope binding hscope hbinding hmem =>
    exact (h.store.bound id scope hscope binding hbinding).mem_of_mem_closures hmem
  | answered x hx hmem => exact (h.answers x hx).mem_of_mem_closures hmem

/-! ## Values that are handed on -/

section

variable (settings : Settings) (budget : Nat) (scope : ScopeId) (m : Machine)

/-- A value gets from place to place as it is, in a scope of some machine: by binding a name and
looking it up, by printing, by making a pair and taking it apart, and as an argument. -/
structure HandsOn (x : Value) : Prop where
  bind : ∀ name, scope < m.store.scopes.size →
    (m.bound settings scope name x).store.lookup scope name = some x
  look : ∀ name l, m.store.lookup scope name = some x →
    ∃ m', evaluate settings (budget + 1) (.var name l) scope m = .ok x m'
  print : ∀ operand l m₁,
    evaluate settings budget operand scope (m.started settings .print) = .ok x m₁ →
    ∃ m', evaluate settings (budget + 1) (.print operand l) scope m = .ok x m'
  pairLeft : ∀ lhs rhs l y m₁ m₂,
    evaluate settings budget lhs scope (m.started settings .tuple) = .ok x m₁ →
    evaluate settings budget rhs scope m₁ = .ok y m₂ →
    ∃ m', evaluate settings (budget + 1) (.tuple lhs rhs l) scope m = .ok (.tuple x y) m'
  pairRight : ∀ lhs rhs l y m₁ m₂,
    evaluate settings budget lhs scope (m.started settings .tuple) = .ok y m₁ →
    evaluate settings budget rhs scope m₁ = .ok x m₂ →
    ∃ m', evaluate settings (budget + 1) (.tuple lhs rhs l) scope m = .ok (.tuple y x) m'
  first : ∀ operand l y m₁,
    evaluate settings budget operand scope (m.started settings .first) = .ok (.tuple x y) m₁ →
    ∃ m', evaluate settings (budget + 1) (.first operand l) scope m = .ok x m'
  second : ∀ operand l y m₁,
    evaluate settings budget operand scope (m.started settings .second) = .ok (.tuple y x) m₁ →
    ∃ m', evaluate settings (budget + 1) (.second operand l) scope m = .ok x m'
  /-- Of several parameters of one name the last one counts. -/
  argument : ∀ callee arguments l id before name after body captured xs ys m₁ m₂,
    evaluate settings budget callee scope (m.started settings .call) =
      .ok (.closure id (before ++ name :: after) body captured) m₁ →
    evaluateAll (evaluate settings budget · scope) arguments m₁ = .ok (xs ++ x :: ys) m₂ →
    arguments.length = (before ++ name :: after).length → before.length = xs.length →
    name ∉ after →
    ∃ inner : Machine, inner.store.lookup m₂.store.scopes.size name = some x ∧
      evaluate settings (budget + 1) (.call callee arguments l) scope m =
        Run.leave l (evaluate settings budget body m₂.store.scopes.size inner)

/-- Closures are handed on as they are. -/
theorem Value.IsClosure.handsOn {x : Value} (hx : x.IsClosure)
    (h : m.depth < settings.maxDepth) : HandsOn settings budget scope m x := by
  have hgranted := fun node => evaluate_granted settings budget node scope m h
  constructor
  case bind =>
    intro name hscope
    rw [Machine.store_bound]
    exact m.store.lookup_define_self hscope name x
  case look =>
    intro name l hlookup
    have hstore : (m.started settings .var).store.lookup scope name = some x := by
      rwa [Machine.store_started]
    rw [hgranted]
    exact ⟨_, by simp only [Plan.ofNode, Plan.run, Node.kind, hstore]; rfl⟩
  case print =>
    intro operand l m₁ hoperand
    obtain ⟨id, parameters, body, captured, rfl⟩ := hx
    rw [hgranted]
    exact ⟨_, by simp only [Plan.ofNode, Plan.run, Node.kind, hoperand, Value.printed]; rfl⟩
  case pairLeft | pairRight =>
    intro lhs rhs l y m₁ m₂ hlhs hrhs
    rw [hgranted]
    exact ⟨_, by simp only [Plan.ofNode, Plan.run, Node.kind, hlhs, hrhs]; rfl⟩
  case first | second =>
    intro operand l y m₁ hoperand
    rw [hgranted]
    exact ⟨_, by simp only [Plan.ofNode, Plan.run, Node.kind, hoperand, Plan.component]; rfl⟩
  case argument =>
    intro callee arguments l id before name after body captured xs ys m₁ m₂ hcallee harguments
      hlength hbefore hlast
    refine ⟨m₂.entered settings (before ++ name :: after) captured (xs ++ x :: ys), ?_, ?_⟩
    · rw [Machine.store_entered]
      exact Store.lookup_newScope_self (Bindings.get?_ofArguments_of_last hbefore hlast x) _ _
    · rw [hgranted]
      simp only [Plan.ofNode, Plan.run, Node.kind, hcallee, Plan.calling_of_length_eq hlength,
        Plan.run_children, harguments]
      rfl

end

/-- **The identity of closures is sound.**  In a session that has gone on for any number of steps,
each of which succeeded or failed, closures that circulate and are equal have the same parameters,
the same body and the same scope.  All closures that were made so far are in the register, in the
order in which they were made, and each differs from all that were made before it; the register
never loses an entry, and evaluating a function adds the closure that it yields.  A closure is equal
to itself, and gets from place to place as it is. -/
theorem closure_identity_sound (settings : Settings) (host : Limits) (c : Chronicle)
    (h : Relation.ReflTransGen Chronicle.Step { session := { settings := settings, host := host } }
      c) :
    (∀ id parameters body captured id' parameters' body' captured',
      c.Circulates (.closure id parameters body captured) →
      c.Circulates (.closure id' parameters' body' captured') →
      Value.equal (.closure id parameters body captured)
        (.closure id' parameters' body' captured') →
      parameters = parameters' ∧ body = body' ∧ captured = captured') ∧
    (∀ closure, c.Circulates closure → closure ∈ c.register) ∧
    (c.register.Pairwise fun new old => new.equal old = false) ∧
    (∀ later, Relation.ReflTransGen Chronicle.Step c later → c.register <:+ later.register) ∧
    (∀ settings budget parameters body l scope m register, m.depth < settings.maxDepth →
      ∃ closure m', closure.IsClosure ∧
        record settings (budget + 1) (.function parameters body l) scope m register =
          (.ok closure m', closure :: register)) ∧
    ∀ settings budget scope m closure, closure.IsClosure → m.depth < settings.maxDepth →
      closure.equal closure ∧ HandsOn settings budget scope m closure := by
  obtain ⟨hsound, -⟩ := (Chronicle.sound_start settings host).of_steps h
  refine ⟨?_, fun closure => hsound.mem_of_circulates, hsound.store.distinct,
    fun later hlater => (hsound.of_steps hlater).2, ?_, ?_⟩
  · intro id parameters body captured id' parameters' body' captured' hx hy hequal
    have hsame := hsound.store.eq_of_equal (hsound.mem_of_circulates hx)
      (hsound.mem_of_circulates hy) hequal
    obtain ⟨-, hparameters, hbody, hcaptured⟩ := Value.closure.inj hsame
    exact ⟨hparameters, hbody, hcaptured⟩
  · intro settings budget parameters body l scope m register hdepth
    exact ⟨_, _, ⟨_, _, _, _, rfl⟩, record_function hdepth budget parameters body l scope register⟩
  · intro settings budget scope m closure hclosure hdepth
    have hself : closure.equal closure := by
      obtain ⟨id, parameters, body, captured, rfl⟩ := hclosure
      exact beq_self_eq_true id
    exact ⟨hself, hclosure.handsOn settings budget scope m hdepth⟩

/-- Two functions of one text, made in one scope by one command, the first of which is bound there
and looked up.  The functions differ, and what is bound is the one that was answered. -/
theorem closure_identity_sound_same_text :
    let f : Node := .function ["x"] (.var "x" none) none
    let root : Node := .letIn "f" f (.tuple (.var "f" none) f none) none
    let start : Chronicle := { session := {} }
    let c : Chronicle := (start.after (.create "top" none [])).after (.evaluate "top" root)
    let closure (id : Nat) : Value := .closure id ["x"] (.var "x" none) 0
    c.answers = [.tuple (closure 0) (closure 1)] ∧ c.register = [closure 1, closure 0] ∧
    (closure 1).equal (closure 0) = false ∧
    ∀ id parameters body captured, c.Circulates (.closure id parameters body captured) →
      Value.equal (.closure id parameters body captured) (closure 0) →
      parameters = ["x"] ∧ body = .var "x" none ∧ captured = 0 := by
  intro f root start c closure
  have hsteps : Relation.ReflTransGen Chronicle.Step { session := {} } c :=
    .tail (.tail .refl (.perform start (.create "top" none []) (fun _ h => nomatch h)))
      (.perform _ (.evaluate "top" root) trivial)
  have hregister : c.register = [closure 1, closure 0] := rfl
  have hanswers : c.answers = [.tuple (closure 0) (closure 1)] := rfl
  obtain ⟨hcoherent, -, hdistinct, -⟩ := closure_identity_sound {} .standard c hsteps
  refine ⟨hanswers, hregister, ?_, ?_⟩
  · rw [hregister] at hdistinct
    exact (List.pairwise_cons.1 hdistinct).1 (closure 0) List.mem_cons_self
  · intro id parameters body captured hcirculates hequal
    have hanswered : c.Circulates (closure 0) :=
      .answered (.tuple (closure 0) (closure 1)) (hanswers ▸ List.mem_cons_self)
        List.mem_cons_self
    exact hcoherent id parameters body captured 0 ["x"] (.var "x" none) 0 hcirculates hanswered
      hequal

end Rinha
