import Rinha.Proofs.Frame
import Rinha.Proofs.Validity

/-!
# Well-scoped programs

A tree is well scoped if every name that it uses is bound around the use: by a let node of which the
use stands in the next expression, by a parameter of a function of which it stands in the body, or,
in the body of a function to which a let node gives a name, by that let node.  A run of a
well-scoped program never comes upon a name that has no value.

The reason is that scopes never lose names, so that what a closure could see when it was made it
sees whenever it is called.  The one closure that is made before all names of its body are bound is
that of a function which uses its own name, and the name is bound before anything else happens.

## Main definitions

* `Node.wellScoped` -- every name that a node uses is bound around the use.
* `Store.Binds` -- a name has a value in a scope.
* `Grounded` -- all names that the body of a closure uses are bound, or are about to be.
* `Plan.WellScoped` -- a plan looks up only names that are bound by then.
* `evaluate_grounded` -- evaluation of a well-scoped node finds every name.
-/

namespace Rinha

namespace Node

mutual

/-- Whether every name that a node uses is one of the given ones or is bound around its use.  The
names `own` are those that the node itself is about to be bound to.  If it is a function, its body
may use them too. -/
def wellScoped (own names : List String) : Node → Bool
  | .str .. | .int .. | .bool .. => true
  | .var name _ => names.contains name
  | .print operand _ | .first operand _ | .second operand _ => operand.wellScoped [] names
  | .letIn name operand next _ =>
    operand.wellScoped [name] names && next.wellScoped [] (name :: names)
  | .cond condition then_ otherwise _ =>
    condition.wellScoped [] names && then_.wellScoped [] names && otherwise.wellScoped [] names
  | .function parameters body _ => body.wellScoped [] (parameters ++ (own ++ names))
  | .call callee arguments _ => callee.wellScoped [] names && allWellScoped names arguments
  | .binary _ lhs rhs _ | .tuple lhs rhs _ => lhs.wellScoped [] names && rhs.wellScoped [] names

/-- Whether several nodes are well scoped. -/
def allWellScoped (names : List String) : List Node → Bool
  | [] => true
  | node :: nodes => node.wellScoped [] names && allWellScoped names nodes

end

end Node

/-! ## Names that are bound -/

/-- A name is bound in a scope, or in an older one around it. -/
inductive Store.Binds (s : Store) (name : String) : ScopeId → Prop
  | here {e : ScopeId} {scope : Scope} : s.scopes[e]? = some scope →
    scope.bindings.get? name ≠ none → Binds s name e
  | around {e parent : ScopeId} {scope : Scope} : s.scopes[e]? = some scope →
    scope.parent = some parent → parent < e → Binds s name parent → Binds s name e

namespace Store

variable {s s' : Store} {name : String} {e : ScopeId}

theorem Binds.lt_size (h : s.Binds name e) : e < s.scopes.size := by
  cases h with
  | here hscope => exact (Array.getElem?_eq_some_iff.1 hscope).1
  | around hscope => exact (Array.getElem?_eq_some_iff.1 hscope).1

/-- A name that is bound is found. -/
theorem Binds.exists_lookup (h : s.Binds name e) : ∃ x, s.lookup e name = some x := by
  -- The search is followed as far as the number of the scope says, and parents have lesser numbers.
  have key : ∀ n, e ≤ n → ∃ x, s.lookupWithin name (n + 1) e = some x := by
    induction h with
    | @here e scope hscope hbound =>
      intro n _
      obtain ⟨x, hx⟩ := Option.ne_none_iff_exists'.1 hbound
      exact ⟨x, by simp only [lookupWithin, hscope, hx]⟩
    | @around e parent scope hscope hparent holder _ ih =>
      intro n hn
      simp only [lookupWithin, hscope, hparent]
      cases scope.bindings.get? name with
      | some x => exact ⟨x, rfl⟩
      | none =>
        obtain ⟨k, rfl⟩ := Nat.exists_eq_add_of_lt (Nat.lt_of_lt_of_le holder hn)
        exact ih (parent + k) (Nat.le_add_right ..)
  exact key e (Nat.le_refl e)

/-- What leaves scopes alone but for names that are bound leaves names bound. -/
theorem Framed.binds {names : List String} {f : ScopeId} (hframed : s.Framed f names s')
    (h : s.Binds name e) : s'.Binds name e := by
  induction h with
  | here hscope hbound =>
    obtain ⟨scope', hscope', hkept, -⟩ := hframed _ _ hscope
    exact .here hscope' (hkept.bound name hbound)
  | around hscope hparent holder _ ih =>
    obtain ⟨scope', hscope', hkept, -⟩ := hframed _ _ hscope
    exact .around hscope' (hkept.parent.trans hparent) holder ih

theorem Framed.lt_size {names : List String} {f : ScopeId} (hframed : s.Framed f names s')
    (he : e < s.scopes.size) : e < s'.scopes.size := by
  obtain ⟨scope', hscope', -⟩ := hframed e _ (Array.getElem?_eq_getElem he)
  exact (Array.getElem?_eq_some_iff.1 hscope').1

theorem Binds.of_scopes_eq (h : s.Binds name e) (hscopes : s'.scopes = s.scopes) :
    s'.Binds name e := by
  have hframed : s.Framed e [] s' := .of_scopes_eq hscopes
  exact hframed.binds h

theorem Binds.define (h : s.Binds name e) (f : ScopeId) (other : String) (x : Value) :
    (s.define f other x).Binds name e := by
  have hframed : s.Framed f [other] (s.define f other x) := .define List.mem_cons_self s x
  exact hframed.binds h

theorem binds_define_self (he : e < s.scopes.size) (name : String) (x : Value) :
    (s.define e name x).Binds name e := by
  have hscope : s.scopes[e]? = some s.scopes[e] := Array.getElem?_eq_getElem he
  refine .here (by rw [scopes_define, hscope, Option.map_some, if_pos rfl]) ?_
  simp [Bindings.get?_set_self]

theorem Binds.newScope (h : s.Binds name e) (parent : Option ScopeId) (bindings : Bindings) :
    (s.newScope parent bindings).2.Binds name e := by
  have hmade : (s.newScope parent bindings).2.Framed s.scopes.size []
      (s.newScope parent bindings).2 := .of_scopes_eq rfl
  have hframed : s.Framed e [] (s.newScope parent bindings).2 := .newScope hmade
  exact hframed.binds h

end Store

/-- A call binds every parameter, if there is an argument for each. -/
theorem Bindings.get?_ofArguments_ne_none {parameters : List String} {values : List Value}
    (hlength : values.length = parameters.length) {name : String} (hname : name ∈ parameters) :
    get? name (ofArguments parameters values) ≠ none := by
  have key : ∀ (pairs : List (String × Value)) (done : Bindings),
      name ∈ pairs.map Prod.fst ∨ get? name done ≠ none →
      get? name (pairs.foldl (fun bindings pair => set pair.1 pair.2 bindings) done) ≠ none := by
    intro pairs
    induction pairs with
    | nil => simp
    | cons pair pairs ih =>
      intro done h
      refine ih _ ?_
      by_cases hpair : name = pair.1
      · subst hpair
        exact .inr (by simp [get?_set_self])
      · rw [get?_set_of_ne hpair]
        simpa [hpair] using h
  refine key _ _ (.inl ?_)
  rwa [List.map_fst_zip (Nat.le_of_eq hlength.symm)]

/-! ## Closures whose names are bound -/

/-- All names that the body of a closure uses are bound where it was made or are parameters.  Those
of which a binding is pending are about to be bound there. -/
def Grounded (base : ScopeId) (pending : List (ScopeId × String)) (s : Store) : ClosureProperty :=
  fun _ parameters body captured => base ≤ captured ∧ ∃ names : List String,
    body.wellScoped [] (parameters ++ names) ∧
    ∀ name ∈ names, s.Binds name captured ∨ (captured, name) ∈ pending

/-- A closure stays grounded as long as no name is lost, and what was pending is bound or still
pending. -/
theorem Grounded.mono {base : ScopeId} {pending pending' : List (ScopeId × String)} {s s' : Store}
    (hbinds : ∀ name e, s.Binds name e → s'.Binds name e)
    (hpending : ∀ entry ∈ pending, s'.Binds entry.2 entry.1 ∨ entry ∈ pending') (id : Nat)
    (parameters : List String) (body : Node) (captured : ScopeId)
    (h : Grounded base pending s id parameters body captured) :
    Grounded base pending' s' id parameters body captured := by
  obtain ⟨hbase, names, hbody, hnames⟩ := h
  refine ⟨hbase, names, hbody, fun name hname => ?_⟩
  rcases hnames name hname with hbound | hmem
  · exact .inl (hbinds name captured hbound)
  · exact hpending _ hmem

theorem Grounded.of_binds {base : ScopeId} (pending : List (ScopeId × String)) {s s' : Store}
    (hbinds : ∀ name e, s.Binds name e → s'.Binds name e) (id : Nat) (parameters : List String)
    (body : Node) (captured : ScopeId) (h : Grounded base [] s id parameters body captured) :
    Grounded base pending s' id parameters body captured :=
  Grounded.mono hbinds (fun _ hentry => absurd hentry List.not_mem_nil) id parameters body captured
    h

/-- In the scopes from `base` on, all closures are grounded, and none of these scopes hangs off an
older one. -/
structure Store.Grounded (base : ScopeId) (s : Store) : Prop where
  parents : ∀ id scope, base ≤ id → s.scopes[id]? = some scope →
    ∀ parent, scope.parent = some parent → base ≤ parent
  values : ∀ id scope, base ≤ id → s.scopes[id]? = some scope →
    ∀ binding ∈ scope.bindings, binding.2.All (Rinha.Grounded base [] s)

namespace Store.Grounded

variable {base : ScopeId} {s : Store}

/-- The store as a program starts in a new scope. -/
theorem start (s : Store) : (s.newScope none []).2.Grounded s.scopes.size := by
  have hnew : ∀ id scope, s.scopes.size ≤ id → (s.newScope none []).2.scopes[id]? = some scope →
      scope = ⟨none, []⟩ := by
    intro id scope hid hscope
    rw [scopes_newScope] at hscope
    split at hscope
    · cases hscope
      rfl
    · rw [Array.getElem?_eq_none hid] at hscope
      cases hscope
  refine ⟨?_, ?_⟩
  · intro id scope hid hscope parent hparent
    obtain rfl := hnew id scope hid hscope
    cases hparent
  · intro id scope hid hscope binding hbinding
    obtain rfl := hnew id scope hid hscope
    cases hbinding

theorem newClosure (h : s.Grounded base) (parameters : List String) (body : Node) (e : ScopeId) :
    (s.newClosure parameters body e).2.Grounded base := by
  refine ⟨h.parents, fun id scope hid hscope binding hbinding => ?_⟩
  have hold := h.values id scope hid hscope binding hbinding
  exact hold.mono (Grounded.of_binds (s := s) [] fun _ _ hbound => hbound.of_scopes_eq rfl)

theorem define (h : s.Grounded base) {e : ScopeId} {name : String} {x : Value}
    (hx : x.All (Rinha.Grounded base [] (s.define e name x))) :
    (s.define e name x).Grounded base := by
  have hold : ∀ y : Value, y.All (Rinha.Grounded base [] s) →
      y.All (Rinha.Grounded base [] (s.define e name x)) := fun y hy =>
    hy.mono (Grounded.of_binds [] fun _ _ hbound => hbound.define e name x)
  refine ⟨?_, ?_⟩
  · intro id scope hid hscope
    rw [scopes_define, Option.map_eq_some_iff] at hscope
    obtain ⟨old, hscope, rfl⟩ := hscope
    have hparent := h.parents id old hid hscope
    split <;> exact hparent
  · intro id scope hid hscope binding hbinding
    rw [scopes_define, Option.map_eq_some_iff] at hscope
    obtain ⟨old, hscope, rfl⟩ := hscope
    split at hbinding
    · rcases Bindings.mem_set hbinding with rfl | hmem
      · exact hx
      · exact hold _ (h.values id old hid hscope binding hmem)
    · exact hold _ (h.values id old hid hscope binding hbinding)

theorem enter (h : s.Grounded base) {captured : ScopeId} (hcaptured : base ≤ captured)
    {values : List Value} (hvalues : ∀ x ∈ values, x.All (Rinha.Grounded base [] s))
    (parameters : List String) :
    (s.newScope (some captured) (.ofArguments parameters values)).2.Grounded base := by
  refine ⟨?_, ?_⟩
  · intro id scope hid hscope parent hparent
    rw [scopes_newScope] at hscope
    split at hscope
    · cases hscope
      cases hparent
      exact hcaptured
    · exact h.parents id scope hid hscope parent hparent
  · intro id scope hid hscope binding hbinding
    have hold : binding.2.All (Rinha.Grounded base [] s) := by
      rw [scopes_newScope] at hscope
      split at hscope
      · cases hscope
        exact hvalues _ (List.of_mem_zip (Bindings.mem_ofArguments hbinding)).2
      · exact h.values id scope hid hscope binding hbinding
    exact hold.mono (Grounded.of_binds [] fun _ _ hbound => hbound.newScope _ _)

/-- What is found under a name is grounded. -/
theorem lookup (h : s.Grounded base) {e : ScopeId} (he : base ≤ e) {name : String} {x : Value}
    (hx : s.lookup e name = some x) : x.All (Rinha.Grounded base [] s) := by
  obtain ⟨id, scope, hid, hscope, hmem⟩ := exists_mem_of_lookup h.parents he hx
  exact h.values id scope hid hscope _ hmem

end Store.Grounded

/-! ## Plans that look up bound names only -/

/-- Whether a name without a value was looked up. -/
def Halt.isUnbound : Halt → Bool
  | .error (.unboundVariable _) _ => true
  | _ => false

@[simp] theorem Halt.isUnbound_within (location : Option Location) (halt : Halt) :
    (halt.within location).isUnbound = halt.isUnbound := by
  rcases halt with ⟨e, _ | l⟩ | _ | _ | _ | _
  · cases e <;> rfl
  all_goals rfl

@[simp] theorem Halt.isUnbound_refusal (maxDepth : Int) (location : Option Location) :
    (Halt.refusal maxDepth location).isUnbound = false := by
  rcases Halt.refusal_cases maxDepth with ⟨limit, h⟩ | h <;> simp [h, isUnbound]

@[simp] theorem Settings.isUnbound_exhausted (settings : Settings) (halt : Halt) :
    (settings.exhausted halt).isUnbound = halt.isUnbound := by
  cases halt with
  | nesting => exact Halt.isUnbound_refusal ..
  | _ => rfl

theorem Halt.OfOperands.isUnbound_eq_false {halt : Halt} (h : halt.OfOperands) :
    halt.isUnbound = false := by
  cases h <;> rfl

namespace Plan

/-- A plan of a node whose scope binds given names evaluates well-scoped nodes only and looks up no
other names.  Between the value of a child and its binding, the name that it is bound to is pending;
the names `own` are those that the result of the plan is about to be bound to. -/
def WellScoped (own : List String) : Plan → List String → List String → Prop
  | done (.ok _), pending, _ => pending = []
  | done (.error halt), _, _ => halt.isUnbound = false
  | write _ rest, pending, names => rest.WellScoped own pending names
  | define name _ rest, pending, names => pending ⊆ [name] ∧ rest.WellScoped own [] (name :: names)
  | fetch name, _, names => name ∈ names
  | close parameters body, _, names => body.wellScoped [] (parameters ++ (own ++ names))
  | child node rest, pending, names => pending = [] ∧ ∃ next, node.wellScoped next names ∧
    ∀ value, (rest value).WellScoped own next names
  | enter _ parameters _ _ values, pending, _ => pending = [] ∧ values.length = parameters.length

variable {own names : List String}

theorem wellScoped_last {node : Node} (h : node.wellScoped [] names) :
    (last node).WellScoped own [] names :=
  ⟨rfl, [], h, fun _ => rfl⟩

theorem wellScoped_children {nodes : List Node} {rest : List Value → Plan}
    (hnodes : Node.allWellScoped names nodes)
    (hrest : ∀ values, values.length = nodes.length → (rest values).WellScoped own [] names) :
    (children nodes rest).WellScoped own [] names := by
  induction nodes generalizing rest with
  | nil => exact hrest [] rfl
  | cons node nodes ih =>
    simp only [Node.allWellScoped, Bool.and_eq_true] at hnodes
    refine ⟨rfl, [], hnodes.1, fun value => ih hnodes.2 fun values hlength => ?_⟩
    exact hrest (value :: values) (by simp [hlength])

/-- The plan of a well-scoped node is well scoped. -/
theorem wellScoped_ofNode {node : Node} (h : node.wellScoped own names) :
    (ofNode node).WellScoped own [] names := by
  cases node with
  | str value l => rfl
  | int value l => rfl
  | bool value l => rfl
  | var name l =>
    simp only [Node.wellScoped, List.contains_iff_mem] at h
    exact h
  | function parameters body l =>
    simp only [Node.wellScoped] at h
    exact h
  | print operand l =>
    simp only [Node.wellScoped] at h
    refine ⟨rfl, [], h, fun value => ?_⟩
    cases hprinted : value.printed <;> simp [hprinted, WellScoped, Halt.isUnbound]
  | letIn name operand next l =>
    simp only [Node.wellScoped, Bool.and_eq_true] at h
    exact ⟨rfl, [name], h.1, fun value => ⟨List.Subset.refl _, wellScoped_last h.2⟩⟩
  | cond condition then_ otherwise l =>
    simp only [Node.wellScoped, Bool.and_eq_true] at h
    refine ⟨rfl, [], h.1.1, fun value => ?_⟩
    cases htruthy : value.isTruthy
    · simpa [htruthy] using wellScoped_last h.2
    · simpa [htruthy] using wellScoped_last h.1.2
  | call callee arguments l =>
    simp only [Node.wellScoped, Bool.and_eq_true] at h
    refine ⟨rfl, [], h.1, fun value => ?_⟩
    cases value with
    | closure id parameters body captured =>
      by_cases hlength : arguments.length = parameters.length
      · rw [calling_of_length_eq hlength]
        exact wellScoped_children h.2 fun values hvalues => ⟨rfl, hvalues.trans hlength⟩
      · rw [calling_of_length_ne hlength]
        rfl
    | _ => rfl
  | binary op lhs rhs l =>
    simp only [Node.wellScoped, Bool.and_eq_true] at h
    refine ⟨rfl, [], h.1, fun left => ?_⟩
    have happly : ∀ right, (done (op.apply left right)).WellScoped own [] names := by
      intro right
      cases hresult : op.apply left right with
      | ok value => rfl
      | error halt => exact (Operator.ofOperands_of_apply hresult).isUnbound_eq_false
    cases op with
    | and => cases hleft : left.isTruthy <;> simp [hleft, WellScoped, wellScoped_last h.2]
    | or => cases hleft : left.isTruthy <;> simp [hleft, WellScoped, wellScoped_last h.2]
    | _ => exact ⟨rfl, [], h.2, happly⟩
  | tuple lhs rhs l =>
    simp only [Node.wellScoped, Bool.and_eq_true] at h
    exact ⟨rfl, [], h.1, fun _ => ⟨rfl, [], h.2, fun _ => rfl⟩⟩
  | first operand l =>
    simp only [Node.wellScoped] at h
    refine ⟨rfl, [], h, fun value => ?_⟩
    cases value <;> rfl
  | second operand l =>
    simp only [Node.wellScoped] at h
    refine ⟨rfl, [], h, fun value => ?_⟩
    cases value <;> rfl

end Plan

/-! ## Evaluation finds every name -/

/-- How an evaluation in a scope ends that finds every name: all closures are grounded, those of the
result as soon as its own names are bound in the scope. -/
structure Run.Grounds (base e : ScopeId) (own : List String)
    (result : EStateM.Result Halt Machine Value) : Prop where
  store : (Run.machine result).store.Grounded base
  value : ∀ x m', result = .ok x m' → x.All (Grounded base (own.map (Prod.mk e)) m'.store)
  bound : ∀ halt m', result = .error halt m' → halt.isUnbound = false

namespace Run.Grounds

variable {base e : ScopeId} {own : List String} {m : Machine}

theorem error {halt : Halt} (hstore : m.store.Grounded base) (hbound : halt.isUnbound = false) :
    Run.Grounds base e own (.error halt m) := by
  refine ⟨hstore, fun _ _ h => (nomatch h), ?_⟩
  rintro _ _ ⟨⟩
  exact hbound

theorem ok {x : Value} (hstore : m.store.Grounded base)
    (hx : x.All (Grounded base (own.map (Prod.mk e)) m.store)) :
    Run.Grounds base e own (.ok x m) := by
  refine ⟨hstore, ?_, fun _ _ h => (nomatch h)⟩
  rintro _ _ ⟨⟩
  exact hx

theorem of_nil {result : EStateM.Result Halt Machine Value} {e' : ScopeId}
    (h : Run.Grounds base e' [] result) : Run.Grounds base e own result :=
  ⟨h.store, fun x m' hx => (h.value x m' hx).mono (Grounded.of_binds _ fun _ _ hb => hb),
    h.bound⟩

theorem leave {result : EStateM.Result Halt Machine Value} (h : Run.Grounds base e own result)
    (location : Option Location) : Run.Grounds base e own (Run.leave location result) := by
  cases result with
  | error halt m' => exact .error h.store (by simpa using h.bound halt m' rfl)
  | ok x m' => exact .ok h.store (h.value x m' rfl)

end Run.Grounds

section

variable {base e : ScopeId} {own pending names : List String} {m : Machine}

/-- A plan that is well scoped finds every name, if evaluating well-scoped nodes does. -/
theorem Plan.run_grounded (settings : Settings) {eval : Node → ScopeId → Run Value}
    (hframed : ∀ node e (m : Machine),
      m.store.Framed e node.letNames (Run.machine (eval node e m)).store)
    (heval : ∀ node e (m : Machine) own names, node.wellScoped own names →
      m.store.Grounded base → base ≤ e → e < m.store.scopes.size →
      (∀ name ∈ names, m.store.Binds name e) → Run.Grounds base e own (eval node e m))
    (plan : Plan) (hplan : plan.WellScoped own pending names) (hm : m.store.Grounded base)
    (hbase : base ≤ e) (he : e < m.store.scopes.size)
    (hnames : ∀ name ∈ names, m.store.Binds name e)
    (hcarries : plan.Carries (Grounded base (pending.map (Prod.mk e)) m.store)) :
    Run.Grounds base e own (plan.run settings eval e m) := by
  induction plan generalizing pending names m with
  | done result =>
    cases result with
    | error halt => exact .error hm hplan
    | ok value =>
      obtain rfl : pending = [] := hplan
      exact .ok hm (Value.All.mono (Grounded.of_binds _ fun _ _ h => h) hcarries)
  | write text rest ih => exact ih (m := m.wrote text) hplan hm he hnames hcarries
  | define name value rest ih =>
    -- With the name bound, nothing is pending any more.
    have hpending : ∀ id parameters body captured,
        Grounded base (pending.map (Prod.mk e)) m.store id parameters body captured →
        Grounded base [] (m.store.define e name value) id parameters body captured := by
      refine Grounded.mono (fun _ _ h => h.define e name value) fun entry hentry => ?_
      obtain ⟨other, hother, rfl⟩ := List.mem_map.1 hentry
      obtain rfl : other = name := List.mem_singleton.1 (hplan.1 hother)
      exact .inl (Store.binds_define_self he other value)
    refine ih (m := m.bound settings e name value) hplan.2 ?_ (by simpa using he) ?_ ?_
    · rw [Machine.store_bound]
      exact hm.define (hcarries.1.mono hpending)
    · rw [Machine.store_bound]
      intro other hother
      rcases List.mem_cons.1 hother with rfl | hother
      · exact Store.binds_define_self he other value
      · exact (hnames other hother).define e name value
    · rw [Machine.store_bound]
      exact hcarries.2.mono hpending
  | fetch name =>
    obtain ⟨x, hx⟩ := (hnames name hplan).exists_lookup
    simp only [run, hx]
    exact .ok hm ((hm.lookup hbase hx).mono (Grounded.of_binds _ fun _ _ h => h))
  | close parameters body =>
    refine .ok (hm.newClosure parameters body e) ⟨hbase, own ++ names, hplan, ?_⟩
    intro name hname
    rcases List.mem_append.1 hname with hown | hname
    · exact .inr (List.mem_map.2 ⟨name, hown, rfl⟩)
    · exact .inl ((hnames name hname).of_scopes_eq rfl)
  | child node rest ih =>
    obtain ⟨rfl, next, hnode, hrest⟩ := hplan
    have hbinds : ∀ name f, m.store.Binds name f →
        (Run.machine (eval node e m)).store.Binds name f := fun _ _ => (hframed node e m).binds
    have hgrounds := heval node e m next names hnode hm hbase he hnames
    simp only [run]
    cases hresult : eval node e m with
    | error halt m' =>
      rw [hresult] at hgrounds
      exact .error hgrounds.store (hgrounds.bound halt m' rfl)
    | ok value m' =>
      rw [hresult] at hgrounds hbinds
      refine ih value (hrest value) hgrounds.store ?_
        (fun name hname => hbinds name e (hnames name hname)) ?_
      · have hlt := (hframed node e m).lt_size he
        rwa [hresult] at hlt
      · exact hcarries _ (Grounded.of_binds _ hbinds) value (hgrounds.value value m' rfl)
  | enter id parameters body captured values =>
    obtain ⟨rfl, hlength⟩ := hplan
    obtain ⟨⟨hcaptured, outer, hbody, houter⟩, hvalues⟩ := hcarries
    have hgrounds := heval body m.store.scopes.size (m.entered settings parameters captured values)
      [] (parameters ++ outer) hbody
    rw [Machine.store_entered] at hgrounds
    refine .of_nil (hgrounds (hm.enter hcaptured hvalues parameters)
      (Nat.le_trans hbase (Nat.le_of_lt he)) (by simp) fun name hname => ?_)
    have hscope : (m.store.newScope (some captured) (.ofArguments parameters values)).2.scopes[
        m.store.scopes.size]? = some ⟨some captured, .ofArguments parameters values⟩ := by
      rw [Store.scopes_newScope, if_pos rfl]
    rcases List.mem_append.1 hname with hparameter | houtside
    · exact .here hscope (Bindings.get?_ofArguments_ne_none hlength hparameter)
    · have hbound : m.store.Binds name captured := by simpa using houter name houtside
      exact .around hscope rfl hbound.lt_size (hbound.newScope _ _)

/-- Evaluation of a well-scoped node finds every name. -/
theorem evaluate_grounded (settings : Settings) (budget : Nat) (node : Node) (e : ScopeId)
    (m : Machine) (own names : List String) (hnode : node.wellScoped own names)
    (hm : m.store.Grounded base) (hbase : base ≤ e) (he : e < m.store.scopes.size)
    (hnames : ∀ name ∈ names, m.store.Binds name e) :
    Run.Grounds base e own (evaluate settings budget node e m) := by
  induction budget generalizing node e m own names with
  | zero => exact .error hm rfl
  | succ budget ih =>
    by_cases hdepth : settings.maxDepth ≤ m.depth
    · rw [evaluate_refused settings budget node e m hdepth]
      exact .error (by simpa using hm) (Halt.isUnbound_refusal ..)
    · rw [evaluate_granted settings budget node e m (Int.not_le.1 hdepth)]
      refine Run.Grounds.leave (Plan.run_grounded settings (evaluate_framed settings budget) ih
        (.ofNode node) (Plan.wellScoped_ofNode hnode) ?_ hbase ?_ ?_ ?_) node.location
      · simpa using hm
      · simpa using he
      · simpa using hnames
      · exact Plan.carries_ofNode node _

end

/-- **Well-scoped programs find every name.**  A run of a program in which every name is bound
around its use, under whatever depth and from whatever machine, never stops at a name without a
value. -/
theorem interpret_ne_unboundVariable (settings : Settings) (host : Limits) (root : Node)
    (h : root.wellScoped [] []) (m : Machine) (name : String) (location : Option Location)
    (m' : Machine) :
    interpret settings host root m ≠ .error (.error (.unboundVariable name) location) m' := by
  have hgrounds := evaluate_grounded settings (settings.budgetOn host 0) root
    m.store.scopes.size m.fresh [] [] h (.start m.store) (Nat.le_refl _) (by simp [Machine.fresh])
    (by simp)
  rw [interpret_apply]
  cases hresult : evaluate settings (settings.budgetOn host 0) root
      m.store.scopes.size m.fresh with
  | ok x m'' => exact fun hcon => nomatch hcon
  | error halt m'' =>
    intro hcon
    injection hcon with hhalt
    have hbound := settings.isUnbound_exhausted halt
    rw [hhalt, hgrounds.bound halt m'' hresult] at hbound
    exact nomatch hbound

/-- A function that calls itself by its own name until its argument is zero. -/
theorem interpret_ne_unboundVariable_recursive :
    let recur : Node := .call (.var "f" none)
      [.binary .sub (.var "n" none) (.int 1 none) none] none
    let body : Node :=
      .cond (.binary .eq (.var "n" none) (.int 0 none) none) (.str "end" none) recur none
    let root : Node := .letIn "f" (.function ["n"] body none)
      (.call (.var "f" none) [.int 2 none] none) none
    root.wellScoped [] [] ∧ ∀ name location m',
      interpret {} .standard root {} ≠ .error (.error (.unboundVariable name) location) m' := by
  intro recur body root
  have hscoped : root.wellScoped [] [] := rfl
  exact ⟨hscoped, fun name location m' =>
    interpret_ne_unboundVariable {} .standard root hscoped {} name location m'⟩

/-- Only a function may use its own name, and not a pair that holds it. -/
example : Node.wellScoped [] []
    (.letIn "f" (.tuple (.function [] (.var "f" none) none) (.int 0 none) none)
      (.int 0 none) none) = false := rfl

end Rinha
