import Rinha.Proofs.Visibility
import Rinha.Proofs.WellScoped
import Rinha.Proofs.Yield

/-!
# The scope in which the body of a closure starts

A call evaluates its arguments in the scope of the caller, first to last.  Only when all of them
have values is a scope made off the one that the closure captured, and the parameters are bound in
it one by one.  So the scope binds the parameters and nothing else, each to its last argument; every
other name is found as it is from the captured scope at that moment, with all that the arguments
have bound there; and no other scope has changed.

## Main definitions

* `keeps_of_evaluateAll`, `framed_of_evaluateAll` -- what the evaluation of several nodes keeps.
* `binds_of_evaluateAll` -- a let node among them has bound its name.
* `Store.lookup_newScope_of_lt`, `Store.lookup_newScope_size` -- what is found from the old scopes
  and from the new one, after a scope is made.
* `Store.Entered`, `Store.entered_enter` -- the store in which the body of a closure starts.
-/

namespace Rinha

/-! ## Several nodes in turn -/

section

variable {settings : Settings} {budget : Nat} {node : Node} {nodes : List Node} {e : ScopeId}
  {m m' : Machine} {x : Value} {values : List Value}

/-- Several nodes have values if the first has one and then the others have theirs. -/
theorem exists_of_evaluateAll_cons {eval : Node → Run Value}
    (h : evaluateAll eval (node :: nodes) m = .ok values m') :
    ∃ x m₁ xs, eval node m = .ok x m₁ ∧ evaluateAll eval nodes m₁ = .ok xs m' ∧
      values = x :: xs := by
  simp only [evaluateAll, Run.bind_apply] at h
  cases hnode : eval node m with
  | error halt m₁ =>
    rw [hnode] at h
    cases h
  | ok x m₁ =>
    simp only [hnode] at h
    cases hrest : evaluateAll eval nodes m₁ with
    | error halt m₂ =>
      rw [hrest] at h
      cases h
    | ok xs m₂ =>
      rw [hrest] at h
      cases h
      exact ⟨x, m₁, xs, rfl, hrest, rfl⟩

/-- There are as many values as nodes. -/
theorem length_of_evaluateAll {eval : Node → Run Value}
    (h : evaluateAll eval nodes m = .ok values m') : values.length = nodes.length := by
  induction nodes generalizing m values with
  | nil =>
    cases h
    rfl
  | cons node nodes ih =>
    obtain ⟨x, m₁, xs, -, hrest, rfl⟩ := exists_of_evaluateAll_cons h
    rw [List.length_cons, List.length_cons, ih hrest]

/-- A node with a value leaves a valid store, in which the value is valid. -/
theorem keeps_of_evaluate (hm : m.store.Valid) (he : e < m.store.scopes.size)
    (h : evaluate settings budget node e m = .ok x m') : m.store.Keeps [x] m'.store := by
  have hkeeps := evaluate_keeps settings budget node e m hm he
  rw [h] at hkeeps
  exact ⟨hkeeps.store, hkeeps.grows, by simpa using hkeeps.value x m' rfl⟩

/-- So do several nodes with values. -/
theorem keeps_of_evaluateAll (hm : m.store.Valid) (he : e < m.store.scopes.size)
    (h : evaluateAll (evaluate settings budget · e) nodes m = .ok values m') :
    m.store.Keeps values m'.store := by
  induction nodes generalizing m values with
  | nil =>
    cases h
    exact .nil hm
  | cons node nodes ih =>
    obtain ⟨x, m₁, xs, hnode, hrest, rfl⟩ := exists_of_evaluateAll_cons h
    have hkept := keeps_of_evaluate hm he hnode
    exact hkept.cons (ih hkept.store (hkept.scope he) hrest)

/-- Several nodes bind names in their scope only, and no others than their let nodes do. -/
theorem framed_of_evaluateAll
    (h : evaluateAll (evaluate settings budget · e) nodes m = .ok values m') :
    m.store.Framed e (nodes.flatMap Node.letNames) m'.store := by
  induction nodes generalizing m values with
  | nil =>
    cases h
    exact .of_scopes_eq rfl
  | cons node nodes ih =>
    obtain ⟨x, m₁, xs, hnode, hrest, rfl⟩ := exists_of_evaluateAll_cons h
    have hfirst := evaluate_framed settings budget node e m
    rw [hnode] at hfirst
    rw [List.flatMap_cons]
    exact (hfirst.mono (List.subset_append_left ..)).trans
      ((ih hrest).mono (List.subset_append_right ..))

/-! ## What let nodes bind -/

/-- What is bound in a scope stays bound. -/
theorem Store.Framed.get?_bindings_ne_none {s s' : Store} {f : ScopeId} {names : List String}
    (h : s.Framed f names s') {name : String} (hbound : (s.bindings e).get? name ≠ none) :
    (s'.bindings e).get? name ≠ none := by
  cases hscope : s.scopes[e]? with
  | none => exact absurd (by simp only [Store.bindings, hscope, Bindings.get?]) hbound
  | some scope =>
    obtain ⟨scope', hscope', hkept, -⟩ := h e scope hscope
    simp only [Store.bindings, hscope] at hbound
    simpa only [Store.bindings, hscope'] using hkept.bound name hbound

section

variable {name : String} {operand next : Node} {l : Option Location}

/-- A let node has a value if its operand has one, and then, with the name bound to that, the node
that comes next. -/
theorem exists_of_evaluate_letIn
    (h : evaluate settings budget (.letIn name operand next l) e m = .ok x m') :
    ∃ inner y m₁ m₂, evaluate settings inner operand e (m.started settings .letIn) = .ok y m₁ ∧
      evaluate settings inner next e (m₁.bound settings e name y) = .ok x m₂ ∧ m' = m₂.ended := by
  cases budget with
  | zero => cases h
  | succ inner =>
    by_cases hdepth : settings.maxDepth ≤ m.depth
    · rw [evaluate_refused settings inner _ e m hdepth] at h
      cases h
    · rw [evaluate_granted settings inner _ e m (Int.not_le.1 hdepth)] at h
      simp only [Plan.ofNode, Plan.run, Plan.run_last, Node.kind] at h
      cases hoperand : evaluate settings inner operand e (m.started settings .letIn) with
      | error halt m₁ =>
        rw [hoperand] at h
        cases h
      | ok y m₁ =>
        simp only [hoperand] at h
        cases hnext : evaluate settings inner next e (m₁.bound settings e name y) with
        | error halt m₂ =>
          rw [hnext] at h
          cases h
        | ok z m₂ =>
          rw [hnext] at h
          cases h
          exact ⟨inner, y, m₁, m₂, hoperand, hnext, rfl⟩

/-- A let node with a value has bound its name in its scope. -/
theorem binds_of_evaluate (he : e < m.store.scopes.size)
    (h : evaluate settings budget (.letIn name operand next l) e m = .ok x m') :
    (m'.store.bindings e).get? name ≠ none := by
  obtain ⟨inner, y, m₁, m₂, hoperand, hnext, rfl⟩ := exists_of_evaluate_letIn h
  have hfirst := evaluate_framed settings inner operand e (m.started settings .letIn)
  rw [hoperand, Machine.store_started] at hfirst
  have he₁ : e < m₁.store.scopes.size := hfirst.lt_size he
  have hbound : ((m₁.store.define e name y).bindings e).get? name ≠ none := by
    simp [Store.bindings_define_self he₁, Bindings.get?_set_self]
  -- The node that comes next may bind the name anew, and does not unbind it.
  have hrest := evaluate_framed settings inner next e (m₁.bound settings e name y)
  rw [hnext, Machine.store_bound] at hrest
  exact hrest.get?_bindings_ne_none hbound

/-- A let node among several nodes with values has bound its name in their scope. -/
theorem binds_of_evaluateAll
    (hmem : Node.letIn name operand next l ∈ nodes) (he : e < m.store.scopes.size)
    (h : evaluateAll (evaluate settings budget · e) nodes m = .ok values m') :
    (m'.store.bindings e).get? name ≠ none := by
  induction nodes generalizing m values with
  | nil => cases hmem
  | cons node nodes ih =>
    obtain ⟨x, m₁, xs, hnode, hrest, rfl⟩ := exists_of_evaluateAll_cons h
    rcases List.mem_cons.1 hmem with rfl | hmem
    · exact (framed_of_evaluateAll hrest).get?_bindings_ne_none (binds_of_evaluate he hnode)
    · have hframed := evaluate_framed settings budget node e m
      rw [hnode] at hframed
      exact ih hmem (hframed.lt_size he) hrest

end

end

/-! ## The scope of a call -/

namespace Bindings

variable {parameters : List String} {values : List Value} {name : String}

/-- A call binds no other names than its parameters. -/
theorem get?_ofArguments_of_notMem (h : name ∉ parameters) (values : List Value) :
    get? name (ofArguments parameters values) = none := by
  refine get?_foldl_set_of_notMem ?_ []
  intro hmem
  obtain ⟨pair, hpair, rfl⟩ := List.mem_map.1 hmem
  exact h (List.of_mem_zip hpair).1

/-- A parameter is bound to the argument at the last position where its name occurs. -/
theorem get?_ofArguments_of_forall_ne {i : Nat} {x : Value} (hname : parameters[i]? = some name)
    (hx : values[i]? = some x) (hlast : ∀ j, i < j → parameters[j]? ≠ some name) :
    get? name (ofArguments parameters values) = some x := by
  obtain ⟨hi, rfl⟩ := List.getElem?_eq_some_iff.1 hname
  obtain ⟨hi', rfl⟩ := List.getElem?_eq_some_iff.1 hx
  have hafter : parameters[i] ∉ parameters.drop (i + 1) := by
    intro hmem
    obtain ⟨k, hk⟩ := List.mem_iff_getElem?.1 hmem
    rw [List.getElem?_drop] at hk
    exact hlast (i + 1 + k) (by omega) hk
  have hlength : (parameters.take i).length = (values.take i).length := by
    simp only [List.length_take]
    omega
  have hcall : get? parameters[i] (ofArguments
      (parameters.take i ++ parameters[i] :: parameters.drop (i + 1))
      (values.take i ++ values[i] :: values.drop (i + 1))) = some values[i] :=
    get?_ofArguments_of_last hlength hafter values[i]
  rwa [List.getElem_cons_drop, List.getElem_cons_drop, List.take_append_drop,
    List.take_append_drop] at hcall

end Bindings

namespace Store

variable {s : Store}

/-- A new scope hangs off the given one and binds what it is given. -/
theorem scopes_newScope_size (s : Store) (parent : Option ScopeId) (bindings : Bindings) :
    (s.newScope parent bindings).2.scopes[s.scopes.size]? = some ⟨parent, bindings⟩ := by
  rw [scopes_newScope, if_pos rfl]

/-- A scope made off an older one leaves all scopes hanging off older ones. -/
theorem WellFormed.newScope (hs : s.WellFormed) {parent : Option ScopeId}
    (hparent : ∀ p ∈ parent, p < s.scopes.size) (bindings : Bindings) :
    (s.newScope parent bindings).2.WellFormed := by
  intro id scope hscope p hp
  rw [scopes_newScope] at hscope
  split at hscope
  · next hid =>
    cases hscope
    exact hid ▸ hparent p hp
  · exact hs id scope hscope p hp

/-- A new scope leaves what is found from the scopes that there were as it is. -/
theorem lookup_newScope_of_lt (hs : s.WellFormed) {e : ScopeId} (he : e < s.scopes.size)
    (parent : Option ScopeId) (bindings : Bindings) (name : String) :
    (s.newScope parent bindings).2.lookup e name = s.lookup e name := by
  have key : ∀ steps e, e < s.scopes.size →
      (s.newScope parent bindings).2.lookupWithin name steps e = s.lookupWithin name steps e := by
    intro steps
    induction steps with
    | zero => exact fun _ _ => rfl
    | succ steps ih =>
      intro e he
      have hscope : s.scopes[e]? = some s.scopes[e] := Array.getElem?_eq_getElem he
      simp only [lookupWithin, scopes_newScope, if_neg (Nat.ne_of_lt he), hscope]
      cases hparent : s.scopes[e].parent with
      | none => rfl
      | some outer =>
        have holder : outer < e := hs e _ hscope outer hparent
        simp only [ih outer (Nat.lt_trans holder he)]
  exact key (e + 1) e he

/-- From a new scope a name is found there, or else as from the scope that it hangs off. -/
theorem lookup_newScope_size (hs : s.WellFormed) {captured : ScopeId}
    (hcaptured : captured < s.scopes.size) (bindings : Bindings) (name : String) :
    (s.newScope (some captured) bindings).2.lookup s.scopes.size name =
      (bindings.get? name).or (s.lookup captured name) := by
  have hnew := s.scopes_newScope_size (some captured) bindings
  have hwhole : (s.newScope (some captured) bindings).2.WellFormed :=
    hs.newScope (by simpa using hcaptured) bindings
  rw [← lookup_newScope_of_lt hs hcaptured (some captured) bindings,
    lookup_eq_get?_flatMap_chain, lookup_eq_get?_flatMap_chain, chain_eq hwhole hnew]
  simp only [Option.elim_some, List.flatMap_cons, Bindings.get?_append, Store.bindings, hnew]

/-- The store in which the body of a closure starts, given the store in which its arguments have
been evaluated. -/
structure Entered (s : Store) (captured : ScopeId) (parameters : List String)
    (values : List Value) (s' : Store) : Prop where
  /-- The new scope hangs off the captured one. -/
  parent : (s'.scopes[s.scopes.size]?).map Scope.parent = some (some captured)
  /-- It binds the names of the parameters, and no others. -/
  names : ∀ name, (s'.bindings s.scopes.size).get? name ≠ none ↔ name ∈ parameters
  /-- Each has the argument at the last position where the name occurs. -/
  last : ∀ (i : Nat) name x, parameters[i]? = some name → values[i]? = some x →
    (∀ j, i < j → parameters[j]? ≠ some name) → (s'.bindings s.scopes.size).get? name = some x
  /-- Every other name is found as it is from the captured scope. -/
  others : ∀ name, name ∉ parameters → s'.lookup s.scopes.size name = s'.lookup captured name
  /-- From the captured scope, and all others, names are found as when the arguments had been
  evaluated. -/
  outside : ∀ id name, id < s.scopes.size → s'.lookup id name = s.lookup id name
  /-- No other scope has changed, and none has been made. -/
  kept : ∀ id, id ≠ s.scopes.size → s'.scopes[id]? = s.scopes[id]?

/-- To make a scope off the captured one, and to bind the parameters in it one by one, leads to the
store in which the body starts. -/
theorem entered_enter (hs : s.WellFormed) {captured : ScopeId}
    (hcaptured : captured < s.scopes.size) {parameters : List String} {values : List Value}
    (hlength : values.length = parameters.length) :
    s.Entered captured parameters values (s.enter captured parameters values) := by
  rw [enter_eq]
  have hnew := s.scopes_newScope_size (some captured) (.ofArguments parameters values)
  have hbindings : (s.newScope (some captured) (.ofArguments parameters values)).2.bindings
      s.scopes.size = .ofArguments parameters values := by
    simp only [bindings, hnew]
  refine ⟨by rw [hnew]; rfl, ?_, ?_, ?_, ?_, ?_⟩
  · intro name
    rw [hbindings]
    constructor
    · intro hbound
      by_contra hname
      exact hbound (Bindings.get?_ofArguments_of_notMem hname values)
    · exact Bindings.get?_ofArguments_ne_none hlength
  · intro i name x hname hx hlast
    rw [hbindings]
    exact Bindings.get?_ofArguments_of_forall_ne hname hx hlast
  · intro name hname
    rw [lookup_newScope_size hs hcaptured, Bindings.get?_ofArguments_of_notMem hname,
      Option.none_or, lookup_newScope_of_lt hs hcaptured]
  · intro id name hid
    exact lookup_newScope_of_lt hs hid ..
  · intro id hid
    rw [scopes_newScope, if_neg hid]

end Store

/-- A call whose callee is a closure, and whose arguments have values, evaluates the body in a new
scope, after the parameters have been bound there one by one. -/
theorem evaluate_call {settings : Settings} {budget : Nat} {callee : Node} {arguments : List Node}
    {e : ScopeId} {m m₁ m₂ : Machine} (hdepth : m.depth < settings.maxDepth) {id : Nat}
    {parameters : List String} {body : Node} {captured : ScopeId} {values : List Value}
    (hcallee : evaluate settings budget callee e (m.started settings .call) =
      .ok (.closure id parameters body captured) m₁)
    (hlength : arguments.length = parameters.length)
    (hvalues : evaluateAll (evaluate settings budget · e) arguments m₁ = .ok values m₂)
    (l : Option Location) :
    evaluate settings (budget + 1) (.call callee arguments l) e m =
      Run.leave l (evaluate settings budget body m₂.store.scopes.size
        (m₂.entered settings parameters captured values)) := by
  rw [evaluate_granted settings budget _ e m hdepth]
  simp only [Plan.ofNode, Plan.run, Node.kind, hcallee, Plan.calling_of_length_eq hlength,
    Plan.run_children, hvalues]
  rfl

/-- **Parameters of a call.**  Take a call of a closure in a scope of a valid store, with as many
arguments as the closure has parameters, all of which have values.  Then the body is evaluated in a
new scope of the store that the arguments have left.  That scope hangs off the captured one and
binds the names of the parameters and no others, each to the argument at the last position where the
name occurs.  Every other name is found as from the captured scope as the arguments have left it,
and no other scope has changed.  So what any scope on the chain of the captured one binds by then is
found, if no scope before it binds the name: in particular, if the scope of the caller is on that
chain, what let nodes among the arguments have bound there. -/
theorem call_binds_parameters (settings : Settings) (budget : Nat) (callee : Node)
    (arguments : List Node) (l : Option Location) (e : ScopeId) (m : Machine) (hm : m.store.Valid)
    (he : e < m.store.scopes.size) (hdepth : m.depth < settings.maxDepth) (id : Nat)
    (parameters : List String) (body : Node) (captured : ScopeId) (values : List Value)
    (m₁ m₂ : Machine)
    (hcallee : evaluate settings budget callee e (m.started settings .call) =
      .ok (.closure id parameters body captured) m₁)
    (hlength : arguments.length = parameters.length)
    (hvalues : evaluateAll (evaluate settings budget · e) arguments m₁ = .ok values m₂) :
    ∃ start : Machine,
      evaluate settings (budget + 1) (.call callee arguments l) e m =
        Run.leave l (evaluate settings budget body m₂.store.scopes.size start) ∧
      start.store = m₂.store.enter captured parameters values ∧
      m₂.store.Entered captured parameters values start.store ∧
      (∀ name f x, name ∉ parameters → m₂.store.Visible name f captured →
        (m₂.store.bindings f).get? name = some x →
        start.store.lookup m₂.store.scopes.size name = some x) ∧
      ∀ name operand next place, Node.letIn name operand next place ∈ arguments →
        name ∉ parameters → m₂.store.Visible name e captured →
        ∃ x, (m₂.store.bindings e).get? name = some x ∧
          start.store.lookup m₂.store.scopes.size name = some x := by
  have hclosure : m.store.Keeps [.closure id parameters body captured] m₁.store := by
    simpa using keeps_of_evaluate (by simpa using hm) (by simpa using he) hcallee
  have he₁ : e < m₁.store.scopes.size := hclosure.scope he
  have harguments : m₁.store.Keeps values m₂.store :=
    keeps_of_evaluateAll hclosure.store he₁ hvalues
  have hcaptured : captured < m₂.store.scopes.size := harguments.scope hclosure.value
  have hentered : m₂.store.Entered captured parameters values
      (m₂.store.enter captured parameters values) :=
    Store.entered_enter harguments.store.parents hcaptured
      ((length_of_evaluateAll hvalues).trans hlength)
  have hfound : ∀ name f x, name ∉ parameters → m₂.store.Visible name f captured →
      (m₂.store.bindings f).get? name = some x →
      (m₂.store.enter captured parameters values).lookup m₂.store.scopes.size name = some x := by
    intro name f x hname hvisible hx
    rw [hentered.others name hname, hentered.outside captured name hcaptured]
    exact hvisible.lookup hx
  have hstore : (m₂.entered settings parameters captured values).store =
      m₂.store.enter captured parameters values := by
    rw [Machine.store_entered, Store.enter_eq]
  refine ⟨m₂.entered settings parameters captured values,
    evaluate_call hdepth hcallee hlength hvalues l, hstore, ?_⟩
  rw [hstore]
  refine ⟨hentered, hfound, ?_⟩
  intro name operand next place hmem hname hvisible
  have hbound : (m₂.store.bindings e).get? name ≠ none := binds_of_evaluateAll hmem he₁ hvalues
  obtain ⟨x, hx⟩ := Option.ne_none_iff_exists'.1 hbound
  exact ⟨x, hx, hfound name e x hname hvisible hx⟩

/-- A closure with two parameters of one name, called from the scope that it captured.  The body
finds the second argument under that name, and under another one what the second argument has bound
on the way. -/
theorem call_binds_parameters_repeated :
    let body : Node := .tuple (.var "x" none) (.var "n" none) none
    let closure : Value := .closure 0 ["x", "x"] body 0
    let arguments : List Node := [.int 1 none, .letIn "n" (.int 5 none) (.int 2 none) none]
    let m : Machine := { store := { scopes := #[⟨none, [("f", closure)]⟩], nextClosure := 1 } }
    ∃ start : Machine,
      evaluate {} 4 (.call (.var "f" none) arguments none) 0 m =
        Run.leave none (evaluate {} 3 body 1 start) ∧
      (start.store.bindings 1).get? "x" = some (.int 2) ∧
      start.store.lookup 1 "n" = some (.int 5) := by
  intro body closure arguments m
  have hvalid : m.store.Valid := by
    refine Store.Valid.define (s := { scopes := #[⟨none, []⟩], nextClosure := 1 }) ?_
      (x := closure) Nat.zero_lt_one 0 "f"
    exact Store.Valid.newScope (s := { nextClosure := 1 }) ⟨by simp [Store.WellFormed], by simp⟩
      (by simp) (by simp)
  let called : Machine := { m with depth := 1 }
  let ready : Machine := { called with store := m.store.define 0 "n" (.int 5) }
  have hcallee : evaluate {} 3 (.var "f" none) 0 (m.started {} .call) = .ok closure called := rfl
  have hvalues : evaluateAll (evaluate {} 3 · 0) arguments called =
      .ok [.int 1, .int 2] ready := rfl
  obtain ⟨start, hbody, -, hentered, hfound, -⟩ := call_binds_parameters {} 3 (.var "f" none)
    arguments none 0 m hvalid (by decide) (by decide) 0 ["x", "x"] body 0 [.int 1, .int 2] called
    ready hcallee rfl hvalues
  refine ⟨start, hbody, hentered.last 1 "x" (.int 2) rfl rfl ?_, ?_⟩
  · intro j hj
    rw [List.getElem?_eq_none (Nat.succ_le_of_lt hj)]
    exact nofun
  · exact hfound "n" 0 (.int 5) (by decide) (by decide) rfl

end Rinha
