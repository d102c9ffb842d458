import Rinha.Proofs.Occurrence
import Rinha.Proofs.Scopes

/-!
# What evaluation leaves alone

Evaluating a node in a scope binds names in that scope and in scopes that are made on the way, and
nowhere else.  In particular a call, whatever the body of the closure does, leaves every scope as it
was: the scope that the closure captured, the scope of the call and all others.

## Main definitions

* `Scope.Kept` -- what may happen to a scope in which only some names are bound.
* `Store.Framed` -- all scopes but one are left alone, and in that one only some names are bound.
* `evaluate_framed` -- evaluation in a scope binds the names of its let nodes there, at most.
-/

namespace Rinha

/-- A scope before and after some names may have been bound in it: it hangs off the same scope, it
binds what it did, and every other name has the value that it had. -/
structure Scope.Kept (names : List String) (before after : Scope) : Prop where
  parent : after.parent = before.parent
  bound : ∀ name, before.bindings.get? name ≠ none → after.bindings.get? name ≠ none
  same : ∀ name, name ∉ names → after.bindings.get? name = before.bindings.get? name

/-- A store before and after some names may have been bound in a scope: all scopes are still there,
and no other scope has changed. -/
def Store.Framed (e : ScopeId) (names : List String) (before after : Store) : Prop :=
  ∀ id scope, before.scopes[id]? = some scope → ∃ scope', after.scopes[id]? = some scope' ∧
    scope.Kept names scope' ∧ (id ≠ e → scope'.bindings = scope.bindings)

namespace Scope.Kept

variable {names names' : List String} {scope scope' scope'' : Scope}

theorem refl (names : List String) (scope : Scope) : scope.Kept names scope :=
  ⟨rfl, fun _ h => h, fun _ _ => rfl⟩

theorem trans (h : scope.Kept names scope') (h' : scope'.Kept names scope'') :
    scope.Kept names scope'' where
  parent := h'.parent.trans h.parent
  bound name hname := h'.bound name (h.bound name hname)
  same name hname := (h'.same name hname).trans (h.same name hname)

theorem mono (h : scope.Kept names scope') (hnames : names ⊆ names') :
    scope.Kept names' scope' where
  parent := h.parent
  bound := h.bound
  same name hname := h.same name fun hmem => hname (hnames hmem)

/-- Binding one of the names keeps a scope. -/
theorem set {name : String} (h : name ∈ names) (scope : Scope) (value : Value) :
    scope.Kept names { scope with bindings := scope.bindings.set name value } where
  parent := rfl
  bound other hother := by
    by_cases hn : other = name
    · subst hn
      simp [Bindings.get?_set_self]
    · rwa [Bindings.get?_set_of_ne hn]
  same other hother := Bindings.get?_set_of_ne (fun hn => hother (by rwa [hn])) value scope.bindings

end Scope.Kept

namespace Store.Framed

variable {e : ScopeId} {names names' : List String} {s s' s'' : Store}

theorem of_scopes_eq (h : s'.scopes = s.scopes) : s.Framed e names s' := by
  intro id scope hscope
  exact ⟨scope, by rw [h, hscope], .refl names scope, fun _ => rfl⟩

theorem trans (h : s.Framed e names s') (h' : s'.Framed e names s'') : s.Framed e names s'' := by
  intro id scope hscope
  obtain ⟨scope', hscope', hkept, hsame⟩ := h id scope hscope
  obtain ⟨scope'', hscope'', hkept', hsame'⟩ := h' id scope' hscope'
  exact ⟨scope'', hscope'', hkept.trans hkept', fun hne => (hsame' hne).trans (hsame hne)⟩

theorem mono (h : s.Framed e names s') (hnames : names ⊆ names') : s.Framed e names' s' := by
  intro id scope hscope
  obtain ⟨scope', hscope', hkept, hsame⟩ := h id scope hscope
  exact ⟨scope', hscope', hkept.mono hnames, hsame⟩

/-- Binding one of the names in the scope. -/
theorem define {name : String} (h : name ∈ names) (s : Store) (value : Value) :
    s.Framed e names (s.define e name value) := by
  intro id scope hscope
  rw [scopes_define, hscope]
  by_cases hid : e = id
  · exact ⟨_, by simp only [Option.map_some, if_pos hid], .set h scope value,
      fun hne => absurd hid.symm hne⟩
  · exact ⟨scope, by simp only [Option.map_some, if_neg hid], .refl names scope, fun _ => rfl⟩

/-- A scope that is made, and all that is bound in it, leaves the scopes that there were alone. -/
theorem newScope {parent : Option ScopeId} {bindings : Bindings}
    (h : (s.newScope parent bindings).2.Framed s.scopes.size names s') :
    s.Framed e names' s' := by
  intro id scope hscope
  obtain ⟨scope', hscope', hkept, hsame⟩ :=
    h id scope (scopes_newScope_of_eq_some hscope parent bindings)
  have hlt : id < s.scopes.size := (Array.getElem?_eq_some_iff.1 hscope).1
  have hbindings : scope'.bindings = scope.bindings := hsame (Nat.ne_of_lt hlt)
  refine ⟨scope', hscope', ⟨hkept.parent, hkept.bound, fun name _ => ?_⟩, fun _ => hbindings⟩
  rw [hbindings]

end Store.Framed

/-- Carrying out a plan that keeps to a node binds no more than the node does, if evaluating any
node does so. -/
theorem Plan.run_framed {settings : Settings} {eval : Node → ScopeId → Run Value}
    (heval : ∀ node e (m : Machine),
      m.store.Framed e node.letNames (Run.machine (eval node e m)).store)
    {node : Node} {plan : Plan} (hplan : plan.Fits node) (e : ScopeId) (m : Machine) :
    m.store.Framed e node.letNames (Run.machine (plan.run settings eval e m)).store := by
  induction plan generalizing m with
  | done result => cases result <;> exact .of_scopes_eq rfl
  | write text rest ih => exact ih hplan (m.wrote text)
  | define name value rest ih =>
    have hrest := ih hplan.2 (m.bound settings e name value)
    rw [Machine.store_bound] at hrest
    exact (Store.Framed.define hplan.1 m.store value).trans hrest
  | fetch name =>
    simp only [run]
    cases m.store.lookup e name <;> exact .of_scopes_eq rfl
  | close parameters body => exact .of_scopes_eq rfl
  | child node' rest ih =>
    have hnode : m.store.Framed e node.letNames (Run.machine (eval node' e m)).store :=
      (heval node' e m).mono (Node.letNames_subset_of_mem_children hplan.1)
    simp only [run]
    cases h : eval node' e m with
    | error halt m' => simpa [h] using hnode
    | ok value m' =>
      rw [h] at hnode
      exact hnode.trans (ih value (hplan.2 value) m')
  | enter id parameters body captured values =>
    -- The body runs in a scope that is not among those of the store, so its names do not matter.
    have hbody := heval body m.store.scopes.size (m.entered settings parameters captured values)
    rw [Machine.store_entered] at hbody
    exact hbody.newScope

/-- Evaluation within any budget binds names in the scope of the node only. -/
theorem evaluate_framed (settings : Settings) (budget : Nat) (node : Node) (e : ScopeId)
    (m : Machine) :
    m.store.Framed e node.letNames (Run.machine (evaluate settings budget node e m)).store := by
  refine evaluate_induction
    (P := fun node e m result => m.store.Framed e node.letNames (Run.machine result).store)
    (fun _ _ _ => .of_scopes_eq rfl) (fun _ _ _ _ => .of_scopes_eq ?_) ?_ budget node e m
  · simp
  · intro eval heval node e m _
    simpa using Plan.run_framed heval (Plan.fits_ofNode node) e (m.started settings node.kind)

/-- **Frame law of evaluation.**  Whichever way the evaluation of a node in a scope ends, every
scope that there was is still there and hangs off the same scope; every scope but that of the node
has exactly the bindings that it had; and the scope of the node binds every name that it did, with
the same value unless the name is that of a let node that stands in the node outside the bodies of
functions. -/
theorem evaluateHere_framed (settings : Settings) (host : Limits) (node : Node) (e : ScopeId)
    (m : Machine) :
    m.store.Framed e node.letNames (Run.machine (evaluateHere settings host node e m)).store := by
  rw [evaluateHere_apply]
  exact evaluate_framed settings _ node e m

end Rinha
