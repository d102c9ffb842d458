import Rinha.Store

/-!
# Scopes after an operation

What the scopes of a store are once a name is bound, a scope is made or a closure is made, and which
names a scope binds then.

## Main definitions

* `Store.scopes_define`, `Store.scopes_newScope` -- every scope after a name is bound, and after a
  scope is made.
* `Bindings.mem_set`, `Bindings.mem_ofArguments` -- where the bindings of a scope come from.
* `Store.lookup_define_self`, `Store.lookup_newScope_self` -- what has just been bound is found.
* `Store.exists_get?_of_lookup` -- where the value of a name comes from.
* `Store.Holds` -- all values in scopes have a property.
* `Store.mapValues`, `Store.lookup_mapValues` -- scopes with other values, and what is found there.
-/

namespace Rinha

namespace Bindings

/-- What is looked up is one of the bindings. -/
theorem mem_of_get?_eq_some {name : String} {value : Value} {bindings : Bindings}
    (h : get? name bindings = some value) : (name, value) ∈ bindings := by
  induction bindings with
  | nil => simp [get?] at h
  | cons binding rest ih =>
    obtain ⟨bound, old⟩ := binding
    by_cases hn : bound = name
    · subst hn
      simp only [get?, BEq.rfl, ↓reduceIte, Option.some.injEq] at h
      subst h
      exact List.mem_cons_self
    · simp only [get?, beq_iff_eq, hn, ↓reduceIte] at h
      exact List.mem_cons_of_mem _ (ih h)

/-- After a name is bound, a binding is the new one or an old one. -/
theorem mem_set {name : String} {value : Value} {bindings : Bindings} {binding : String × Value}
    (h : binding ∈ set name value bindings) : binding = (name, value) ∨ binding ∈ bindings := by
  induction bindings with
  | nil => simpa [set] using h
  | cons first rest ih =>
    obtain ⟨bound, old⟩ := first
    by_cases hn : bound = name
    · subst hn
      simp only [set, BEq.rfl, ↓reduceIte, List.mem_cons] at h
      rcases h with h | h
      · exact .inl h
      · exact .inr (List.mem_cons_of_mem _ h)
    · simp only [set, beq_iff_eq, hn, ↓reduceIte, List.mem_cons] at h
      rcases h with h | h
      · exact .inr (by simp [h])
      · exact (ih h).imp_right (List.mem_cons_of_mem _)

/-- After several names are bound, a binding is one of the new ones or an old one. -/
theorem mem_foldl_set {pairs : List (String × Value)} {done : Bindings} {binding : String × Value}
    (h : binding ∈ pairs.foldl (fun bindings pair => set pair.1 pair.2 bindings) done) :
    binding ∈ pairs ∨ binding ∈ done := by
  induction pairs generalizing done with
  | nil => exact .inr h
  | cons pair pairs ih =>
    rcases ih h with h | h
    · exact .inl (List.mem_cons_of_mem _ h)
    · rcases mem_set h with h | h
      · exact .inl (by simp [h])
      · exact .inr h

/-- The bindings of a call bind parameters to arguments. -/
theorem mem_ofArguments {parameters : List String} {arguments : List Value}
    {binding : String × Value} (h : binding ∈ ofArguments parameters arguments) :
    binding ∈ parameters.zip arguments :=
  (mem_foldl_set h).resolve_right List.not_mem_nil

/-- Binding other names leaves the value of a name as it is. -/
theorem get?_foldl_set_of_notMem {name : String} {pairs : List (String × Value)}
    (h : name ∉ pairs.map Prod.fst) (done : Bindings) :
    get? name (pairs.foldl (fun bindings pair => set pair.1 pair.2 bindings) done) =
      get? name done := by
  induction pairs generalizing done with
  | nil => rfl
  | cons pair pairs ih =>
    rw [List.map_cons, List.mem_cons, not_or] at h
    rw [List.foldl_cons, ih h.2, get?_set_of_ne h.1]

/-- The last parameter of a name is bound to its argument. -/
theorem get?_ofArguments_of_last {before after : List String} {xs ys : List Value} {name : String}
    (hlength : before.length = xs.length) (hlast : name ∉ after) (x : Value) :
    (ofArguments (before ++ name :: after) (xs ++ x :: ys)).get? name = some x := by
  have hrest : name ∉ (after.zip ys).map Prod.fst := by
    intro hmem
    obtain ⟨pair, hpair, rfl⟩ := List.mem_map.1 hmem
    exact hlast (List.of_mem_zip hpair).1
  rw [ofArguments, List.zip_append hlength, List.foldl_append, List.zip_cons_cons, List.foldl_cons,
    get?_foldl_set_of_notMem hrest, get?_set_self]

end Bindings

namespace Store

/-- The scopes after a name is bound: one of them has a binding more, or another one. -/
theorem scopes_define (store : Store) (e : ScopeId) (name : String) (value : Value) (id : ScopeId) :
    (store.define e name value).scopes[id]? =
      (store.scopes[id]?).map fun scope =>
        if e = id then { scope with bindings := scope.bindings.set name value } else scope := by
  simp only [define, Array.getElem?_modify]
  by_cases h : e = id
  · simp [h]
  · simp [h]

@[simp] theorem size_define (store : Store) (e : ScopeId) (name : String) (value : Value) :
    (store.define e name value).scopes.size = store.scopes.size := by
  simp [define]

/-- The scopes after one is made: the new one, and the old ones. -/
theorem scopes_newScope (store : Store) (parent : Option ScopeId) (bindings : Bindings)
    (id : ScopeId) :
    (store.newScope parent bindings).2.scopes[id]? =
      if id = store.scopes.size then some ⟨parent, bindings⟩ else store.scopes[id]? := by
  simp [newScope, Array.getElem?_push]

/-- The scopes that there were are there after one is made. -/
theorem scopes_newScope_of_eq_some {store : Store} {id : ScopeId} {scope : Scope}
    (h : store.scopes[id]? = some scope) (parent : Option ScopeId) (bindings : Bindings) :
    (store.newScope parent bindings).2.scopes[id]? = some scope := by
  have hlt : id < store.scopes.size := (Array.getElem?_eq_some_iff.1 h).1
  rw [scopes_newScope, if_neg (Nat.ne_of_lt hlt), h]

/-- Binding a name in a scope just made is making the scope with that binding. -/
theorem define_newScope (store : Store) (parent : Option ScopeId) (bindings : Bindings)
    (name : String) (value : Value) :
    (store.newScope parent bindings).2.define store.scopes.size name value =
      (store.newScope parent (bindings.set name value)).2 := by
  simp only [define, newScope, Store.mk.injEq, and_true]
  refine Array.ext_getElem? fun id => ?_
  rw [Array.getElem?_modify, Array.getElem?_push, Array.getElem?_push]
  by_cases h : id = store.scopes.size
  · simp [h]
  · simp [h, Ne.symm h]

@[simp] theorem size_newScope (store : Store) (parent : Option ScopeId) (bindings : Bindings) :
    (store.newScope parent bindings).2.scopes.size = store.scopes.size + 1 := by
  simp [newScope]

/-- What is found under a name is the value that a scope outwards gives it.  If all scopes outwards
have a property, then that scope has it. -/
theorem exists_get?_of_lookup {store : Store} {P : ScopeId → Prop}
    (hparent : ∀ (id : ScopeId) (scope : Scope), P id → store.scopes[id]? = some scope →
      ∀ parent, scope.parent = some parent → P parent)
    {e : ScopeId} (he : P e) {name : String} {value : Value}
    (h : store.lookup e name = some value) : ∃ (id : ScopeId) (scope : Scope), P id ∧
      store.scopes[id]? = some scope ∧ scope.bindings.get? name = some value := by
  have key : ∀ steps e, P e → store.lookupWithin name steps e = some value →
      ∃ (id : ScopeId) (scope : Scope), P id ∧ store.scopes[id]? = some scope ∧
        scope.bindings.get? name = some value := by
    intro steps
    induction steps with
    | zero => intro e _ h; cases h
    | succ steps ih =>
      intro e he h
      rw [lookupWithin] at h
      split at h
      · cases h
      · next scope hscope =>
        split at h
        · next found hfound =>
          cases h
          exact ⟨e, scope, he, hscope, hfound⟩
        · split at h
          · next parent hp => exact ih parent (hparent e scope he hscope parent hp) h
          · cases h
  exact key (e + 1) e he h

/-- What is found under a name is bound in a scope outwards. -/
theorem exists_mem_of_lookup {store : Store} {P : ScopeId → Prop}
    (hparent : ∀ (id : ScopeId) (scope : Scope), P id → store.scopes[id]? = some scope →
      ∀ parent, scope.parent = some parent → P parent)
    {e : ScopeId} (he : P e) {name : String} {value : Value}
    (h : store.lookup e name = some value) : ∃ (id : ScopeId) (scope : Scope), P id ∧
      store.scopes[id]? = some scope ∧ (name, value) ∈ scope.bindings := by
  obtain ⟨id, scope, hid, hscope, hvalue⟩ := exists_get?_of_lookup hparent he h
  exact ⟨id, scope, hid, hscope, Bindings.mem_of_get?_eq_some hvalue⟩

/-- A name that is bound in a scope is found there. -/
theorem lookup_define_self (store : Store) {e : ScopeId} (he : e < store.scopes.size)
    (name : String) (value : Value) : (store.define e name value).lookup e name = some value := by
  rw [lookup, lookupWithin, scopes_define, Array.getElem?_eq_getElem he]
  simp only [Option.map_some, ↓reduceIte, Bindings.get?_set_self]

/-- A name that a new scope binds is found there. -/
theorem lookup_newScope_self {bindings : Bindings} {name : String} {value : Value}
    (h : bindings.get? name = some value) (store : Store) (parent : Option ScopeId) :
    (store.newScope parent bindings).2.lookup store.scopes.size name = some value := by
  rw [lookup, lookupWithin, scopes_newScope, if_pos rfl]
  simp only [h]

/-- All values that are bound in scopes have a property. -/
def Holds (P : Value → Prop) (store : Store) : Prop :=
  ∀ (id : ScopeId) (scope : Scope), store.scopes[id]? = some scope →
    ∀ binding ∈ scope.bindings, P binding.2

namespace Holds

variable {P Q : Value → Prop} {s : Store}

theorem mono (h : s.Holds P) (hPQ : ∀ x, P x → Q x) : s.Holds Q :=
  fun id scope hscope binding hbinding => hPQ _ (h id scope hscope binding hbinding)

theorem define (h : s.Holds P) {x : Value} (hx : P x) (e : ScopeId) (name : String) :
    (s.define e name x).Holds P := by
  intro id scope hscope binding hbinding
  rw [scopes_define, Option.map_eq_some_iff] at hscope
  obtain ⟨old, hold, rfl⟩ := hscope
  split at hbinding
  · rcases Bindings.mem_set hbinding with rfl | hmem
    · exact hx
    · exact h id old hold binding hmem
  · exact h id old hold binding hbinding

theorem newScope (h : s.Holds P) {bindings : Bindings}
    (hbindings : ∀ binding ∈ bindings, P binding.2)
    (parent : Option ScopeId) : (s.newScope parent bindings).2.Holds P := by
  intro id scope hscope binding hbinding
  rw [scopes_newScope] at hscope
  split at hscope
  · cases hscope
    exact hbindings binding hbinding
  · exact h id scope hscope binding hbinding

/-- The scope of a call binds nothing but arguments. -/
theorem enter (h : s.Holds P) {values : List Value} (hvalues : ∀ x ∈ values, P x)
    (parent : Option ScopeId) (parameters : List String) :
    (s.newScope parent (.ofArguments parameters values)).2.Holds P :=
  h.newScope
    (fun _ hbinding => hvalues _ (List.of_mem_zip (Bindings.mem_ofArguments hbinding)).2) parent

/-- What is found under a name is bound in some scope. -/
theorem lookup (h : s.Holds P) {e : ScopeId} {name : String} {x : Value}
    (hx : s.lookup e name = some x) : P x := by
  obtain ⟨id, scope, -, hscope, hmem⟩ :=
    exists_mem_of_lookup (P := fun _ => True) (fun _ _ _ _ _ _ => trivial) trivial hx
  exact h id scope hscope _ hmem

end Holds

end Store

/-! ## Scopes with other values -/

section

variable (f : Value → Value)

/-- The same names bound to the images of their values. -/
def Bindings.mapValues (bindings : Bindings) : Bindings :=
  bindings.map fun binding => (binding.1, f binding.2)

/-- The same scope with the images of its values. -/
def Scope.mapValues (scope : Scope) : Scope :=
  { scope with bindings := scope.bindings.mapValues f }

/-- The same scopes with the images of their values. -/
def Store.mapValues (store : Store) : Store :=
  { store with scopes := store.scopes.map (Scope.mapValues f) }

namespace Bindings

theorem get?_mapValues (name : String) (bindings : Bindings) :
    (bindings.mapValues f).get? name = (bindings.get? name).map f := by
  induction bindings with
  | nil => rfl
  | cons binding rest ih =>
    simp only [mapValues] at ih
    simp only [mapValues, List.map_cons, get?, ih]
    split <;> rfl

theorem mapValues_set (name : String) (value : Value) (bindings : Bindings) :
    (bindings.set name value).mapValues f = (bindings.mapValues f).set name (f value) := by
  induction bindings with
  | nil => rfl
  | cons binding rest ih =>
    simp only [mapValues] at ih
    simp only [mapValues, List.map_cons, set]
    split
    · rfl
    · simp only [List.map_cons, ih]

theorem mapValues_ofArguments (parameters : List String) (arguments : List Value) :
    (ofArguments parameters arguments).mapValues f = ofArguments parameters (arguments.map f) := by
  -- The bindings made so far have been changed already.
  have key : ∀ (pairs : List (String × Value)) (done : Bindings),
      (pairs.foldl (fun bindings pair => set pair.1 pair.2 bindings) done).mapValues f =
        (pairs.map fun pair => (pair.1, f pair.2)).foldl
          (fun bindings pair => set pair.1 pair.2 bindings) (done.mapValues f) := by
    intro pairs
    induction pairs with
    | nil => exact fun _ => rfl
    | cons pair pairs ih =>
      intro done
      simp only [List.foldl_cons, List.map_cons, ih, mapValues_set]
  rw [ofArguments, key, ofArguments, List.zip_map_right]
  rfl

end Bindings

namespace Store

@[simp] theorem size_mapValues (store : Store) :
    (store.mapValues f).scopes.size = store.scopes.size := by
  simp [mapValues]

theorem scopes_mapValues (store : Store) (id : ScopeId) :
    (store.mapValues f).scopes[id]? = (store.scopes[id]?).map (Scope.mapValues f) := by
  simp [mapValues]

theorem mapValues_define (store : Store) (e : ScopeId) (name : String) (value : Value) :
    (store.define e name value).mapValues f = (store.mapValues f).define e name (f value) := by
  simp only [mapValues, define, mk.injEq, and_true]
  refine Array.ext_getElem? fun id => ?_
  simp only [Array.getElem?_map, Array.getElem?_modify]
  by_cases h : e = id
  · simp [h, Scope.mapValues, Bindings.mapValues_set, Function.comp_def]
  · simp [h]

theorem mapValues_newScope (store : Store) (parent : Option ScopeId) (bindings : Bindings) :
    ((store.newScope parent bindings).2).mapValues f =
      ((store.mapValues f).newScope parent (bindings.mapValues f)).2 := by
  simp [mapValues, newScope, Scope.mapValues]

theorem lookup_mapValues (store : Store) (e : ScopeId) (name : String) :
    (store.mapValues f).lookup e name = (store.lookup e name).map f := by
  have key : ∀ steps e, (store.mapValues f).lookupWithin name steps e =
      (store.lookupWithin name steps e).map f := by
    intro steps
    induction steps with
    | zero => exact fun _ => rfl
    | succ steps ih =>
      intro e
      simp only [lookupWithin, scopes_mapValues]
      cases store.scopes[e]? with
      | none => rfl
      | some scope =>
        simp only [Option.map_some, Scope.mapValues, Bindings.get?_mapValues]
        cases scope.bindings.get? name with
        | some value => rfl
        | none => cases scope.parent with
          | none => rfl
          | some parent => exact ih parent
  exact key (e + 1) e

end Store

end

end Rinha
