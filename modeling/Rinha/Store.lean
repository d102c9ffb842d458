import Rinha.Value

/-!
# Scopes

Names are bound in scopes.  A scope may hang off an enclosing one, and a name that it does not bind
is looked up there.  Scopes are mutable, shared by the closures created in them and never given up,
so they live in a store, which numbers them in the order of their creation.  The store also hands
out the identities of closures.

## Main definitions

* `Bindings` -- the names bound in one scope, in the order in which they were first bound.
* `Scope`, `Store` -- a scope, and all scopes so far.
* `Store.newScope`, `Store.define`, `Store.lookup`, `Store.newClosure` -- the operations.
* `Store.chain` -- a scope and those around it, innermost first.
* `Store.WellFormed` -- every enclosing scope is older than the scope that hangs off it.
-/

namespace Rinha

/-- The names bound in one scope, in the order in which they were first bound. -/
abbrev Bindings := List (String × Value)

namespace Bindings

/-- The value bound to a name. -/
def get? (name : String) : Bindings → Option Value
  | [] => none
  | (bound, value) :: rest => if bound == name then some value else get? name rest

/-- Binds a name: in its place if it is bound already, at the end otherwise. -/
def set (name : String) (value : Value) : Bindings → Bindings
  | [] => [(name, value)]
  | (bound, old) :: rest =>
    if bound == name then (bound, value) :: rest else (bound, old) :: set name value rest

/-- The bindings of parameters to arguments, made first to last, so that the last of several
parameters of one name counts. -/
def ofArguments (parameters : List String) (arguments : List Value) : Bindings :=
  (parameters.zip arguments).foldl (fun bindings pair => set pair.1 pair.2 bindings) []

theorem get?_set_self (name : String) (value : Value) (bindings : Bindings) :
    get? name (set name value bindings) = some value := by
  induction bindings with
  | nil => simp [set, get?]
  | cons binding rest ih =>
    by_cases h : binding.1 = name
    · simp [set, get?, h]
    · simp [set, get?, h, ih]

theorem get?_set_of_ne {name other : String} (h : other ≠ name) (value : Value)
    (bindings : Bindings) : get? other (set name value bindings) = get? other bindings := by
  induction bindings with
  | nil => simp [set, get?, Ne.symm h]
  | cons binding rest ih =>
    by_cases hn : binding.1 = name
    · simp [set, get?, hn, Ne.symm h]
    · by_cases ho : binding.1 = other <;> simp [set, get?, hn, ho, ih, h]

end Bindings

/-- A scope: the names that it binds, and the scope that it hangs off. -/
structure Scope where
  parent : Option ScopeId
  bindings : Bindings
  deriving Inhabited

/-- All scopes so far, numbered in the order of their creation, and the next closure's identity. -/
structure Store where
  scopes : Array Scope := #[]
  nextClosure : Nat := 0
  deriving Inhabited

namespace Store

/-- A new scope with the given bindings, and the store that has it. -/
def newScope (store : Store) (parent : Option ScopeId) (bindings : Bindings) : ScopeId × Store :=
  (store.scopes.size, { store with scopes := store.scopes.push ⟨parent, bindings⟩ })

/-- Binds a name in a scope, replacing the binding that the scope has for it. -/
def define (store : Store) (id : ScopeId) (name : String) (value : Value) : Store :=
  { store with scopes := store.scopes.modify id fun scope =>
      { scope with bindings := scope.bindings.set name value } }

/-- The value of a name in a scope or the nearest one around it that binds it, among the first
`steps` scopes from there outwards. -/
def lookupWithin (store : Store) (name : String) : Nat → ScopeId → Option Value
  | 0, _ => none
  | steps + 1, id =>
    match store.scopes[id]? with
    | none => none
    | some scope =>
      match scope.bindings.get? name with
      | some value => some value
      | none =>
        match scope.parent with
        | some parent => store.lookupWithin name steps parent
        | none => none

/-- The value of a name in a scope or the nearest one around it that binds it.  Scopes outwards are
ever older, so there are at most as many of them as the scope's number says. -/
def lookup (store : Store) (id : ScopeId) (name : String) : Option Value :=
  store.lookupWithin name (id + 1) id

/-- A new closure over a scope, and the store in which its identity is taken. -/
def newClosure (store : Store) (parameters : List String) (body : Node) (scope : ScopeId) :
    Value × Store :=
  (.closure store.nextClosure parameters body scope,
    { store with nextClosure := store.nextClosure + 1 })

/-- A scope and the scopes around it, innermost first, as far as `steps` of them. -/
def chainWithin (store : Store) : Nat → ScopeId → List ScopeId
  | 0, _ => []
  | steps + 1, id =>
    match store.scopes[id]? with
    | none => []
    | some scope =>
      match scope.parent with
      | some parent => id :: store.chainWithin steps parent
      | none => [id]

/-- A scope and the scopes around it, innermost first. -/
def chain (store : Store) (id : ScopeId) : List ScopeId :=
  store.chainWithin (id + 1) id

/-- The bindings of a scope; a scope that does not exist has none. -/
def bindings (store : Store) (id : ScopeId) : Bindings :=
  match store.scopes[id]? with
  | some scope => scope.bindings
  | none => []

/-- Every enclosing scope is older than the scope that hangs off it. -/
def WellFormed (store : Store) : Prop :=
  ∀ (id : ScopeId) (scope : Scope), store.scopes[id]? = some scope →
    ∀ parent, scope.parent = some parent → parent < id

end Store

end Rinha
