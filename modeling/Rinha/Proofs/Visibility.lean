import Rinha.Proofs.Plan
import Rinha.Proofs.Scopes

/-!
# Which lookups a definition changes

Scopes are shared: many scopes may hang off one, so that to bind a name in a scope can change what
is found from any number of others.  A search goes from a scope outwards, along the chain of the
scopes around it, and ends at the first that binds the name.  So a definition changes exactly those
searches for its name that get as far as its scope, and all of them find the new value.

## Main definitions

* `Store.chain_eq` -- a chain is a scope, and then the chain of the scope that it hangs off.
* `Store.lookup_eq_get?_flatMap_chain` -- a search takes the first match along the chain.
* `Store.Visible` -- a search for a name from one scope gets as far as another one.
* `Store.lookup_define_of_visible`, `Store.lookup_define_of_not_visible` -- what a search finds
  after a definition.
-/

namespace Rinha

namespace Bindings

/-- The first match in one row of bindings and then another. -/
theorem get?_append (name : String) (bindings rest : Bindings) :
    get? name (bindings ++ rest) = (get? name bindings).or (get? name rest) := by
  induction bindings with
  | nil => simp [get?]
  | cons binding bindings ih =>
    by_cases h : binding.1 = name
    · simp [get?, h]
    · simp [get?, h, ih]

end Bindings

namespace Store

variable {s : Store} {e f : ScopeId} {name : String}

/-! ## Chains -/

/-- If scopes hang off older ones, then a chain is complete after as many steps as its first scope
has older ones, and itself. -/
theorem chainWithin_eq_of_lt (hs : s.WellFormed) {steps steps' e : Nat}
    (h : e < steps) (h' : e < steps') : s.chainWithin steps e = s.chainWithin steps' e := by
  induction steps generalizing steps' e with
  | zero => exact absurd h (Nat.not_lt_zero e)
  | succ steps ih =>
    obtain ⟨steps', rfl⟩ : ∃ n, steps' = n + 1 := ⟨steps' - 1, by omega⟩
    simp only [chainWithin]
    cases hscope : s.scopes[e]? with
    | none => rfl
    | some scope =>
      cases hparent : scope.parent with
      | none => simp [hparent]
      | some parent =>
        have holder : parent < e := hs e scope hscope parent hparent
        have hrest : s.chainWithin steps parent = s.chainWithin steps' parent :=
          ih (Nat.lt_of_lt_of_le holder (Nat.le_of_lt_succ h))
            (Nat.lt_of_lt_of_le holder (Nat.le_of_lt_succ h'))
        simp [hparent, hrest]

/-- A chain is a scope, and then the chain of the scope that it hangs off. -/
theorem chain_eq (hs : s.WellFormed) {scope : Scope} (hscope : s.scopes[e]? = some scope) :
    s.chain e = e :: scope.parent.elim [] s.chain := by
  rw [chain, chainWithin]
  cases hparent : scope.parent with
  | none => simp [hscope, hparent]
  | some parent =>
    have holder : parent < e := hs e scope hscope parent hparent
    have hrest : s.chainWithin e parent = s.chain parent :=
      chainWithin_eq_of_lt hs holder (Nat.lt_succ_self parent)
    simp [hscope, hparent, hrest]

/-- A definition leaves every chain as it is. -/
theorem chain_define (s : Store) (e : ScopeId) (name : String) (value : Value) (f : ScopeId) :
    (s.define e name value).chain f = s.chain f := by
  have key : ∀ steps f, (s.define e name value).chainWithin steps f = s.chainWithin steps f := by
    intro steps
    induction steps with
    | zero => exact fun _ => rfl
    | succ steps ih =>
      intro f
      simp only [chainWithin, scopes_define]
      cases s.scopes[f]? with
      | none => rfl
      | some scope =>
        -- The scope hangs off the same one, whether or not it is that of the definition.
        have hparent : (if e = f then { scope with bindings := scope.bindings.set name value }
            else scope).parent = scope.parent := by
          split <;> rfl
        simp only [Option.map_some, hparent, ih]
  exact key (f + 1) f

/-- A search takes the first match in the bindings along the chain, innermost first. -/
theorem lookup_eq_get?_flatMap_chain (s : Store) (e : ScopeId) (name : String) :
    s.lookup e name = Bindings.get? name ((s.chain e).flatMap s.bindings) := by
  have key : ∀ steps e,
      s.lookupWithin name steps e =
        Bindings.get? name ((s.chainWithin steps e).flatMap s.bindings) := by
    intro steps
    induction steps with
    | zero => exact fun _ => rfl
    | succ steps ih =>
      intro e
      simp only [lookupWithin, chainWithin]
      cases hscope : s.scopes[e]? with
      | none => rfl
      | some scope =>
        have hbindings : s.bindings e = scope.bindings := by simp only [bindings, hscope]
        cases hparent : scope.parent with
        | none =>
          simp only [hparent, List.flatMap_cons, List.flatMap_nil, List.append_nil, hbindings]
          cases scope.bindings.get? name <;> rfl
        | some parent =>
          simp only [hparent, List.flatMap_cons, Bindings.get?_append, hbindings, ih]
          cases scope.bindings.get? name <;> rfl
  exact key (e + 1) e

/-! ## Searches that get as far as a scope -/

/-- The search for a name from a scope gets as far as another one, which stands on its chain: no
scope of the chain before that one binds the name. -/
def Visible (s : Store) (name : String) (e f : ScopeId) : Prop :=
  ∃ inner outer, s.chain f = inner ++ e :: outer ∧
    ∀ id ∈ inner, (s.bindings id).get? name = none

/-- Visibility is decided by going along the chain. -/
instance (s : Store) (name : String) (e f : ScopeId) : Decidable (s.Visible name e f) :=
  decidable_of_iff (∃ n, n < (s.chain f).length ∧ (s.chain f)[n]? = some e ∧
      ∀ id ∈ (s.chain f).take n, ((s.bindings id).get? name).isNone) <| by
    constructor
    · rintro ⟨n, hn, he, hinner⟩
      refine ⟨(s.chain f).take n, (s.chain f).drop (n + 1), ?_, by simpa using hinner⟩
      obtain rfl : (s.chain f)[n] = e := by
        rwa [List.getElem?_eq_getElem hn, Option.some.injEq] at he
      rw [List.getElem_cons_drop, List.take_append_drop]
    · rintro ⟨inner, outer, hchain, hinner⟩
      refine ⟨inner.length, ?_, ?_, ?_⟩
      · simp [hchain]
      · simp [hchain]
      · simpa [hchain] using hinner

/-- What a search gets as far as, and what is bound there, is found. -/
theorem Visible.lookup (h : s.Visible name e f) {value : Value}
    (hvalue : (s.bindings e).get? name = some value) : s.lookup f name = some value := by
  obtain ⟨inner, outer, hchain, hinner⟩ := h
  rw [lookup_eq_get?_flatMap_chain, hchain]
  clear hchain
  induction inner with
  | nil => simp [Bindings.get?_append, hvalue]
  | cons id inner ih =>
    obtain ⟨hid, hinner⟩ := List.forall_mem_cons.1 hinner
    simpa [Bindings.get?_append, hid] using ih hinner

/-! ## The bindings of a scope after a definition -/

theorem bindings_define_self (he : e < s.scopes.size) (name : String) (value : Value) :
    (s.define e name value).bindings e = (s.bindings e).set name value := by
  have hscope : s.scopes[e]? = some s.scopes[e] := Array.getElem?_eq_getElem he
  simp only [bindings, scopes_define, hscope, Option.map_some, ↓reduceIte]

theorem bindings_define_of_ne {id : ScopeId} (h : id ≠ e) (name : String) (value : Value) :
    (s.define e name value).bindings id = s.bindings id := by
  simp only [bindings, scopes_define, if_neg (Ne.symm h)]
  cases s.scopes[id]? <;> rfl

/-- A definition leaves the values of other names in all scopes as they are. -/
theorem get?_bindings_define_of_ne {other : String} (h : other ≠ name) (value : Value)
    (id : ScopeId) :
    ((s.define e name value).bindings id).get? other = (s.bindings id).get? other := by
  by_cases hid : id = e
  · subst hid
    by_cases hlt : id < s.scopes.size
    · rw [bindings_define_self hlt, Bindings.get?_set_of_ne h]
    · have hnone : s.scopes[id]? = none := Array.getElem?_eq_none (Nat.le_of_not_lt hlt)
      simp only [bindings, scopes_define, hnone, Option.map_none]
  · rw [bindings_define_of_ne hid]

/-! ## Searches after a definition -/

/-- Where the search for a name gets as far as the scope of its definition, it finds the value. -/
theorem lookup_define_of_visible (he : e < s.scopes.size) (h : s.Visible name e f)
    (value : Value) : (s.define e name value).lookup f name = some value := by
  obtain ⟨inner, outer, hchain, hinner⟩ := h
  rw [lookup_eq_get?_flatMap_chain, chain_define, hchain]
  clear hchain
  induction inner with
  | nil => simp [Bindings.get?_append, bindings_define_self he, Bindings.get?_set_self]
  | cons id inner ih =>
    obtain ⟨hid, hinner⟩ := List.forall_mem_cons.1 hinner
    by_cases hsame : id = e
    · simp [Bindings.get?_append, hsame, bindings_define_self he, Bindings.get?_set_self]
    · simpa [Bindings.get?_append, bindings_define_of_ne hsame, hid] using ih hinner

/-- Every other search finds what it found before. -/
theorem lookup_define_of_not_visible {other : String}
    (h : ¬ (other = name ∧ s.Visible name e f)) (value : Value) :
    (s.define e name value).lookup f other = s.lookup f other := by
  rw [lookup_eq_get?_flatMap_chain, lookup_eq_get?_flatMap_chain, chain_define]
  by_cases hname : other = name
  · subst hname
    have hvisible : ¬ ∃ inner outer, s.chain f = inner ++ e :: outer ∧
        ∀ id ∈ inner, (s.bindings id).get? other = none := fun hvisible => h ⟨rfl, hvisible⟩
    -- As long as no scope of the chain binds the name, none is that of the definition.
    generalize s.chain f = ids at hvisible
    induction ids with
    | nil => rfl
    | cons id ids ih =>
      have hid : id ≠ e := by
        rintro rfl
        exact hvisible ⟨[], ids, rfl, by simp⟩
      simp only [List.flatMap_cons, Bindings.get?_append, bindings_define_of_ne hid]
      cases hget : (s.bindings id).get? other with
      | some found => rfl
      | none =>
        refine congrArg _ (ih ?_)
        rintro ⟨inner, outer, rfl, hinner⟩
        exact hvisible ⟨id :: inner, outer, rfl, List.forall_mem_cons.2 ⟨hget, hinner⟩⟩
  · induction s.chain f with
    | nil => rfl
    | cons id ids ih =>
      simp only [List.flatMap_cons, Bindings.get?_append, get?_bindings_define_of_ne hname, ih]

end Store

/-- **What a definition changes.**  In a store whose scopes hang off older ones, binding a name in a
scope always succeeds.  Then the name has the new value in every scope on whose chain that scope
stands with no scope before it that binds the name; every other lookup finds the value that it found
before, or fails as it did before.  Any lookup takes the first match in the bindings along the chain
of its scope, innermost first, and the chain is the scope and then the chain of the scope that it
hangs off. -/
theorem definition_changes_visible (m : Machine) (hm : m.store.WellFormed) (e f : ScopeId)
    (he : e < m.store.scopes.size) (name other : String) (value : Value) :
    ∃ m', Run.define e name value m = .ok () m' ∧
      (other = name ∧ m.store.Visible name e f → Run.lookup f other m' = .ok value m') ∧
      (¬ (other = name ∧ m.store.Visible name e f) →
        (∃ x, Run.lookup f other m = .ok x m ∧ Run.lookup f other m' = .ok x m') ∨
        (Run.lookup f other m = .error (.unlocated (.unboundVariable other)) m ∧
          Run.lookup f other m' = .error (.unlocated (.unboundVariable other)) m')) ∧
      (Run.lookup f other m =
        match Bindings.get? other ((m.store.chain f).flatMap m.store.bindings) with
        | some x => .ok x m
        | none => .error (.unlocated (.unboundVariable other)) m) ∧
      ∀ scope, m.store.scopes[f]? = some scope →
        m.store.chain f = f :: scope.parent.elim [] m.store.chain := by
  refine ⟨{ m with store := m.store.define e name value }, rfl, ?_, ?_, ?_, ?_⟩
  · rintro ⟨rfl, hvisible⟩
    rw [Run.lookup_apply, Store.lookup_define_of_visible he hvisible]
  · intro hother
    rw [Run.lookup_apply, Run.lookup_apply, Store.lookup_define_of_not_visible hother]
    cases m.store.lookup f other with
    | some x => exact .inl ⟨x, rfl, rfl⟩
    | none => exact .inr ⟨rfl, rfl⟩
  · have hlookup := Run.lookup_apply f other m
    rw [Store.lookup_eq_get?_flatMap_chain] at hlookup
    exact hlookup
  · intro scope hscope
    exact Store.chain_eq hm hscope

/-- Four scopes, of which the second and the third hang off the first and the fourth off the third.
The first and the third bind a name.  A definition in the first is seen from the second, and not
from the fourth. -/
theorem definition_changes_visible_shadowed :
    let bound (value : Int) : Bindings := [("a", .int value)]
    let m : Machine :=
      { store := { scopes := #[⟨none, bound 1⟩, ⟨some 0, []⟩, ⟨some 0, bound 2⟩, ⟨some 2, []⟩] } }
    ∃ m', Run.define 0 "a" (.int 9) m = .ok () m' ∧
      Run.lookup 1 "a" m' = .ok (.int 9) m' ∧ Run.lookup 3 "a" m' = .ok (.int 2) m' := by
  intro bound m
  have hm : m.store.WellFormed := by
    intro id scope hscope parent hparent
    rcases id with _ | _ | _ | _ | id
    · cases hscope; cases hparent
    · cases hscope; cases hparent; decide
    · cases hscope; cases hparent; decide
    · cases hscope; cases hparent; decide
    · simp [m] at hscope
  obtain ⟨m', hdefine, hnew, -⟩ := definition_changes_visible m hm 0 1 (by decide) "a" "a" (.int 9)
  obtain ⟨m'', hdefine', -, hold, -⟩ :=
    definition_changes_visible m hm 0 3 (by decide) "a" "a" (.int 9)
  rw [hdefine] at hdefine'
  cases hdefine'
  refine ⟨m', hdefine, hnew (by decide), ?_⟩
  rcases hold (by decide) with ⟨x, hbefore, hafter⟩ | ⟨hbefore, -⟩
  · cases hbefore
    exact hafter
  · cases hbefore

end Rinha
