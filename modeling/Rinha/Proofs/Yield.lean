import Rinha.Proofs.DepthLimit
import Rinha.Proofs.Validity

/-!
# The rules as what plans yield

A plan yields a result, given what nodes yield.  In scopes of valid stores, what nodes yield by the
rules of the language is the least relation that has everything the plans of nodes yield from it.
So a comparison of evaluation with the rules need not look at the kinds of node again.

## Main definitions

* `Halt.unplaced` -- a reason to stop, without a location.
* `Plan.Yields` -- what a plan yields, given what nodes yield.
* `derives_of_yields` -- what a plan yields from what the rules derive, the rules derive.
* `Derives.least` -- what is closed under plans has everything that the rules derive.
-/

namespace Rinha

namespace Halt

/-- A reason to stop, without the location of the node at fault. -/
def unplaced : Halt → Halt
  | .error e _ => .error e none
  | halt => halt

@[simp] theorem unplaced_within (location : Option Location) (halt : Halt) :
    (halt.within location).unplaced = halt.unplaced := by
  rcases halt with ⟨e, _ | l⟩ | _ | _ | _ | _ <;> rfl

@[simp] theorem isLimit_unplaced (halt : Halt) : halt.unplaced.isLimit = halt.isLimit := by
  rcases halt with ⟨e, l⟩ | _ | _ | _ | _
  · cases e <;> rfl
  all_goals rfl

end Halt

/-! ## What plans yield -/

/-- What nodes yield: in a scope of a store, a result, a text printed and a store left. -/
abbrev Yielding := Node → ScopeId → Store → Except Halt Value → String → Store → Prop

namespace Plan

variable {D : Yielding} {e : ScopeId} {s s' : Store} {r : Except Halt Value} {o : String}

/-- What a plan yields in a scope, given what nodes yield. -/
def Yields (D : Yielding) (e : ScopeId) :
    Plan → Store → Except Halt Value → String → Store → Prop
  | done (.ok value), s, r, o, s' => r = .ok value ∧ o = "" ∧ s' = s
  | done (.error halt), s, r, o, s' =>
    r = .error halt.unplaced ∧ ¬ halt.isLimit ∧ o = "" ∧ s' = s
  | write text rest, s, r, o, s' => ∃ o₁, rest.Yields D e s r o₁ s' ∧ o = text ++ o₁
  | define name value rest, s, r, o, s' => rest.Yields D e (s.define e name value) r o s'
  | fetch name, s, r, o, s' =>
    r = (match s.lookup e name with
      | some value => .ok value
      | none => .error (.unlocated (.unboundVariable name))) ∧ o = "" ∧ s' = s
  | close parameters body, s, r, o, s' =>
    r = .ok (s.newClosure parameters body e).1 ∧ o = "" ∧ s' = (s.newClosure parameters body e).2
  | child node rest, s, r, o, s' =>
    (∃ halt, r = .error halt ∧ D node e s (.error halt) o s') ∨
    ∃ x o₁ s₁ o₂, D node e s (.ok x) o₁ s₁ ∧ (rest x).Yields D e s₁ r o₂ s' ∧ o = o₁ ++ o₂
  | enter _ parameters body captured values, s, r, o, s' =>
    D body s.scopes.size (s.newScope (some captured) (.ofArguments parameters values)).2 r o s'

theorem yields_ok (D : Yielding) (e : ScopeId) (x : Value) (s : Store) :
    (done (.ok x)).Yields D e s (.ok x) "" s :=
  ⟨rfl, rfl, rfl⟩

theorem yields_fail (D : Yielding) (e : ScopeId) {cause : Error}
    (hcause : ¬ (Halt.unlocated cause).isLimit) (s : Store) :
    (fail cause).Yields D e s (.error (.unlocated cause)) "" s :=
  ⟨rfl, hcause, rfl, rfl⟩

theorem yields_last {node : Node} (h : D node e s r o s') : (last node).Yields D e s r o s' := by
  cases r with
  | error halt => exact .inl ⟨halt, rfl, h⟩
  | ok x => exact .inr ⟨x, o, s', "", h, yields_ok D e x s', by simp⟩

/-- One last child gives the result. -/
theorem yields_last_iff {node : Node} : (last node).Yields D e s r o s' ↔ D node e s r o s' := by
  refine ⟨?_, yields_last⟩
  rintro (⟨halt, rfl, h⟩ | ⟨x, o₁, s₁, o₂, h, ⟨rfl, rfl, rfl⟩, rfl⟩)
  · exact h
  · rw [String.append_empty]
    exact h

/-- A node that has a child that comes first evaluates it first. -/
theorem ofNode_of_head? {node head : Node} (h : node.head? = some head) :
    ∃ rest, ofNode node = child head rest := by
  cases node <;> cases h <;> exact ⟨_, rfl⟩

/-- A value that is not a function cannot be called. -/
theorem calling_of_not_isClosure (arguments : List Node) {x : Value} (h : ¬ x.IsClosure) :
    calling arguments x = fail (.notCallable x.tag) := by
  cases x with
  | closure id parameters body captured => exact absurd ⟨id, parameters, body, captured, rfl⟩ h
  | _ => rfl

/-- A value that is not a pair has no components. -/
theorem component_of_not_isTuple (name : String) (pick : Value → Value → Value) {x : Value}
    (h : ¬ x.IsTuple) : component name pick x = fail (.notATuple x.tag name) := by
  cases x with
  | tuple left right => exact absurd ⟨left, right, rfl⟩ h
  | _ => rfl

/-- An operator that always takes both operands evaluates both. -/
theorem ofNode_binary {op : Operator} (hand : op ≠ .and) (hor : op ≠ .or) (lhs rhs : Node)
    (l : Option Location) :
    ofNode (.binary op lhs rhs l) =
      child lhs fun x => child rhs fun y => done (op.apply x y) := by
  cases op with
  | and => exact absurd rfl hand
  | or => exact absurd rfl hor
  | _ => rfl

/-- What several children yield, in terms of the plans that come after them. -/
def YieldsAll (D : Yielding) (e : ScopeId) (nodes : List Node) (s : Store) :
    Except Halt (List Value) → String → Store → Prop
  | .error halt, o, s' => ∀ rest, (children nodes rest).Yields D e s (.error halt) o s'
  | .ok values, o, s' => ∀ rest r o' s'', (rest values).Yields D e s' r o' s'' →
    (children nodes rest).Yields D e s r (o ++ o') s''

/-- What an operator yields for two operands is neither located nor due to a limit. -/
theorem yields_applies_iff {op : Operator} {x y : Value} {result : Except Halt Value}
    (h : op.Applies x y result) :
    (done result).Yields D e s r o s' ↔ r = result ∧ o = "" ∧ s' = s := by
  cases h <;> simp [Yields, Halt.unlocated, Halt.unplaced, Halt.isLimit]

end Plan

/-! ## The rules as what plans yield -/

/-- A store after an evaluation that yields values: it is valid, it has all the scopes that there
were, and the values are valid in it. -/
structure Store.Keeps (s : Store) (values : List Value) (s' : Store) : Prop where
  store : s'.Valid
  grows : s.scopes.size ≤ s'.scopes.size
  values : ∀ x ∈ values, x.Valid s'.scopes.size

namespace Store.Keeps

variable {s s₁ s₂ : Store} {x : Value} {values : List Value} {e : ScopeId}

theorem nil (hs : s.Valid) : s.Keeps [] s :=
  ⟨hs, Nat.le_refl _, by simp⟩

theorem cons (h : s.Keeps [x] s₁) (h' : s₁.Keeps values s₂) : s.Keeps (x :: values) s₂ where
  store := h'.store
  grows := Nat.le_trans h.grows h'.grows
  values y hy := by
    rcases List.mem_cons.1 hy with rfl | hy
    · exact (h.values y (by simp)).mono h'.grows
    · exact h'.values y hy

theorem value (h : s.Keeps [x] s₁) : x.Valid s₁.scopes.size :=
  h.values x (by simp)

theorem scope (h : s.Keeps values s₁) (he : e < s.scopes.size) : e < s₁.scopes.size :=
  Nat.lt_of_lt_of_le he h.grows

end Store.Keeps

/-- What the rules derive in a scope of a valid store, which stays valid. -/
def Derivable : Yielding := fun node e s r o s' =>
  s.Valid → e < s.scopes.size → Derives node e s r o s' ∧ ∀ x, r = .ok x → s.Keeps [x] s'

theorem Value.isTruthy_eq_false_iff {x : Value} : x.isTruthy = false ↔ x = .bool false := by
  cases x <;> simp [isTruthy]

theorem Value.isTruthy_iff {x : Value} : x.isTruthy = true ↔ x ≠ .bool false := by
  rw [← Bool.not_eq_false, ne_eq, isTruthy_eq_false_iff]

section

variable {e : ScopeId} {s s' : Store} {r : Except Halt Value} {o : String}

/-- A plan that starts with a child follows the rules if it does so once the child has yielded a
value. -/
theorem derives_of_yields_child {node head : Node} {rest : Value → Plan}
    (h : (Plan.child head rest).Yields Derivable e s r o s') (hs : s.Valid)
    (he : e < s.scopes.size) (hhead : node.head? = some head)
    (hrest : ∀ x o₁ s₁ o₂, Derives head e s (.ok x) o₁ s₁ → s.Keeps [x] s₁ →
      (rest x).Yields Derivable e s₁ r o₂ s' → Derives node e s r (o₁ ++ o₂) s') :
    Derives node e s r o s' := by
  rcases h with ⟨halt, rfl, h⟩ | ⟨x, o₁, s₁, o₂, h, hyields, rfl⟩
  · exact .head hhead (h hs he).1
  · obtain ⟨hx, hkeeps⟩ := h hs he
    exact hrest x o₁ s₁ o₂ hx (hkeeps x rfl) hyields

/-- Children follow the rules for several nodes. -/
theorem derivesAll_of_yields {nodes : List Node} {rest : List Value → Plan}
    (h : (Plan.children nodes rest).Yields Derivable e s r o s') (hs : s.Valid)
    (he : e < s.scopes.size) :
    (∃ halt, r = .error halt ∧ DerivesAll nodes e s (.error halt) o s') ∨
    ∃ values o₁ s₁ o₂, DerivesAll nodes e s (.ok values) o₁ s₁ ∧ s.Keeps values s₁ ∧
      (rest values).Yields Derivable e s₁ r o₂ s' ∧ o = o₁ ++ o₂ := by
  induction nodes generalizing rest s o with
  | nil => exact .inr ⟨[], "", s, o, .nil, .nil hs, h, by simp⟩
  | cons node nodes ih =>
    rcases h with ⟨halt, rfl, h⟩ | ⟨x, o₁, s₁, o₂, h, hyields, rfl⟩
    · exact .inl ⟨halt, rfl, .head (h hs he).1⟩
    · obtain ⟨hx, hkeeps⟩ := h hs he
      have hkept := hkeeps x rfl
      rcases ih hyields hkept.store (hkept.scope he) with
        ⟨halt, rfl, hall⟩ | ⟨values, o₃, s₂, o₄, hall, hkept', hrest, rfl⟩
      · exact .inl ⟨halt, rfl, .tail hx hall⟩
      · exact .inr ⟨x :: values, o₁ ++ o₃, s₂, o₄, .cons hx hall, hkept.cons hkept', hrest,
          (String.append_assoc ..).symm⟩

/-- The scope of a call, made at once or name by name. -/
theorem Store.enter_eq (s : Store) (captured : ScopeId) (parameters : List String)
    (values : List Value) :
    s.enter captured parameters values =
      (s.newScope (some captured) (.ofArguments parameters values)).2 := by
  have key : ∀ (pairs : List (String × Value)) (bindings : Bindings),
      pairs.foldl (fun s' pair => s'.define s.scopes.size pair.1 pair.2)
          (s.newScope (some captured) bindings).2 =
        (s.newScope (some captured)
          (pairs.foldl (fun bindings pair => bindings.set pair.1 pair.2) bindings)).2 := by
    intro pairs
    induction pairs with
    | nil => intro bindings; rfl
    | cons pair pairs ih =>
      intro bindings
      rw [List.foldl_cons, List.foldl_cons, ← ih, define_newScope]
  exact key _ []

/-- What the plan of a call yields, the rules for calls derive. -/
theorem derives_call_of_yields {callee : Node} {arguments : List Node} {l : Option Location}
    (h : (Plan.ofNode (.call callee arguments l)).Yields Derivable e s r o s') (hs : s.Valid)
    (he : e < s.scopes.size) : Derives (.call callee arguments l) e s r o s' := by
  refine derives_of_yields_child h hs he rfl fun x o₁ s₁ o₂ hx hkept hrest => ?_
  by_cases hclosure : x.IsClosure
  · obtain ⟨id, parameters, body, captured, rfl⟩ := hclosure
    by_cases harity : arguments.length = parameters.length
    · rw [Plan.calling_of_length_eq harity] at hrest
      rcases derivesAll_of_yields hrest hkept.store (hkept.scope he) with
        ⟨halt, rfl, hall⟩ | ⟨values, o₃, s₂, o₄, hall, hkept', hbody, rfl⟩
      · exact .call_argument hx harity hall
      · have hcaptured : captured < s₂.scopes.size := hkept'.scope hkept.value
        have hentered := hkept'.store.enter hcaptured hkept'.values parameters
        refine .call hx harity hall ?_
        rw [Store.enter_eq]
        exact (hbody hentered (by simp)).1
    · rw [Plan.calling_of_length_ne harity] at hrest
      obtain ⟨rfl, -, rfl, rfl⟩ := hrest
      rw [String.append_empty]
      exact .call_arity hx harity
  · rw [Plan.calling_of_not_isClosure arguments hclosure] at hrest
    obtain ⟨rfl, -, rfl, rfl⟩ := hrest
    rw [String.append_empty]
    exact .call_other hx hclosure

/-- What the plan of an operator yields, the rules for operators derive. -/
theorem derives_binary_of_yields {op : Operator} {lhs rhs : Node} {l : Option Location}
    (h : (Plan.ofNode (.binary op lhs rhs l)).Yields Derivable e s r o s') (hs : s.Valid)
    (he : e < s.scopes.size) : Derives (.binary op lhs rhs l) e s r o s' := by
  by_cases hand : op = .and
  · subst hand
    refine derives_of_yields_child h hs he rfl fun x o₁ s₁ o₂ hx hkept hrest => ?_
    cases htruth : x.isTruthy with
    | true =>
      simp only [htruth, ↓reduceIte, Plan.yields_last_iff] at hrest
      exact .and_right hx (Value.isTruthy_iff.1 htruth) (hrest hkept.store (hkept.scope he)).1
    | false =>
      simp only [htruth, Bool.false_eq_true, ↓reduceIte] at hrest
      obtain ⟨rfl, rfl, rfl⟩ := hrest
      rw [Value.isTruthy_eq_false_iff.1 htruth] at hx ⊢
      rw [String.append_empty]
      exact .and_left hx
  by_cases hor : op = .or
  · subst hor
    refine derives_of_yields_child h hs he rfl fun x o₁ s₁ o₂ hx hkept hrest => ?_
    cases htruth : x.isTruthy with
    | true =>
      simp only [htruth, ↓reduceIte] at hrest
      obtain ⟨rfl, rfl, rfl⟩ := hrest
      rw [String.append_empty]
      exact .or_left hx (Value.isTruthy_iff.1 htruth)
    | false =>
      simp only [htruth, Bool.false_eq_true, ↓reduceIte, Plan.yields_last_iff] at hrest
      rw [Value.isTruthy_eq_false_iff.1 htruth] at hx
      exact .or_right hx (hrest hkept.store (hkept.scope he)).1
  rw [Plan.ofNode_binary hand hor] at h
  refine derives_of_yields_child h hs he rfl fun x o₁ s₁ o₂ hx hkept hrest => ?_
  rcases hrest with ⟨halt, rfl, hrhs⟩ | ⟨y, o₃, s₂, o₄, hrhs, hdone, rfl⟩
  · exact .binary_right hand hor hx (hrhs hkept.store (hkept.scope he)).1
  · obtain ⟨hy, hkeeps⟩ := hrhs hkept.store (hkept.scope he)
    have hkept' := hkeeps y rfl
    have happlies := Operator.applies_apply hand hor (hkept.value.mono hkept'.grows) hkept'.value
    obtain ⟨rfl, rfl, rfl⟩ := (Plan.yields_applies_iff happlies).1 hdone
    rw [String.append_empty]
    exact .binary hand hor hx hy happlies

/-- What the plan of a node yields, if its children follow the rules, the rules derive. -/
theorem derives_of_yields {node : Node} (h : (Plan.ofNode node).Yields Derivable e s r o s')
    (hs : s.Valid) (he : e < s.scopes.size) : Derives node e s r o s' := by
  cases node with
  | str value l =>
    obtain ⟨rfl, rfl, rfl⟩ := h
    exact .str
  | int value l =>
    obtain ⟨rfl, rfl, rfl⟩ := h
    exact .int
  | bool value l =>
    obtain ⟨rfl, rfl, rfl⟩ := h
    exact .bool
  | function parameters body l =>
    obtain ⟨rfl, rfl, rfl⟩ := h
    exact .function
  | var name l =>
    obtain ⟨hr, rfl, rfl⟩ := h
    cases hlookup : s'.lookup e name with
    | none =>
      simp only [hlookup] at hr
      exact hr ▸ .var_unbound ((Store.lookup_eq_none_iff hs.parents he).1 hlookup)
    | some x =>
      simp only [hlookup] at hr
      exact hr ▸ .var ((Store.lookup_eq_some_iff hs.parents he).1 hlookup)
  | print operand l =>
    refine derives_of_yields_child h hs he rfl fun x o₁ s₁ o₂ hx hkept hrest => ?_
    rcases Value.shows_or_unshowable hkept.value with ⟨text, htext⟩ | hnone
    · simp only [Value.printed, Value.display_of_shows htext] at hrest
      obtain ⟨o₃, ⟨rfl, rfl, rfl⟩, rfl⟩ := hrest
      simpa using Derives.print hx htext
    · simp only [Value.printed, Value.display_of_unshowable hnone] at hrest
      obtain ⟨rfl, -, rfl, rfl⟩ := hrest
      rw [String.append_empty]
      exact .print_refused hx hnone
  | letIn name operand next l =>
    refine derives_of_yields_child h hs he rfl fun x o₁ s₁ o₂ hx hkept hrest => ?_
    have hnext := Plan.yields_last_iff.1 hrest
    have hbound := hkept.store.define hkept.value e name
    exact .letIn hx (hnext hbound (by simpa using hkept.scope he)).1
  | cond condition then_ otherwise l =>
    refine derives_of_yields_child h hs he rfl fun x o₁ s₁ o₂ hx hkept hrest => ?_
    cases htruth : x.isTruthy with
    | true =>
      simp only [htruth, ↓reduceIte, Plan.yields_last_iff] at hrest
      exact .cond_then hx (Value.isTruthy_iff.1 htruth) (hrest hkept.store (hkept.scope he)).1
    | false =>
      simp only [htruth, Bool.false_eq_true, ↓reduceIte, Plan.yields_last_iff] at hrest
      rw [Value.isTruthy_eq_false_iff.1 htruth] at hx
      exact .cond_otherwise hx (hrest hkept.store (hkept.scope he)).1
  | call callee arguments l => exact derives_call_of_yields h hs he
  | binary op lhs rhs l => exact derives_binary_of_yields h hs he
  | tuple lhs rhs l =>
    refine derives_of_yields_child h hs he rfl fun x o₁ s₁ o₂ hx hkept hrest => ?_
    rcases hrest with ⟨halt, rfl, hrhs⟩ | ⟨y, o₃, s₂, o₄, hrhs, ⟨rfl, rfl, rfl⟩, rfl⟩
    · exact .tuple_right hx (hrhs hkept.store (hkept.scope he)).1
    · rw [String.append_empty]
      exact .tuple hx (hrhs hkept.store (hkept.scope he)).1
  | first operand l =>
    refine derives_of_yields_child h hs he rfl fun x o₁ s₁ o₂ hx hkept hrest => ?_
    by_cases htuple : x.IsTuple
    · obtain ⟨left, right, rfl⟩ := htuple
      obtain ⟨rfl, rfl, rfl⟩ := hrest
      rw [String.append_empty]
      exact .first hx
    · rw [Plan.component_of_not_isTuple _ _ htuple] at hrest
      obtain ⟨rfl, -, rfl, rfl⟩ := hrest
      rw [String.append_empty]
      exact .first_other hx htuple
  | second operand l =>
    refine derives_of_yields_child h hs he rfl fun x o₁ s₁ o₂ hx hkept hrest => ?_
    by_cases htuple : x.IsTuple
    · obtain ⟨left, right, rfl⟩ := htuple
      obtain ⟨rfl, rfl, rfl⟩ := hrest
      rw [String.append_empty]
      exact .second hx
    · rw [Plan.component_of_not_isTuple _ _ htuple] at hrest
      obtain ⟨rfl, -, rfl, rfl⟩ := hrest
      rw [String.append_empty]
      exact .second_other hx htuple

end

/-! ## The rules as the least such relation -/

/-- What nodes yield is closed if it has all that the plans of nodes yield from it, and keeps stores
valid. -/
structure Yielding.Closed (D : Yielding) : Prop where
  keeps : ∀ {node e s x o s'}, D node e s (.ok x) o s' → s.Valid → e < s.scopes.size →
    s.Keeps [x] s'
  of_yields : ∀ {node e s r o s'}, (Plan.ofNode node).Yields D e s r o s' → D node e s r o s'

mutual

/-- What is closed has all that the rules derive in scopes of valid stores. -/
theorem Derives.least {D : Yielding} (hD : D.Closed)
    {node : Node} {e : ScopeId} {s s' : Store} {r : Except Halt Value} {o : String}
    (h : Derives node e s r o s') (hs : s.Valid) (he : e < s.scopes.size) :
    D node e s r o s' := by
  -- By recursion on the derivation: the premises give what the children yield, and so the plan.
  apply hD.of_yields
  match h with
  | .str => exact Plan.yields_ok ..
  | .int => exact Plan.yields_ok ..
  | .bool => exact Plan.yields_ok ..
  | .function => exact ⟨rfl, rfl, rfl⟩
  | .var hx => simp [Plan.ofNode, Plan.Yields, (Store.lookup_eq_some_iff hs.parents he).2 hx]
  | .var_unbound hnone =>
    simp [Plan.ofNode, Plan.Yields, (Store.lookup_eq_none_iff hs.parents he).2 hnone]
  | .head hhead h =>
    obtain ⟨rest, hplan⟩ := Plan.ofNode_of_head? hhead
    rw [hplan]
    exact .inl ⟨_, rfl, h.least hD hs he⟩
  | .print h htext =>
    have hx := h.least hD hs he
    refine .inr ⟨_, _, _, _, hx, ?_, rfl⟩
    simp only [Value.printed, Value.display_of_shows htext]
    exact ⟨"", Plan.yields_ok .., (String.append_empty ..).symm⟩
  | .print_refused h hnone =>
    have hx := h.least hD hs he
    refine .inr ⟨_, _, _, "", hx, ?_, (String.append_empty ..).symm⟩
    simp only [Value.printed, Value.display_of_unshowable hnone]
    exact ⟨rfl, by simp [Halt.isLimit], rfl, rfl⟩
  | .letIn h hnext =>
    have hx := h.least hD hs he
    have hkept := hD.keeps hx hs he
    have hy := hnext.least hD (hkept.store.define hkept.value ..)
      (by simpa using hkept.scope he)
    exact .inr ⟨_, _, _, _, hx, Plan.yields_last hy, rfl⟩
  | .cond_then h htruth hthen =>
    have hx := h.least hD hs he
    have hkept := hD.keeps hx hs he
    have hy := hthen.least hD hkept.store (hkept.scope he)
    refine .inr ⟨_, _, _, _, hx, ?_, rfl⟩
    simp only [Value.isTruthy_iff.2 htruth, ↓reduceIte]
    exact Plan.yields_last hy
  | .cond_otherwise h hother =>
    have hx := h.least hD hs he
    have hkept := hD.keeps hx hs he
    have hy := hother.least hD hkept.store (hkept.scope he)
    exact .inr ⟨_, _, _, _, hx, Plan.yields_last hy, rfl⟩
  | .call h harity hall hbody =>
    have hx := h.least hD hs he
    have hkept := hD.keeps hx hs he
    obtain ⟨hkept', hvalues⟩ := hall.least hD hkept.store (hkept.scope he)
    have hkept' := hkept' _ rfl
    have hy := hbody.least hD
      (by
        rw [Store.enter_eq]
        exact hkept'.store.enter (hkept'.scope hkept.value) hkept'.values _)
      (by simp [Store.enter_eq])
    rw [Store.enter_eq] at hy
    refine .inr ⟨_, _, _, _, hx, ?_, rfl⟩
    rw [Plan.calling_of_length_eq harity]
    exact hvalues _ _ _ _ hy
  | .call_argument h harity hall =>
    have hx := h.least hD hs he
    have hkept := hD.keeps hx hs he
    have hvalues := (hall.least hD hkept.store (hkept.scope he)).2
    refine .inr ⟨_, _, _, _, hx, ?_, rfl⟩
    rw [Plan.calling_of_length_eq harity]
    exact hvalues _
  | .call_arity h harity =>
    have hx := h.least hD hs he
    refine .inr ⟨_, _, _, "", hx, ?_, (String.append_empty ..).symm⟩
    rw [Plan.calling_of_length_ne harity]
    exact Plan.yields_fail _ _ (by simp [Halt.isLimit, Halt.unlocated]) _
  | .call_other h hclosure =>
    have hx := h.least hD hs he
    refine .inr ⟨_, _, _, "", hx, ?_, (String.append_empty ..).symm⟩
    rw [Plan.calling_of_not_isClosure _ hclosure]
    exact Plan.yields_fail _ _ (by simp [Halt.isLimit, Halt.unlocated]) _
  | .and_left h =>
    have hx := h.least hD hs he
    exact .inr ⟨_, _, _, "", hx, Plan.yields_ok .., (String.append_empty ..).symm⟩
  | .and_right h htruth hrhs =>
    have hx := h.least hD hs he
    have hkept := hD.keeps hx hs he
    have hy := hrhs.least hD hkept.store (hkept.scope he)
    refine .inr ⟨_, _, _, _, hx, ?_, rfl⟩
    simp only [Value.isTruthy_iff.2 htruth, ↓reduceIte]
    exact Plan.yields_last hy
  | .or_left h htruth =>
    have hx := h.least hD hs he
    refine .inr ⟨_, _, _, "", hx, ?_, (String.append_empty ..).symm⟩
    simp only [Value.isTruthy_iff.2 htruth, ↓reduceIte]
    exact Plan.yields_ok ..
  | .or_right h hrhs =>
    have hx := h.least hD hs he
    have hkept := hD.keeps hx hs he
    have hy := hrhs.least hD hkept.store (hkept.scope he)
    exact .inr ⟨_, _, _, _, hx, Plan.yields_last hy, rfl⟩
  | @Derives.binary op _ _ _ _ _ x _ _ y _ _ _ hand hor h hrhs happlies =>
    have hx := h.least hD hs he
    have hkept := hD.keeps hx hs he
    have hy := hrhs.least hD hkept.store (hkept.scope he)
    have hkept' := hD.keeps hy hkept.store (hkept.scope he)
    have hdone : (Plan.done (op.apply x y)).Yields D e s' r "" s' := by
      rw [Operator.apply_eq_of_applies (hkept.value.mono hkept'.grows) hkept'.value happlies]
      exact (Plan.yields_applies_iff happlies).2 ⟨rfl, rfl, rfl⟩
    rw [Plan.ofNode_binary hand hor]
    exact .inr ⟨_, _, _, _, hx, .inr ⟨_, _, _, "", hy, hdone, (String.append_empty ..).symm⟩, rfl⟩
  | .binary_right hand hor h hrhs =>
    have hx := h.least hD hs he
    have hkept := hD.keeps hx hs he
    have hy := hrhs.least hD hkept.store (hkept.scope he)
    rw [Plan.ofNode_binary hand hor]
    exact .inr ⟨_, _, _, _, hx, .inl ⟨_, rfl, hy⟩, rfl⟩
  | .tuple h hrhs =>
    have hx := h.least hD hs he
    have hkept := hD.keeps hx hs he
    have hy := hrhs.least hD hkept.store (hkept.scope he)
    exact .inr ⟨_, _, _, _, hx, .inr ⟨_, _, _, "", hy, Plan.yields_ok .., by simp⟩, rfl⟩
  | .tuple_right h hrhs =>
    have hx := h.least hD hs he
    have hkept := hD.keeps hx hs he
    have hy := hrhs.least hD hkept.store (hkept.scope he)
    exact .inr ⟨_, _, _, _, hx, .inl ⟨_, rfl, hy⟩, rfl⟩
  | .first h =>
    have hx := h.least hD hs he
    exact .inr ⟨_, _, _, "", hx, Plan.yields_ok .., (String.append_empty ..).symm⟩
  | .first_other h htuple =>
    have hx := h.least hD hs he
    refine .inr ⟨_, _, _, "", hx, ?_, (String.append_empty ..).symm⟩
    rw [Plan.component_of_not_isTuple _ _ htuple]
    exact Plan.yields_fail _ _ (by simp [Halt.isLimit, Halt.unlocated]) _
  | .second h =>
    have hx := h.least hD hs he
    exact .inr ⟨_, _, _, "", hx, Plan.yields_ok .., (String.append_empty ..).symm⟩
  | .second_other h htuple =>
    have hx := h.least hD hs he
    refine .inr ⟨_, _, _, "", hx, ?_, (String.append_empty ..).symm⟩
    rw [Plan.component_of_not_isTuple _ _ htuple]
    exact Plan.yields_fail _ _ (by simp [Halt.isLimit, Halt.unlocated]) _

/-- The same for several nodes. -/
theorem DerivesAll.least {D : Yielding} (hD : D.Closed)
    {nodes : List Node} {e : ScopeId} {s s' : Store} {r : Except Halt (List Value)} {o : String}
    (h : DerivesAll nodes e s r o s') (hs : s.Valid) (he : e < s.scopes.size) :
    (∀ values, r = .ok values → s.Keeps values s') ∧ Plan.YieldsAll D e nodes s r o s' := by
  match h with
  | .nil =>
    refine ⟨?_, ?_⟩
    · rintro _ ⟨rfl⟩
      exact .nil hs
    · intro rest r o' s'' hrest
      rwa [String.empty_append]
  | .cons h hall =>
    have hx := h.least hD hs he
    have hkept := hD.keeps hx hs he
    obtain ⟨hkept', hvalues⟩ := hall.least hD hkept.store (hkept.scope he)
    refine ⟨?_, ?_⟩
    · rintro _ ⟨rfl⟩
      exact hkept.cons (hkept' _ rfl)
    · intro rest r o' s'' hrest
      exact .inr ⟨_, _, _, _, hx, hvalues _ _ _ _ hrest, String.append_assoc ..⟩
  | .head h =>
    have hx := h.least hD hs he
    exact ⟨by simp, fun rest => .inl ⟨_, rfl, hx⟩⟩
  | .tail h hall =>
    have hx := h.least hD hs he
    have hkept := hD.keeps hx hs he
    have hvalues := (hall.least hD hkept.store (hkept.scope he)).2
    exact ⟨by simp, fun rest => .inr ⟨_, _, _, _, hx, hvalues _, rfl⟩⟩

end

end Rinha
