import Mathlib.Data.List.Forall2
import Mathlib.Data.PEquiv
import Rinha.Proofs.Scopes
import Rinha.Proofs.Values

/-!
# Corresponding stores

Two stores can hold the same scopes and closures under different numbers, next to others that have
no counterpart.  A correspondence says which of them stand for each other, one to one.  It matches
two stores if corresponding scopes hang off corresponding scopes and give every name corresponding
values.  Then it covers everything that can be reached from scopes that it covers, through enclosing
scopes and through the closures in bindings.

The operations of the store keep two stores matched.  What they make anew in both is added to the
correspondence.

## Main definitions

* `Correspondence` -- partial bijections of scopes and of the identities of closures.
* `Value.Matches`, `Scope.Matches`, `Store.Matches` -- what is the same up to a correspondence.
* `Operator.apply_eq_of_matches` -- operators cannot tell corresponding operands apart.
* `Store.Reaches`, `Store.Matches.covers` -- what can be reached, and that it is covered.
-/

namespace Rinha

/-- Which scopes and which closures of two stores stand for each other, one to one. -/
structure Correspondence where
  scopes : ScopeId ≃. ScopeId
  closures : Nat ≃. Nat

namespace Correspondence

/-- A correspondence extends another if it has all its pairs. -/
instance : Preorder Correspondence :=
  Preorder.lift fun c => (c.scopes, c.closures)

/-- Nothing corresponds. -/
def empty : Correspondence := ⟨⊥, ⊥⟩

/-- The correspondence seen from the other store. -/
def symm (c : Correspondence) : Correspondence := ⟨c.scopes.symm, c.closures.symm⟩

variable {c c' : Correspondence}

theorem mem_scopes_of_le (h : c ≤ c') {e e' : ScopeId} (he : e' ∈ c.scopes e) :
    e' ∈ c'.scopes e :=
  h.1 e e' he

theorem mem_closures_of_le (h : c ≤ c') {id id' : Nat} (hid : id' ∈ c.closures id) :
    id' ∈ c'.closures id :=
  h.2 id id' hid

/-- What is paired is the same on one side exactly if it is on the other. -/
theorem eq_iff_of_mem {f : Nat ≃. Nat} {a a' b b' : Nat} (ha : a' ∈ f a) (hb : b' ∈ f b) :
    a = b ↔ a' = b' := by
  constructor
  · rintro rfl
    exact Option.mem_unique ha hb
  · rintro rfl
    exact f.inj ha hb

/-- A partial bijection with one more pair, of numbers greater than all that are paired. -/
def extend (f : Nat ≃. Nat) (n n' : Nat) (h : ∀ a b, b ∈ f a → a < n ∧ b < n') : Nat ≃. Nat where
  toFun a := if a = n then some n' else f a
  invFun b := if b = n' then some n else f.symm b
  inv a b := by
    by_cases ha : a = n
    · by_cases hb : b = n'
      · simp [ha, hb]
      · have hnot : ¬ f n = some b := fun hf => Nat.lt_irrefl n (h n b hf).1
        simp [ha, hb, Ne.symm hb, f.eq_some_iff, hnot]
    · by_cases hb : b = n'
      · have hnot : ¬ f a = some n' := fun hf => Nat.lt_irrefl n' (h a n' hf).2
        simp [ha, hb, Ne.symm ha, hnot]
      · simp [ha, hb, f.eq_some_iff]

theorem mem_extend {f : Nat ≃. Nat} {n n' : Nat} (h : ∀ a b, b ∈ f a → a < n ∧ b < n')
    {a b : Nat} : b ∈ extend f n n' h a ↔ a = n ∧ b = n' ∨ b ∈ f a := by
  have happly : extend f n n' h a = if a = n then some n' else f a := rfl
  rw [happly]
  by_cases ha : a = n
  · have hnot : ¬ b ∈ f n := fun hf => Nat.lt_irrefl n (h n b hf).1
    simp [ha, hnot, eq_comm]
  · simp [ha]

/-- One more pair of scopes. -/
def withScope (c : Correspondence) (n n' : ScopeId)
    (h : ∀ e e', e' ∈ c.scopes e → e < n ∧ e' < n') : Correspondence :=
  { c with scopes := extend c.scopes n n' h }

/-- One more pair of closures. -/
def withClosure (c : Correspondence) (n n' : Nat)
    (h : ∀ id id', id' ∈ c.closures id → id < n ∧ id' < n') : Correspondence :=
  { c with closures := extend c.closures n n' h }

theorem le_withScope {n n' : ScopeId} (h : ∀ e e', e' ∈ c.scopes e → e < n ∧ e' < n') :
    c ≤ c.withScope n n' h :=
  ⟨fun _ _ he => (mem_extend h).2 (.inr he), le_refl c.closures⟩

theorem le_withClosure {n n' : Nat} (h : ∀ id id', id' ∈ c.closures id → id < n ∧ id' < n') :
    c ≤ c.withClosure n n' h :=
  ⟨le_refl c.scopes, fun _ _ hid => (mem_extend h).2 (.inr hid)⟩

end Correspondence

/-! ## Values -/

namespace Value

/-- Values that are the same up to a correspondence. -/
inductive Matches (c : Correspondence) : Value → Value → Prop
  | int (value : Int) : Matches c (.int value) (.int value)
  | str (value : String) : Matches c (.str value) (.str value)
  | bool (value : Bool) : Matches c (.bool value) (.bool value)
  | tuple {a a' b b' : Value} :
    Matches c a a' → Matches c b b' → Matches c (.tuple a b) (.tuple a' b')
  | closure {id id' : Nat} {captured captured' : ScopeId} (parameters : List String) (body : Node) :
    id' ∈ c.closures id → captured' ∈ c.scopes captured →
    Matches c (.closure id parameters body captured) (.closure id' parameters body captured')
  | foreign (tag : String) (payload : Json) :
    Matches c (.foreign tag payload) (.foreign tag payload)

namespace Matches

variable {c c' : Correspondence} {x x' y y' : Value}

theorem mono (hc : c ≤ c') (h : x.Matches c x') : x.Matches c' x' := by
  induction h with
  | int value => exact .int value
  | str value => exact .str value
  | bool value => exact .bool value
  | tuple _ _ iha ihb => exact .tuple iha ihb
  | closure parameters body hid hcaptured =>
    exact .closure parameters body (Correspondence.mem_closures_of_le hc hid)
      (Correspondence.mem_scopes_of_le hc hcaptured)
  | foreign tag payload => exact .foreign tag payload

theorem symm (h : x.Matches c x') : x'.Matches c.symm x := by
  induction h with
  | int value => exact .int value
  | str value => exact .str value
  | bool value => exact .bool value
  | tuple _ _ iha ihb => exact .tuple iha ihb
  | closure parameters body hid hcaptured =>
    exact .closure parameters body (c.closures.mem_iff_mem.2 hid) (c.scopes.mem_iff_mem.2 hcaptured)
  | foreign tag payload => exact .foreign tag payload

theorem tag_eq (h : x.Matches c x') : x.tag = x'.tag := by
  cases h <;> rfl

theorem isTruthy_eq (h : x.Matches c x') : x.isTruthy = x'.isTruthy := by
  cases h <;> rfl

theorem display_eq (h : x.Matches c x') : x.display = x'.display := by
  induction h with
  | tuple _ _ iha ihb => simp only [display, iha, ihb]
  | _ => rfl

theorem printed_eq (h : x.Matches c x') : x.printed = x'.printed := by
  simp only [printed, h.display_eq]

/-- Equality looks at closures by their identities, which are paired one to one. -/
theorem equal_eq (hx : x.Matches c x') (hy : y.Matches c y') : x.equal y = x'.equal y' := by
  induction hx generalizing y y' with
  | tuple _ _ iha ihb =>
    cases hy with
    | tuple hc hd => simp only [equal, iha hc, ihb hd]
    | _ => rfl
  | closure parameters body hid _ =>
    cases hy with
    | closure _ _ hid' _ =>
      simp only [equal, Bool.beq_eq_decide_eq, Correspondence.eq_iff_of_mem hid hid']
    | _ => rfl
  | _ => cases hy <;> rfl

end Matches

variable {c : Correspondence} {x x' : Value}

/-- A value of any other type corresponds to itself only. -/
theorem Matches.eq_of_tag (h : x.Matches c x') (htag : x.tag ∉ compound) : x = x' := by
  cases h <;> simp [tag, compound] at htag ⊢

theorem matches_self (c : Correspondence) (htag : x.tag ∉ compound) : x.Matches c x := by
  cases x with
  | int value => exact .int value
  | str value => exact .str value
  | bool value => exact .bool value
  | tuple a b => simp [tag, compound] at htag
  | closure id parameters body captured => simp [tag, compound] at htag
  | foreign tag payload => exact .foreign tag payload

end Value

/-! ## Operators -/

section

variable {c : Correspondence} {x x' y y' : Value}

theorem Value.Matches.resembles (h : x.Matches c x') : x.Resembles x' :=
  ⟨h.tag_eq, h.display_eq, h.eq_of_tag⟩

/-- Operators give the same for corresponding operands. -/
theorem Operator.apply_eq_of_matches (op : Operator) (hx : x.Matches c x') (hy : y.Matches c y') :
    op.apply x y = op.apply x' y' :=
  op.apply_eq_of_resembles hx.resembles hy.resembles (hx.equal_eq hy)

end

/-! ## Scopes and stores -/

section

variable {α β : Type} {r : α → β → Prop} {a : Option α} {b : Option β}

theorem optionRel_mono {q : α → β → Prop} (h : ∀ x y, r x y → q x y) (hab : Option.Rel r a b) :
    Option.Rel q a b := by
  cases hab with
  | none => exact .none
  | some hxy => exact .some (h _ _ hxy)

theorem optionRel_symm {q : β → α → Prop} (h : ∀ x y, r x y → q y x) (hab : Option.Rel r a b) :
    Option.Rel q b a := by
  cases hab with
  | none => exact .none
  | some hxy => exact .some (h _ _ hxy)

theorem optionRel_cases (hab : Option.Rel r a b) :
    (a = none ∧ b = none) ∨ ∃ x y, a = some x ∧ b = some y ∧ r x y := by
  cases hab with
  | none => exact .inl ⟨rfl, rfl⟩
  | some hxy => exact .inr ⟨_, _, rfl, rfl, hxy⟩

end

/-- Bindings that give every name corresponding values, or none. -/
def Bindings.Matches (c : Correspondence) (b b' : Bindings) : Prop :=
  ∀ name, Option.Rel (Value.Matches c) (b.get? name) (b'.get? name)

namespace Bindings.Matches

variable {c c' : Correspondence} {b b' : Bindings}

theorem mono (hc : c ≤ c') (h : b.Matches c b') : b.Matches c' b' :=
  fun name => optionRel_mono (fun _ _ => Value.Matches.mono hc) (h name)

theorem symm (h : b.Matches c b') : b'.Matches c.symm b :=
  fun name => optionRel_symm (fun _ _ => Value.Matches.symm) (h name)

theorem nil (c : Correspondence) : Bindings.Matches c [] [] :=
  fun _ => .none

theorem set (h : b.Matches c b') (name : String) {x x' : Value} (hx : x.Matches c x') :
    (b.set name x).Matches c (b'.set name x') := by
  intro other
  by_cases hn : other = name
  · subst hn
    rw [get?_set_self, get?_set_self]
    exact .some hx
  · rw [get?_set_of_ne hn, get?_set_of_ne hn]
    exact h other

theorem ofArguments (parameters : List String) {values values' : List Value}
    (h : List.Forall₂ (Value.Matches c) values values') :
    (Bindings.ofArguments parameters values).Matches c
      (Bindings.ofArguments parameters values') := by
  -- The bindings made so far match, whatever they are.
  have key : ∀ done done' : Bindings, done.Matches c done' → Bindings.Matches c
      ((parameters.zip values).foldl (fun bindings pair => bindings.set pair.1 pair.2) done)
      ((parameters.zip values').foldl (fun bindings pair => bindings.set pair.1 pair.2) done') := by
    induction h generalizing parameters with
    | nil => simp
    | cons hx _ ih =>
      intro done done' hdone
      cases parameters with
      | nil => exact hdone
      | cons parameter parameters => exact ih parameters _ _ (hdone.set parameter hx)
  exact key [] [] (nil c)

end Bindings.Matches

/-- Scopes that hang off corresponding scopes, if any, and bind the same names to corresponding
values.  Both are younger than what they hang off. -/
structure Scope.Matches (c : Correspondence) (id id' : ScopeId) (scope scope' : Scope) : Prop where
  parent : Option.Rel (fun p p' => p' ∈ c.scopes p ∧ p < id ∧ p' < id') scope.parent scope'.parent
  bindings : scope.bindings.Matches c scope'.bindings

namespace Scope.Matches

variable {c c' : Correspondence} {id id' : ScopeId} {scope scope' : Scope}

theorem mono (hc : c ≤ c') (h : scope.Matches c id id' scope') : scope.Matches c' id id' scope' :=
  ⟨optionRel_mono (fun _ _ hp => ⟨Correspondence.mem_scopes_of_le hc hp.1, hp.2⟩) h.parent,
    h.bindings.mono hc⟩

theorem symm (h : scope.Matches c id id' scope') : scope'.Matches c.symm id' id scope :=
  ⟨optionRel_symm (fun _ _ hp => ⟨c.scopes.mem_iff_mem.2 hp.1, hp.2.2, hp.2.1⟩) h.parent,
    h.bindings.symm⟩

end Scope.Matches

/-- Corresponding scopes are scopes of the stores and match, and corresponding closures have
identities that the stores have handed out. -/
structure Store.Matches (c : Correspondence) (s s' : Store) : Prop where
  scopes : ∀ (id id' : ScopeId), id' ∈ c.scopes id → ∃ scope scope' : Scope,
    s.scopes[id]? = some scope ∧ s'.scopes[id']? = some scope' ∧ scope.Matches c id id' scope'
  closures : ∀ id id', id' ∈ c.closures id → id < s.nextClosure ∧ id' < s'.nextClosure

namespace Store.Matches

variable {c : Correspondence} {s s' : Store} {e e' : ScopeId}

theorem symm (h : s.Matches c s') : s'.Matches c.symm s where
  scopes id id' hid := by
    obtain ⟨scope, scope', hscope, hscope', hmatch⟩ := h.scopes id' id (c.scopes.mem_iff_mem.1 hid)
    exact ⟨scope', scope, hscope', hscope, hmatch.symm⟩
  closures id id' hid := (h.closures id' id (c.closures.mem_iff_mem.1 hid)).symm

/-- Any two stores match if nothing in them corresponds. -/
theorem empty (s s' : Store) : s.Matches .empty s' :=
  ⟨fun _ _ h => (Option.not_mem_none _ h).elim, fun _ _ h => (Option.not_mem_none _ h).elim⟩

theorem lt_size (h : s.Matches c s') (id id' : ScopeId) (hid : id' ∈ c.scopes id) :
    id < s.scopes.size ∧ id' < s'.scopes.size := by
  obtain ⟨scope, scope', hscope, hscope', -⟩ := h.scopes id id' hid
  exact ⟨(Array.getElem?_eq_some_iff.1 hscope).1, (Array.getElem?_eq_some_iff.1 hscope').1⟩

/-- Corresponding values are bound to one name in corresponding scopes. -/
theorem define (h : s.Matches c s') (he : e' ∈ c.scopes e) (name : String) {x x' : Value}
    (hx : x.Matches c x') : (s.define e name x).Matches c (s'.define e' name x') where
  scopes id id' hid := by
    obtain ⟨scope, scope', hscope, hscope', hmatch⟩ := h.scopes id id' hid
    rw [scopes_define, scopes_define, hscope, hscope']
    refine ⟨_, _, rfl, rfl, ?_⟩
    -- The name is bound in both of the scopes, or in neither of them.
    simp only [Correspondence.eq_iff_of_mem he hid]
    split
    · exact ⟨hmatch.parent, hmatch.bindings.set name hx⟩
    · exact hmatch
  closures := h.closures

/-- New closures over corresponding scopes correspond from then on. -/
theorem newClosure (h : s.Matches c s') (he : e' ∈ c.scopes e) (parameters : List String)
    (body : Node) : ∃ c', c ≤ c' ∧
      (s.newClosure parameters body e).1.Matches c' (s'.newClosure parameters body e').1 ∧
      (s.newClosure parameters body e).2.Matches c' (s'.newClosure parameters body e').2 := by
  have hc := Correspondence.le_withClosure h.closures
  refine ⟨c.withClosure _ _ h.closures, hc, ?_, ?_, ?_⟩
  · exact .closure parameters body ((Correspondence.mem_extend h.closures).2 (.inl ⟨rfl, rfl⟩)) he
  · intro id id' hid
    obtain ⟨scope, scope', hscope, hscope', hmatch⟩ := h.scopes id id' hid
    exact ⟨scope, scope', hscope, hscope', hmatch.mono hc⟩
  · intro id id' hid
    rcases (Correspondence.mem_extend h.closures).1 hid with ⟨rfl, rfl⟩ | hid
    · exact ⟨Nat.lt_succ_self _, Nat.lt_succ_self _⟩
    · exact (h.closures id id' hid).imp Nat.lt_succ_of_lt Nat.lt_succ_of_lt

/-- New scopes off corresponding ones, if any, correspond from then on. -/
theorem newScope (h : s.Matches c s') {parent parent' : Option ScopeId}
    (hparent : Option.Rel (fun p p' => p' ∈ c.scopes p) parent parent') {b b' : Bindings}
    (hb : b.Matches c b') : ∃ c', c ≤ c' ∧ s'.scopes.size ∈ c'.scopes s.scopes.size ∧
      (s.newScope parent b).2.Matches c' (s'.newScope parent' b').2 := by
  have hc := Correspondence.le_withScope h.lt_size
  refine ⟨c.withScope _ _ h.lt_size, hc, (Correspondence.mem_extend h.lt_size).2 (.inl ⟨rfl, rfl⟩),
    ?_, h.closures⟩
  intro id id' hid
  rcases (Correspondence.mem_extend h.lt_size).1 hid with ⟨rfl, rfl⟩ | hid
  · rw [scopes_newScope, scopes_newScope, if_pos rfl, if_pos rfl]
    refine ⟨_, _, rfl, rfl, optionRel_mono (fun p p' hp => ?_) hparent, hb.mono hc⟩
    exact ⟨Correspondence.mem_scopes_of_le hc hp, h.lt_size p p' hp⟩
  · obtain ⟨scope, scope', hscope, hscope', hmatch⟩ := h.scopes id id' hid
    exact ⟨scope, scope', scopes_newScope_of_eq_some hscope parent b,
      scopes_newScope_of_eq_some hscope' parent' b', hmatch.mono hc⟩

/-- A name has corresponding values in corresponding scopes, or none. -/
theorem lookup (h : s.Matches c s') (he : e' ∈ c.scopes e) (name : String) :
    Option.Rel (Value.Matches c) (s.lookup e name) (s'.lookup e' name) := by
  -- The scopes outwards are ever older on both sides, so that both searches have steps enough.
  have key : ∀ n n', e ≤ n → e' ≤ n' → Option.Rel (Value.Matches c)
      (s.lookupWithin name (n + 1) e) (s'.lookupWithin name (n' + 1) e') := by
    induction e using Nat.strong_induction_on generalizing e' with
    | _ e ih =>
      intro n n' hn hn'
      obtain ⟨scope, scope', hscope, hscope', hmatch⟩ := h.scopes e e' he
      simp only [lookupWithin, hscope, hscope']
      rcases optionRel_cases (hmatch.bindings name) with ⟨hx, hx'⟩ | ⟨x, x', hx, hx', hxx'⟩
      · rcases optionRel_cases hmatch.parent with ⟨hp, hp'⟩ | ⟨p, p', hp, hp', hpp', hlt, hlt'⟩
        · simp only [hx, hx', hp, hp']
          exact .none
        · simp only [hx, hx', hp, hp']
          obtain ⟨k, rfl⟩ := Nat.exists_eq_add_of_lt (Nat.lt_of_lt_of_le hlt hn)
          obtain ⟨k', rfl⟩ := Nat.exists_eq_add_of_lt (Nat.lt_of_lt_of_le hlt' hn')
          exact ih p hlt hpp' (p + k) (p' + k') (Nat.le_add_right ..) (Nat.le_add_right ..)
      · simp only [hx, hx']
        exact .some hxx'
  exact key e e' (Nat.le_refl e) (Nat.le_refl e')

end Store.Matches

/-! ## What can be reached -/

/-- The scopes that the closures in a value captured. -/
def Value.captured : Value → List ScopeId
  | .int _ | .str _ | .bool _ | .foreign .. => []
  | .tuple a b => a.captured ++ b.captured
  | .closure _ _ _ scope => [scope]

/-- The scopes that can be reached from a scope: through what a scope hangs off, and through the
closures that it binds, also as parts of pairs. -/
inductive Store.Reaches (s : Store) (e : ScopeId) : ScopeId → Prop
  | here : Reaches s e e
  | parent {id p : ScopeId} {scope : Scope} :
    Reaches s e id → s.scopes[id]? = some scope → scope.parent = some p → Reaches s e p
  | captured {id p : ScopeId} {scope : Scope} {name : String} {x : Value} :
    Reaches s e id → s.scopes[id]? = some scope → scope.bindings.get? name = some x →
    p ∈ x.captured → Reaches s e p

/-- A correspondence pairs all that can be reached from one scope with all that can be reached from
another. -/
structure Correspondence.Covers (c : Correspondence) (s s' : Store) (e e' : ScopeId) : Prop where
  forth : ∀ id, s.Reaches e id → ∃ id', id' ∈ c.scopes id ∧ s'.Reaches e' id'
  back : ∀ id', s'.Reaches e' id' → ∃ id, id' ∈ c.scopes id ∧ s.Reaches e id

variable {c : Correspondence}

theorem Value.Matches.captured {x x' : Value} (h : x.Matches c x') {p : ScopeId}
    (hp : p ∈ x.captured) : ∃ p', p' ∈ c.scopes p ∧ p' ∈ x'.captured := by
  induction h with
  | int | str | bool | foreign => exact absurd hp List.not_mem_nil
  | tuple _ _ iha ihb =>
    rcases List.mem_append.1 hp with hp | hp
    · obtain ⟨p', hpp', hp'⟩ := iha hp
      exact ⟨p', hpp', List.mem_append_left _ hp'⟩
    · obtain ⟨p', hpp', hp'⟩ := ihb hp
      exact ⟨p', hpp', List.mem_append_right _ hp'⟩
  | closure parameters body _ hcaptured =>
    obtain rfl := List.mem_singleton.1 hp
    exact ⟨_, hcaptured, List.mem_singleton.2 rfl⟩

namespace Store.Matches

variable {s s' : Store} {e e' : ScopeId}

theorem reaches (h : s.Matches c s') (he : e' ∈ c.scopes e) {id : ScopeId} (hid : s.Reaches e id) :
    ∃ id', id' ∈ c.scopes id ∧ s'.Reaches e' id' := by
  induction hid with
  | here => exact ⟨e', he, .here⟩
  | parent _ hscope hparent ih =>
    obtain ⟨id', hid', hreach⟩ := ih
    obtain ⟨old, scope', hold, hscope', hmatch⟩ := h.scopes _ _ hid'
    obtain rfl : _ = old := Option.some.inj (hscope.symm.trans hold)
    rcases optionRel_cases hmatch.parent with ⟨hp, -⟩ | ⟨p, p', hp, hp', hpp', -⟩
    · exact absurd (hparent.symm.trans hp) (by simp)
    · obtain rfl := Option.some.inj (hparent.symm.trans hp)
      exact ⟨p', hpp', .parent hreach hscope' hp'⟩
  | @captured _ _ _ name _ _ hscope hx hp ih =>
    obtain ⟨id', hid', hreach⟩ := ih
    obtain ⟨old, scope', hold, hscope', hmatch⟩ := h.scopes _ _ hid'
    obtain rfl : _ = old := Option.some.inj (hscope.symm.trans hold)
    rcases optionRel_cases (hmatch.bindings name) with ⟨hnone, -⟩ | ⟨x, x', hy, hx', hxx'⟩
    · exact absurd (hx.symm.trans hnone) (by simp)
    · obtain rfl := Option.some.inj (hx.symm.trans hy)
      obtain ⟨p', hpp', hp'⟩ := hxx'.captured hp
      exact ⟨p', hpp', .captured hreach hscope' hx' hp'⟩

/-- If two stores match, then all that can be reached from corresponding scopes corresponds. -/
theorem covers (h : s.Matches c s') (he : e' ∈ c.scopes e) : c.Covers s s' e e' where
  forth _ hid := h.reaches he hid
  back id' hid' := by
    obtain ⟨id, hid, hreach⟩ := h.symm.reaches (c.scopes.mem_iff_mem.2 he) hid'
    exact ⟨id, c.scopes.mem_iff_mem.1 hid, hreach⟩

end Store.Matches

end Rinha
