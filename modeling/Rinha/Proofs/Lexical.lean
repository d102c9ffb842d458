import Mathlib.Data.List.Forall2
import Rinha.Proofs.History
import Rinha.Proofs.Validity

/-!
# Scoping is lexical

In every run of a program, the scopes around the scope in which a node is evaluated belong one by
one to the functions around the node in the program, and the outermost scope to the program itself.
Each of them binds only parameters of its function and names of let nodes in its body.
So a closure is over as many scopes as there are functions around the function that it was made of,
and one more, whichever way it went since.

## Main definitions

* `Node.Occurs` -- a node stands in a program under given functions.
* `Store.Chained` -- a scope and those around it bind names of given functions only.
* `Made` -- a closure was made by a visit, over as many scopes as there are functions around.
* `Lexical` -- the invariant of runs.
* `trackProgram_tracks` -- every run keeps it.
-/

namespace Rinha

/-! ## Nodes in a program and scopes in a store -/

/-- A node stands in a program under given functions, innermost first. -/
inductive Node.Occurs (root : Node) : List Enclosure → Node → Prop
  | root : Occurs root [] root
  | child {around : List Enclosure} {node child : Node} : Occurs root around node →
    child ∈ node.children → Occurs root around child
  | body {around : List Enclosure} {parameters : List String} {body : Node}
    {location : Option Location} : Occurs root around (.function parameters body location) →
    Occurs root (⟨parameters, body⟩ :: around) body

/-- The names that a scope may bind that belongs to the innermost of some functions: if there is
none, it is that of the program. -/
def Node.scopeNames (root : Node) : List Enclosure → List String
  | [] => root.letNames
  | f :: _ => f.names

/-- What a node binds in its scope is among the names of the scope. -/
theorem Node.Occurs.letNames_subset {root node : Node} {around : List Enclosure}
    (h : root.Occurs around node) : node.letNames ⊆ root.scopeNames around := by
  induction h with
  | root => exact List.Subset.refl _
  | child _ hchild ih => exact List.Subset.trans (letNames_subset_of_mem_children hchild) ih
  | body => exact List.subset_append_right ..

/-- A scope and those around it are as many as the functions and one more, and each binds only names
of its function, the outermost only those of the program. -/
def Store.Chained (s : Store) (root : Node) (around : List Enclosure) (e : ScopeId) : Prop :=
  List.Forall₂ (fun id names => ∀ binding ∈ s.bindings id, binding.1 ∈ names) (s.chain e)
    (around.map Enclosure.names ++ [root.letNames])

theorem Store.Chained.length_eq {s : Store} {root : Node} {around : List Enclosure} {e : ScopeId}
    (h : s.Chained root around e) : (s.chain e).length = around.length + 1 := by
  simpa using List.Forall₂.length_eq h

/-- A closure was made of a function by a visit, over the scope of the visit, and there is one scope
more there than there are functions around that function. -/
def Made (h : History) (s : Store) : ClosureProperty := fun id parameters body captured =>
  ∃ visit ∈ h.visits, h.origins id = some visit ∧
    (∃ location, visit.node = .function parameters body location) ∧ visit.scope = captured ∧
    (s.chain captured).length = visit.around.length + 1

/-- All closures that are bound in scopes from a given one on were made by visits. -/
def Store.BindsMade (s : Store) (base : ScopeId) (h : History) : Prop :=
  ∀ id scope, base ≤ id → s.scopes[id]? = some scope →
    ∀ binding ∈ scope.bindings, binding.2.All (Made h s)

/-! ## The invariant -/

section

variable {root : Node} {base : ScopeId} {h h' h'' : History} {s s' s'' : Store}

/-- A closure was made by a visit, over a scope of the run that belongs to the functions around the
function that was visited. -/
structure Known (base : ScopeId) (h : History) (s : Store) (id : Nat) (parameters : List String)
    (body : Node) (captured : ScopeId) : Prop where
  since : base ≤ captured
  before : captured < s.scopes.size
  visit : ∃ visit ∈ h.visits, h.origins id = some visit ∧
    (∃ location, visit.node = .function parameters body location) ∧ visit.scope = captured ∧
    h.owners captured = visit.around

/-- A scope binds names of its function only, and hangs off a scope that belongs to the functions
around it. -/
structure Scope.Placed (root : Node) (base : ScopeId) (owners : ScopeId → List Enclosure)
    (id : ScopeId) (scope : Scope) : Prop where
  names : ∀ binding ∈ scope.bindings, binding.1 ∈ root.scopeNames (owners id)
  parent : match owners id with
    | [] => scope.parent = none
    | _ :: around => ∃ parent, scope.parent = some parent ∧ base ≤ parent ∧ parent < id ∧
      owners parent = around

/-- A visit was to a node of the program, in a scope that belongs to the functions around the node,
when all closures bound in scopes of the run had been made by visits. -/
structure Visit.Scoped (root : Node) (base : ScopeId) (h : History) (visit : Visit) : Prop where
  occurs : root.Occurs visit.around visit.node
  chained : visit.store.Chained root visit.around visit.scope
  made : visit.store.BindsMade base h

/-- The invariant of a run whose scopes are those from `base` on. -/
structure Lexical (root : Node) (base : ScopeId) (h : History) (s : Store) : Prop where
  visits : ∀ visit ∈ h.visits, visit.Scoped root base h
  scopes : ∀ id scope, base ≤ id → s.scopes[id]? = some scope → scope.Placed root base h.owners id
  values : ∀ id scope, base ≤ id → s.scopes[id]? = some scope →
    ∀ binding ∈ scope.bindings, binding.2.All (Known base h s)
  unmade : ∀ id, s.nextClosure ≤ id → h.origins id = none

/-- A run goes on: no visit is forgotten, closures keep their origins and scopes their owners. -/
structure Extends (h : History) (s : Store) (h' : History) (s' : Store) : Prop where
  visits : h.visits ⊆ h'.visits
  origins : ∀ id visit, h.origins id = some visit → h'.origins id = some visit
  owners : ∀ id, id < s.scopes.size → h'.owners id = h.owners id
  grows : s.scopes.size ≤ s'.scopes.size

theorem Extends.refl (h : History) (s : Store) : Extends h s h s :=
  ⟨List.Subset.refl _, fun _ _ hid => hid, fun _ _ => rfl, Nat.le_refl _⟩

theorem Extends.trans (hext : Extends h s h' s') (hext' : Extends h' s' h'' s'') :
    Extends h s h'' s'' where
  visits := List.Subset.trans hext.visits hext'.visits
  origins id visit hid := hext'.origins id visit (hext.origins id visit hid)
  owners id hid := (hext'.owners id (Nat.lt_of_lt_of_le hid hext.grows)).trans (hext.owners id hid)
  grows := Nat.le_trans hext.grows hext'.grows

theorem Extends.visited (h : History) (s : Store) (visit : Visit) :
    Extends h s (h.visited visit) s :=
  ⟨List.subset_cons_self .., fun _ _ hid => hid, fun _ _ => rfl, Nat.le_refl _⟩

theorem Extends.define (h : History) (s : Store) (e : ScopeId) (name : String) (x : Value) :
    Extends h s h (s.define e name x) :=
  ⟨List.Subset.refl _, fun _ _ hid => hid, fun _ _ => rfl, by simp⟩

/-- A closure that is made is none of those that were. -/
theorem Extends.closed (hunmade : h.origins s.nextClosure = none) (visit : Visit)
    (parameters : List String) (body : Node) (e : ScopeId) :
    Extends h s (h.closed s.nextClosure visit) (s.newClosure parameters body e).2 where
  visits := List.Subset.refl _
  origins id visit' hid := by
    have hne : id ≠ s.nextClosure := by
      rintro rfl
      rw [hunmade] at hid
      cases hid
    simp only [History.closed, if_neg hne, hid]
  owners _ _ := rfl
  grows := Nat.le_refl _

/-- A scope that is made is none of those that were. -/
theorem Extends.entered (h : History) (s : Store) (around : List Enclosure)
    (parent : Option ScopeId) (bindings : Bindings) :
    Extends h s (h.entered s.scopes.size around) (s.newScope parent bindings).2 where
  visits := List.Subset.refl _
  origins _ _ hid := hid
  owners id hid := by simp only [History.entered, if_neg (Nat.ne_of_lt hid)]
  grows := by simp

section

variable {id : Nat} {parameters : List String} {body : Node} {captured : ScopeId}

/-- What is known stays known. -/
theorem Known.mono (hext : Extends h s h' s')
    (hknown : Known base h s id parameters body captured) :
    Known base h' s' id parameters body captured where
  since := hknown.since
  before := Nat.lt_of_lt_of_le hknown.before hext.grows
  visit := by
    obtain ⟨visit, hmem, horigin, hnode, hscope, howner⟩ := hknown.visit
    exact ⟨visit, hext.visits hmem, hext.origins id visit horigin, hnode, hscope,
      (hext.owners captured hknown.before).trans howner⟩

theorem Made.mono {s₀ : Store} (hext : Extends h s h' s')
    (hmade : Made h s₀ id parameters body captured) : Made h' s₀ id parameters body captured := by
  obtain ⟨visit, hmem, horigin, hrest⟩ := hmade
  exact ⟨visit, hext.visits hmem, hext.origins id visit horigin, hrest⟩

end

theorem Store.BindsMade.mono {s₀ : Store} (hext : Extends h s h' s') (hmade : s₀.BindsMade base h) :
    s₀.BindsMade base h' :=
  fun id scope hid hscope binding hbinding =>
    (hmade id scope hid hscope binding hbinding).mono fun _ _ _ _ => Made.mono hext

theorem Scope.Placed.mono (hext : Extends h s h' s') {id : ScopeId} {scope : Scope}
    (hid : id < s.scopes.size) (hplaced : scope.Placed root base h.owners id) :
    scope.Placed root base h'.owners id := by
  obtain ⟨hnames, hparent⟩ := hplaced
  rw [← hext.owners id hid] at hnames hparent
  refine ⟨hnames, ?_⟩
  cases howner : h'.owners id with
  | nil => simpa only [howner] using hparent
  | cons f around =>
    rw [howner] at hparent
    obtain ⟨parent, hparent, hbase, holder, hparents⟩ := hparent
    exact ⟨parent, hparent, hbase, holder,
      (hext.owners parent (Nat.lt_trans holder hid)).trans hparents⟩

theorem Visit.Scoped.mono (hext : Extends h s h' s') {visit : Visit}
    (hvisit : visit.Scoped root base h) : visit.Scoped root base h' where
  occurs := hvisit.occurs
  chained := hvisit.chained
  made := hvisit.made.mono hext

namespace Lexical

variable {e : ScopeId}

/-- The scopes from a scope of the run outwards belong to its owners. -/
theorem chained (hlex : Lexical root base h s) (hbase : base ≤ e) (he : e < s.scopes.size) :
    s.Chained root (h.owners e) e := by
  -- The chain is followed as far as the number of the scope says, which is far enough.
  have key : ∀ around e, base ≤ e → e < s.scopes.size → h.owners e = around → ∀ n, e ≤ n →
      List.Forall₂ (fun id names => ∀ binding ∈ s.bindings id, binding.1 ∈ names)
        (s.chainWithin (n + 1) e) (around.map Enclosure.names ++ [root.letNames]) := by
    intro around
    induction around with
    | nil =>
      intro e hbase he howner n hn
      have hscope : s.scopes[e]? = some s.scopes[e] := Array.getElem?_eq_getElem he
      have hplaced := hlex.scopes e s.scopes[e] hbase hscope
      have hparent := hplaced.parent
      have hnames := hplaced.names
      rw [howner] at hparent hnames
      simp only [Store.chainWithin, hscope, hparent, List.map_nil, List.nil_append]
      refine .cons ?_ .nil
      simpa only [Store.bindings, hscope, Node.scopeNames] using hnames
    | cons f around ih =>
      intro e hbase he howner n hn
      have hscope : s.scopes[e]? = some s.scopes[e] := Array.getElem?_eq_getElem he
      have hplaced := hlex.scopes e s.scopes[e] hbase hscope
      have hparent := hplaced.parent
      have hnames := hplaced.names
      rw [howner] at hparent hnames
      obtain ⟨parent, hparent, hbase', holder, howner'⟩ := hparent
      simp only [Store.chainWithin, hscope, hparent, List.map_cons, List.cons_append]
      refine .cons ?_ ?_
      · simpa only [Store.bindings, hscope, Node.scopeNames] using hnames
      · obtain ⟨k, rfl⟩ := Nat.exists_eq_add_of_lt (Nat.lt_of_lt_of_le holder hn)
        exact ih parent hbase' (Nat.lt_trans holder he) howner' (parent + k) (Nat.le_add_right ..)
  exact key (h.owners e) e hbase he rfl e (Nat.le_refl e)

/-- A known closure was made by a visit. -/
theorem made (hlex : Lexical root base h s) {id : Nat} {parameters : List String} {body : Node}
    {captured : ScopeId} (hknown : Known base h s id parameters body captured) :
    Made h s id parameters body captured := by
  obtain ⟨visit, hmem, horigin, hnode, hscope, howner⟩ := hknown.visit
  have hchained := hlex.chained hknown.since hknown.before
  exact ⟨visit, hmem, horigin, hnode, hscope, by rw [hchained.length_eq, howner]⟩

theorem bindsMade (hlex : Lexical root base h s) : s.BindsMade base h :=
  fun id scope hid hscope binding hbinding =>
    (hlex.values id scope hid hscope binding hbinding).mono fun _ _ _ _ => hlex.made

/-- The value of a name in a scope of the run is known. -/
theorem lookup (hlex : Lexical root base h s) (hbase : base ≤ e) {name : String} {x : Value}
    (hx : s.lookup e name = some x) : x.All (Known base h s) := by
  have hparents : ∀ (id : ScopeId) (scope : Scope), base ≤ id → s.scopes[id]? = some scope →
      ∀ parent, scope.parent = some parent → base ≤ parent := by
    intro id scope hid hscope parent hparent
    have hplaced := (hlex.scopes id scope hid hscope).parent
    split at hplaced
    · rw [hparent] at hplaced
      cases hplaced
    · obtain ⟨p, hp, hbase', -⟩ := hplaced
      rw [hparent] at hp
      cases hp
      exact hbase'
  obtain ⟨id, scope, hid, hscope, hmem⟩ := Store.exists_mem_of_lookup hparents hbase hx
  exact hlex.values id scope hid hscope _ hmem

/-- The invariant after a node of the program starts to be evaluated. -/
theorem visited (hlex : Lexical root base h s) (hbase : base ≤ e) (he : e < s.scopes.size)
    {node : Node} (hnode : root.Occurs (h.owners e) node) :
    Lexical root base (h.visited ⟨h.owners e, node, e, s⟩) s := by
  have hext := Extends.visited h s ⟨h.owners e, node, e, s⟩
  refine ⟨?_, hlex.scopes, ?_, hlex.unmade⟩
  · intro visit hmem
    rcases List.mem_cons.1 hmem with rfl | hmem
    · exact ⟨hnode, hlex.chained hbase he, hlex.bindsMade.mono hext⟩
    · exact (hlex.visits visit hmem).mono hext
  · intro id scope hid hscope binding hbinding
    exact (hlex.values id scope hid hscope binding hbinding).mono fun _ _ _ _ => Known.mono hext

/-- The invariant after a name of the scope's function is bound in the scope. -/
theorem define (hlex : Lexical root base h s) {name : String}
    (hname : name ∈ root.scopeNames (h.owners e)) {x : Value} (hx : x.All (Known base h s)) :
    Lexical root base h (s.define e name x) := by
  have hext := Extends.define h s e name x
  refine ⟨hlex.visits, ?_, ?_, hlex.unmade⟩
  · intro id scope hid hscope
    rw [Store.scopes_define, Option.map_eq_some_iff] at hscope
    obtain ⟨old, hold, rfl⟩ := hscope
    have hplaced := hlex.scopes id old hid hold
    split
    · next heq =>
      subst heq
      refine ⟨?_, hplaced.parent⟩
      intro binding hbinding
      rcases Bindings.mem_set hbinding with rfl | hmem
      · exact hname
      · exact hplaced.names binding hmem
    · exact hplaced
  · intro id scope hid hscope binding hbinding
    refine Value.All.mono (fun _ _ _ _ => Known.mono hext) ?_
    rw [Store.scopes_define, Option.map_eq_some_iff] at hscope
    obtain ⟨old, hold, rfl⟩ := hscope
    split at hbinding
    · rcases Bindings.mem_set hbinding with rfl | hmem
      · exact hx
      · exact hlex.values id old hid hold binding hmem
    · exact hlex.values id old hid hold binding hbinding

/-- The invariant after a closure is made. -/
theorem closed (hlex : Lexical root base h s) (visit : Visit) (parameters : List String)
    (body : Node) (e : ScopeId) :
    Lexical root base (h.closed s.nextClosure visit) (s.newClosure parameters body e).2 := by
  have hext := Extends.closed (hlex.unmade _ (Nat.le_refl _)) visit parameters body e
  refine ⟨?_, hlex.scopes, ?_, ?_⟩
  · exact fun visit hmem => (hlex.visits visit hmem).mono hext
  · intro id scope hid hscope binding hbinding
    exact (hlex.values id scope hid hscope binding hbinding).mono fun _ _ _ _ => Known.mono hext
  · intro id hid
    have hlt : s.nextClosure < id := hid
    simp only [History.closed, if_neg (Nat.ne_of_gt hlt)]
    exact hlex.unmade id (Nat.le_of_lt hlt)

/-- The invariant after the scope of a call is made off the scope that the closure captured. -/
theorem entered (hlex : Lexical root base h s) (parameters : List String) (body : Node)
    {captured : ScopeId} (hbase : base ≤ captured) (hcaptured : captured < s.scopes.size)
    {values : List Value} (hvalues : ∀ x ∈ values, x.All (Known base h s)) :
    Lexical root base (h.entered s.scopes.size (⟨parameters, body⟩ :: h.owners captured))
      (s.newScope (some captured) (.ofArguments parameters values)).2 := by
  have hext := Extends.entered h s (⟨parameters, body⟩ :: h.owners captured) (some captured)
    (.ofArguments parameters values)
  refine ⟨?_, ?_, ?_, hlex.unmade⟩
  · exact fun visit hmem => (hlex.visits visit hmem).mono hext
  · intro id scope hid hscope
    rw [Store.scopes_newScope] at hscope
    split at hscope
    · next hnew =>
      cases hscope
      subst hnew
      refine ⟨?_, ?_⟩
      · intro binding hbinding
        have hmem := (List.of_mem_zip (Bindings.mem_ofArguments hbinding)).1
        simp only [History.entered, if_true, Node.scopeNames, Enclosure.names]
        exact List.mem_append_left _ hmem
      · simp only [History.entered, if_true]
        exact ⟨captured, rfl, hbase, hcaptured, if_neg (Nat.ne_of_lt hcaptured)⟩
    · have hlt : id < s.scopes.size := (Array.getElem?_eq_some_iff.1 hscope).1
      exact (hlex.scopes id scope hid hscope).mono hext hlt
  · intro id scope hid hscope binding hbinding
    refine Value.All.mono (fun _ _ _ _ => Known.mono hext) ?_
    rw [Store.scopes_newScope] at hscope
    split at hscope
    · cases hscope
      exact hvalues _ (List.of_mem_zip (Bindings.mem_ofArguments hbinding)).2
    · exact hlex.values id scope hid hscope binding hbinding

end Lexical

end

/-! ## Runs keep the invariant -/

/-- A tracked computation goes on from a history and a store with the invariant, and yields a value
all of whose closures are known, if any. -/
structure Tracks (root : Node) (base : ScopeId) (h : History) (s : Store)
    (outcome : EStateM.Result Halt Machine Value × History) : Prop where
  lexical : Lexical root base outcome.2 (Run.machine outcome.1).store
  goesOn : Extends h s outcome.2 (Run.machine outcome.1).store
  value : ∀ x m', outcome.1 = .ok x m' → x.All (Known base outcome.2 m'.store)

section

variable {root : Node} {base : ScopeId} {h h' : History} {s : Store} {m' : Machine}

theorem Tracks.error {halt : Halt} (hlex : Lexical root base h' m'.store)
    (hext : Extends h s h' m'.store) : Tracks root base h s (.error halt m', h') :=
  ⟨hlex, hext, fun _ _ hx => nomatch hx⟩

theorem Tracks.ok {x : Value} (hlex : Lexical root base h' m'.store)
    (hext : Extends h s h' m'.store) (hx : x.All (Known base h' m'.store)) :
    Tracks root base h s (.ok x m', h') := by
  refine ⟨hlex, hext, ?_⟩
  rintro _ _ ⟨rfl, rfl⟩
  exact hx

theorem Tracks.leave {result : EStateM.Result Halt Machine Value}
    (hresult : Tracks root base h s (result, h')) (location : Option Location) :
    Tracks root base h s (Run.leave location result, h') := by
  cases result with
  | error halt m' => exact .error hresult.lexical hresult.goesOn
  | ok x m' => exact .ok hresult.lexical hresult.goesOn (hresult.value x m' rfl)

theorem Tracks.of_extends {s' : Store} {outcome : EStateM.Result Halt Machine Value × History}
    (houtcome : Tracks root base h' s' outcome) (hext : Extends h s h' s') :
    Tracks root base h s outcome :=
  ⟨houtcome.lexical, hext.trans houtcome.goesOn, houtcome.value⟩

/-- Carrying out a plan for a visit keeps the invariant, if evaluating nodes of the program does. -/
theorem Plan.track_lexical (settings : Settings) {eval : Observed Tracking}
    (heval : ∀ node e (m : Machine) h, Lexical root base h m.store → base ≤ e →
      e < m.store.scopes.size → root.Occurs (h.owners e) node →
      Tracks root base h m.store (Run.tracked (h.owners e) h (eval node e m)))
    (site : Site) {around : List Enclosure} (hbase : base ≤ site.scope) {plan : Plan}
    (hplan : plan.Fits site.node) (m : Machine) (h : History) (hlex : Lexical root base h m.store)
    (hvisit : site.visit around ∈ h.visits) (hscope : site.scope < m.store.scopes.size)
    (howner : h.owners site.scope = around) (hcarries : plan.Carries (Known base h m.store)) :
    Tracks root base h m.store
      (Run.tracked around h (plan.observe tracker settings eval site m)) := by
  have hoccurs : root.Occurs around site.node := (hlex.visits _ hvisit).occurs
  induction plan generalizing m h with
  | done result =>
    cases result with
    | ok value => exact .ok hlex (.refl ..) hcarries
    | error halt => exact .error hlex (.refl ..)
  | write text rest ih => exact ih hplan (m.wrote text) h hlex hvisit hscope howner hcarries
  | define name value rest ih =>
    have hext := Extends.define h m.store site.scope name value
    have hname : name ∈ root.scopeNames (h.owners site.scope) :=
      howner ▸ hoccurs.letNames_subset hplan.1
    have hrest := ih hplan.2 (m.bound settings site.scope name value) h
    rw [Machine.store_bound] at hrest
    exact (hrest (hlex.define hname hcarries.1) hvisit (by simpa using hscope) howner
      (hcarries.2.mono fun _ _ _ _ => Known.mono hext)).of_extends hext
  | fetch name =>
    simp only [observe]
    cases hx : m.store.lookup site.scope name with
    | none => exact .error hlex (.refl ..)
    | some value => exact .ok hlex (.refl ..) (hlex.lookup hbase hx)
  | close parameters body =>
    -- No closure has this identity yet, so none loses its origin.
    have hext := Extends.closed (hlex.unmade _ (Nat.le_refl _)) (site.visit around) parameters body
      site.scope
    refine Tracks.ok (hlex.closed (site.visit around) parameters body site.scope) hext ?_
    exact ⟨hbase, hscope, site.visit around, hvisit, if_pos rfl, hplan, rfl, howner⟩
  | child node rest ih =>
    have hnode := heval node site.scope m h hlex hbase hscope (howner ▸ hoccurs.child hplan.1)
    rw [howner] at hnode
    simp only [observe]
    cases hresult : eval node site.scope m with
    | mk result tracking =>
      rw [hresult] at hnode
      cases result with
      | error halt m' => exact hnode
      | ok value m' =>
        have hext : Extends h m.store (tracking around h) m'.store := hnode.goesOn
        refine (ih value (hplan.2 value) m' _ hnode.lexical (hext.visits hvisit)
          (Nat.lt_of_lt_of_le hscope hext.grows)
          ((hext.owners site.scope hscope).trans howner) ?_).of_extends hext
        exact hcarries _ (fun _ _ _ _ => Known.mono hext) value (hnode.value value m' rfl)
  | enter id parameters body captured values =>
    -- The functions around the body are those of the visit that made the closure, and not those of
    -- the call: nothing is known of the call but that its scope is one of the run.
    obtain ⟨hknown, hvalues⟩ := hcarries
    obtain ⟨origin, horigin, hmade, ⟨location, hfunction⟩, -, hcaptured⟩ := hknown.visit
    have haround : h.aroundBody id = ⟨parameters, body⟩ :: h.owners captured := by
      simp only [History.aroundBody, hmade, Visit.aroundBody, hfunction, hcaptured]
    have hbody : root.Occurs (⟨parameters, body⟩ :: h.owners captured) body := by
      have horigins := (hlex.visits origin horigin).occurs
      rw [hfunction, ← hcaptured] at horigins
      exact horigins.body
    have hext := Extends.entered h m.store (⟨parameters, body⟩ :: h.owners captured) (some captured)
      (.ofArguments parameters values)
    have hentered := hlex.entered parameters body hknown.since hknown.before hvalues
    have hrun := heval body m.store.scopes.size (m.entered settings parameters captured values)
      (h.entered m.store.scopes.size (⟨parameters, body⟩ :: h.owners captured))
    have hnew : (h.entered m.store.scopes.size (⟨parameters, body⟩ :: h.owners captured)).owners
        m.store.scopes.size = ⟨parameters, body⟩ :: h.owners captured := if_pos rfl
    rw [Machine.store_entered, hnew] at hrun
    rw [← haround] at hrun hentered hbody hext
    have hlate : base ≤ m.store.scopes.size :=
      Nat.le_trans hknown.since (Nat.le_of_lt hknown.before)
    exact (hrun hentered hlate (by simp) hbody).of_extends hext

/-- Evaluating a node of the program in a scope of the functions around it keeps the invariant. -/
theorem track_lexical (settings : Settings) (budget : Nat) (node : Node) (e : ScopeId) (m : Machine)
    (h : History) (hlex : Lexical root base h m.store) (hbase : base ≤ e)
    (he : e < m.store.scopes.size) (hnode : root.Occurs (h.owners e) node) :
    Tracks root base h m.store (track settings budget (h.owners e) node e m h) := by
  refine observe_induction (P := fun node e m outcome => ∀ h, Lexical root base h m.store →
    base ≤ e → e < m.store.scopes.size → root.Occurs (h.owners e) node →
    Tracks root base h m.store (Run.tracked (h.owners e) h outcome))
    (fun node e m h hlex hbase he hnode => ?_) (fun node e m _ h hlex hbase he hnode => ?_)
    (fun budget ih node e m _ h hlex hbase he hnode => ?_) budget node e m h hlex hbase he hnode
  · exact Tracks.error (hlex.visited hbase he hnode) (.visited ..)
  · refine Tracks.error ?_ ?_
    · rw [Machine.store_noted]
      exact hlex.visited hbase he hnode
    · rw [Machine.store_noted]
      exact .visited ..
  · have hvisited := hlex.visited hbase he hnode
    have hext := Extends.visited h m.store ⟨h.owners e, node, e, m.store⟩
    have hrun := Plan.track_lexical settings ih ⟨node, e, m⟩ hbase (Plan.fits_ofNode node)
      (m.started settings node.kind) (h.visited ⟨h.owners e, node, e, m.store⟩)
      (by simpa using hvisited) List.mem_cons_self (by simpa using he) rfl
      (Plan.carries_ofNode node _)
    rw [Machine.store_started] at hrun
    exact (hrun.of_extends hext).leave node.location

end

/-- The invariant as a program starts in a new scope. -/
theorem Lexical.start (root : Node) (s : Store) :
    Lexical root s.scopes.size {} (s.newScope none []).2 := by
  have hnew : ∀ id scope, s.scopes.size ≤ id → (s.newScope none []).2.scopes[id]? = some scope →
      scope = ⟨none, []⟩ := by
    intro id scope hid hscope
    rw [Store.scopes_newScope] at hscope
    split at hscope
    · cases hscope
      rfl
    · rw [Array.getElem?_eq_none hid] at hscope
      cases hscope
  refine ⟨by simp, ?_, ?_, fun _ _ => rfl⟩
  · intro id scope hid hscope
    obtain rfl := hnew id scope hid hscope
    exact ⟨by simp, rfl⟩
  · intro id scope hid hscope binding hbinding
    obtain rfl := hnew id scope hid hscope
    cases hbinding

/-- A tracked run of a program keeps the invariant. -/
theorem trackProgram_tracks (settings : Settings) (host : Limits) (root : Node) (m : Machine) :
    Tracks root m.store.scopes.size {} (m.store.newScope none []).2
      (trackProgram settings host root m) := by
  have hrun := track_lexical settings (settings.budgetOn host 0) root
    m.store.scopes.size { m with store := (m.store.newScope none []).2, depth := 0 } {}
    (.start root m.store) (Nat.le_refl _) (by simp) .root
  simp only [trackProgram]
  generalize track settings (settings.budgetOn host 0) [] root m.store.scopes.size
    { m with store := (m.store.newScope none []).2, depth := 0 } {} = outcome at hrun
  obtain ⟨result, h⟩ := outcome
  cases result with
  | error halt m' => exact .error hrun.lexical hrun.goesOn
  | ok x m' => exact .ok hrun.lexical hrun.goesOn (hrun.value x m' rfl)

/-- **Scoping is lexical.**  A run of a program can be tracked.  Then whenever a node that stands
under some functions is evaluated, the scope and those around it are one more than these functions:
one for each of them, which binds only parameters of the function and names of let nodes of its body
outside functions, and the outermost one, which binds only names of let nodes of the program outside
functions.  And every closure in the value of the run, in a scope of the run at its end or in one at
any time that a node starts to be evaluated, is over one scope more than there are functions around
the function that it was made of. -/
theorem trackProgram_lexical (settings : Settings) (host : Limits) (root : Node) (m : Machine) :
    (trackProgram settings host root m).1 = interpret settings host root m ∧
    (∀ visit ∈ (trackProgram settings host root m).2.visits,
      root.Occurs visit.around visit.node ∧
      (visit.store.chain visit.scope).length = visit.around.length + 1 ∧
      visit.store.Chained root visit.around visit.scope ∧
      visit.store.BindsMade m.store.scopes.size (trackProgram settings host root m).2) ∧
    (∀ x m', interpret settings host root m = .ok x m' →
      x.All (Made (trackProgram settings host root m).2 m'.store)) ∧
    (Run.machine (interpret settings host root m)).store.BindsMade m.store.scopes.size
      (trackProgram settings host root m).2 := by
  have htracks := trackProgram_tracks settings host root m
  have hplain := trackProgram_fst settings host root m
  rw [← hplain]
  refine ⟨rfl, ?_, ?_, htracks.lexical.bindsMade⟩
  · intro visit hvisit
    have hscoped := htracks.lexical.visits visit hvisit
    exact ⟨hscoped.occurs, hscoped.chained.length_eq, hscoped.chained, hscoped.made⟩
  · intro x m' hx
    have hlex := htracks.lexical
    rw [hx] at hlex
    exact (htracks.value x m' hx).mono fun _ _ _ _ => hlex.made

/-- A function that returns a function, called at once.  The body of the inner function is evaluated
in a scope that is the third of its chain, after the scopes of the outer function and of the
program. -/
theorem trackProgram_lexical_inner :
    let inner : Node := .function ["y"] (.var "x" none) none
    let outer : Node := .function ["x"] inner none
    let root : Node := .letIn "f" outer
      (.call (.call (.var "f" none) [.str "a" none] none) [.str "b" none] none) none
    ∃ visit ∈ (trackProgram {} .standard root {}).2.visits, visit.node = .var "x" none ∧
      (visit.store.chain visit.scope).length = 3 := by
  intro inner outer root
  have hlast : ∃ visit earlier, (trackProgram {} .standard root {}).2.visits = visit :: earlier ∧
      visit.node = .var "x" none ∧ visit.around.length = 2 := ⟨_, _, rfl, rfl, rfl⟩
  obtain ⟨visit, earlier, hvisits, hnode, haround⟩ := hlast
  have hvisit : visit ∈ (trackProgram {} .standard root {}).2.visits := by
    rw [hvisits]
    exact List.mem_cons_self
  have hlength := ((trackProgram_lexical {} .standard root {}).2.1 visit hvisit).2.1
  exact ⟨visit, hvisit, hnode, by rw [hlength, haround]⟩

end Rinha
