import Rinha.Proofs.Termination
import Rinha.Proofs.Transcript

/-!
# The tree of an evaluation

The nodes that an evaluation comes to form a tree: below a node stand the nodes that were evaluated
on its behalf, first to last.  A charted run keeps that tree; without it a charted run is a plain
one.  A traced run has one line for every node, written as the node is come to, so that the lines
are the preorder of the tree.  From one line to the next the depth goes down by any number of
levels, or up by one, the latter exactly below a node that has children.  No line is deeper than the
depth allowed, and one at that depth is the last: the node is refused.

## Main definitions

* `EvaluationTree` -- the nodes that an evaluation comes to.
* `charter`, `chart`, `chartHere` -- evaluation with its tree.
* `Line`, `Machine.lines` -- the lines of a trace that say which nodes were come to, and how deep.
* `EvaluationTree.preorder` -- the lines of a tree, and `chart_lines`, that a run writes them.
* `Orderly` -- how the lines go up and down, and how they end.
* `chart_orderly` -- the lines of all evaluations are orderly.
-/

namespace Rinha

/-! ## Charted runs -/

/-- The nodes that an evaluation comes to: a node of some kind, and the evaluations on its behalf,
first to last. -/
inductive EvaluationTree where
  | node (kind : Node.Kind) (children : List EvaluationTree)

/-- Tells which nodes an evaluation comes to.  There is one tree, unless the host could not follow
the evaluation so far.  A node that is refused has been come to. -/
def charter : Observer (List EvaluationTree) where
  spent _ := []
  refused site _ := [.node site.node.kind []]
  granted site _ children _ := [.node site.node.kind children]
  still _ _ := []
  acted _ _ after := after
  closed _ _ _ _ := []
  followed child after := child ++ after
  entered _ _ _ body := body

theorem charter_granted (site : Site) (m stop : Machine) (children : List EvaluationTree) :
    charter.granted site m children stop = [.node site.node.kind children] := rfl

theorem charter_followed (child after : List EvaluationTree) :
    charter.followed child after = child ++ after := rfl

/-- Evaluates a node with its tree, within a budget of nested evaluations. -/
def chart (settings : Settings) : Nat → Observed (List EvaluationTree) :=
  observe charter settings

/-- Evaluates a node with its tree, from the depth that the machine is at. -/
def chartHere (settings : Settings) (host : Limits) : Observed (List EvaluationTree) :=
  fun node scope m => chart settings (settings.budgetOn host m.depth) node scope m

theorem chartHere_fst (settings : Settings) (host : Limits) (node : Node) (scope : ScopeId)
    (m : Machine) :
    (chartHere settings host node scope m).1 = evaluateHere settings host node scope m := by
  rw [chartHere, chart, observe_fst, evaluateHere_apply]

/-- A charted evaluation leaves the depth as it was. -/
theorem depth_chart (settings : Settings) (budget : Nat) (node : Node) (scope : ScopeId)
    (m : Machine) : (Run.machine (chart settings budget node scope m).1).depth = m.depth := by
  rw [chart, observe_fst]
  exact depth_evaluate ..

/-! ## Lines -/

/-- A line of a trace for a node that was come to. -/
structure Line where
  kind : Node.Kind
  depth : Int
  deriving DecidableEq, Repr

/-- The line that an entry of the trace is, if it is one for a node. -/
def TraceEntry.line? : TraceEntry → Option Line
  | .evaluating kind depth => some ⟨kind, depth⟩
  | _ => none

/-- The lines of the trace, first to last. -/
def Machine.lines (m : Machine) : List Line :=
  m.trace.toList.filterMap TraceEntry.line?

namespace Machine

/-- What an entry adds to the lines of a traced run. -/
theorem lines_noted {settings : Settings} (hdebug : settings.debug) (m : Machine)
    (entry : TraceEntry) : (m.noted settings entry).lines = m.lines ++ entry.line?.toList := by
  simp only [noted, if_pos hdebug, lines, Array.toList_push, List.filterMap_append]
  cases h : entry.line? <;> simp [h]

section

variable {settings : Settings} (m : Machine) (scope captured : ScopeId) (name : String)
  (value : Value) (parameters : List String) (body : Node) (values : List Value) (kind : Node.Kind)

@[simp] theorem lines_closed : (m.closed parameters body scope).lines = m.lines := rfl

@[simp] theorem lines_ended : m.ended.lines = m.lines := rfl

theorem lines_bound (hdebug : settings.debug) :
    (m.bound settings scope name value).lines = m.lines := by
  rw [bound, lines_noted hdebug]
  simp [TraceEntry.line?, lines]

theorem lines_entered (hdebug : settings.debug) :
    (m.entered settings parameters captured values).lines = m.lines := by
  rw [entered, lines_noted hdebug]
  simp [TraceEntry.line?, lines]

theorem lines_started (hdebug : settings.debug) :
    (m.started settings kind).lines = m.lines ++ [⟨kind, m.depth⟩] :=
  lines_noted hdebug m (.evaluating kind m.depth)

end

end Machine

/-! ## Preorder -/

namespace EvaluationTree

mutual

/-- The lines of a tree whose root is at a given depth: that of the root, then those of the trees
below it, first to last. -/
def preorder (depth : Int) : EvaluationTree → List Line
  | .node kind children => ⟨kind, depth⟩ :: preorderAll (depth + 1) children

/-- The lines of several trees. -/
def preorderAll (depth : Int) : List EvaluationTree → List Line
  | [] => []
  | tree :: trees => tree.preorder depth ++ preorderAll depth trees

end

variable {depth : Int} {trees : List EvaluationTree}

@[simp] theorem preorderAll_singleton (tree : EvaluationTree) :
    preorderAll depth [tree] = tree.preorder depth := by
  simp [preorderAll]

@[simp] theorem preorderAll_append (trees trees' : List EvaluationTree) :
    preorderAll depth (trees ++ trees') = preorderAll depth trees ++ preorderAll depth trees' := by
  induction trees with
  | nil => rfl
  | cons tree trees ih => simp [preorderAll, ih]

@[simp] theorem preorderAll_eq_nil : preorderAll depth trees = [] ↔ trees = [] := by
  cases trees with
  | nil => simp [preorderAll]
  | cons tree trees =>
    cases tree
    simp [preorderAll, preorder]

/-- The first line of several trees is that of a root. -/
theorem depth_of_mem_head? {line : Line} (h : line ∈ (preorderAll depth trees).head?) :
    line.depth = depth := by
  cases trees with
  | nil => simp [preorderAll] at h
  | cons tree trees =>
    cases tree
    simp only [preorderAll, preorder, List.cons_append, List.head?_cons, Option.mem_some_iff] at h
    rw [← h]

mutual

theorem le_depth_of_mem_preorder {line : Line} {depth : Int} {tree : EvaluationTree}
    (h : line ∈ tree.preorder depth) : depth ≤ line.depth := by
  obtain ⟨kind, children⟩ := tree
  rw [preorder] at h
  rcases List.mem_cons.1 h with rfl | h
  · exact Int.le_refl depth
  · have hchildren := le_depth_of_mem_preorderAll h
    omega

/-- No line is above the roots. -/
theorem le_depth_of_mem_preorderAll {line : Line} {depth : Int} {trees : List EvaluationTree}
    (h : line ∈ preorderAll depth trees) : depth ≤ line.depth := by
  cases trees with
  | nil => simp [preorderAll] at h
  | cons tree trees =>
    rw [preorderAll] at h
    rcases List.mem_append.1 h with h | h
    · exact le_depth_of_mem_preorder h
    · exact le_depth_of_mem_preorderAll h

end

end EvaluationTree

open EvaluationTree

/-- Carrying out a plan under debugging writes the lines of its trees, if evaluating nodes does. -/
theorem Plan.chart_lines {settings : Settings} (hdebug : settings.debug)
    {eval : Observed (List EvaluationTree)}
    (hdepth : ∀ node scope m, (Run.machine (eval node scope m).1).depth = m.depth)
    (heval : ∀ node scope m, (Run.machine (eval node scope m).1).lines =
      m.lines ++ preorderAll m.depth (eval node scope m).2)
    (plan : Plan) (site : Site) (m : Machine) :
    (Run.machine (plan.observe charter settings eval site m).1).lines =
      m.lines ++ preorderAll m.depth (plan.observe charter settings eval site m).2 := by
  induction plan generalizing m with
  | done result => cases result <;> simp [observe, charter, preorderAll]
  | write text rest ih => exact ih (m.wrote text)
  | define name value rest ih =>
    have hrest := ih (m.bound settings site.scope name value)
    rwa [Machine.lines_bound m site.scope name value hdebug, Machine.depth_bound] at hrest
  | fetch name =>
    simp only [observe]
    cases m.store.lookup site.scope name <;> simp [charter, preorderAll]
  | close parameters body => simp [observe, charter, preorderAll]
  | child node rest ih =>
    have hnode := heval node site.scope m
    have hsame := hdepth node site.scope m
    simp only [observe]
    cases h : eval node site.scope m with
    | mk result trees =>
      rw [h] at hnode hsame
      cases result with
      | error halt m' => exact hnode
      | ok value m' =>
        have hrest := ih value m'
        rw [Run.machine_ok] at hnode hsame
        rw [hnode, hsame] at hrest
        simp only [hrest, charter_followed, preorderAll_append, List.append_assoc]
  | enter id parameters body captured values =>
    have hbody := heval body m.store.scopes.size (m.entered settings parameters captured values)
    rwa [Machine.lines_entered m captured parameters values hdebug, Machine.depth_entered] at hbody

/-- Under debugging an evaluation writes the lines of its tree. -/
theorem chart_lines {settings : Settings} (hdebug : settings.debug) (budget : Nat) (node : Node)
    (scope : ScopeId) (m : Machine) :
    (Run.machine (chart settings budget node scope m).1).lines =
      m.lines ++ preorderAll m.depth (chart settings budget node scope m).2 := by
  refine observe_induction (P := fun _ _ m outcome => (Run.machine outcome.1).lines =
    m.lines ++ preorderAll m.depth outcome.2)
    (fun _ _ m => ?_) (fun node _ m _ => ?_) (fun budget ih node scope m _ => ?_)
    budget node scope m
  · simp [charter, preorderAll]
  · exact Machine.lines_noted hdebug m (.evaluating node.kind m.depth)
  · have hplan := Plan.chart_lines hdebug (depth_chart settings budget) ih (.ofNode node)
      ⟨node, scope, m⟩ (m.started settings node.kind)
    rw [Machine.lines_started m node.kind hdebug, Machine.depth_started] at hplan
    dsimp only
    rw [Run.machine_leave, Machine.lines_ended, charter_granted, preorderAll_singleton, preorder,
      ← List.singleton_append, ← List.append_assoc]
    exact hplan

/-! ## How lines go up and down -/

namespace Run

variable {α : Type} {location : Option Location} {result : EStateM.Result Halt Machine α}

/-- A computation stopped because the depth allowed was exceeded. -/
def Exhausted (result : EStateM.Result Halt Machine α) : Prop :=
  ∃ halt m, result = .error halt m ∧ halt.isLimit ∧ halt ≠ .nesting

/-- A computation stopped because the host could not follow it. -/
def Spent (result : EStateM.Result Halt Machine α) : Prop :=
  ∃ m, result = .error .nesting m

theorem exhausted_error_iff {halt : Halt} {m : Machine} :
    Exhausted (.error halt m : EStateM.Result Halt Machine α) ↔
      halt.isLimit ∧ halt ≠ .nesting := by
  constructor
  · rintro ⟨_, _, ⟨⟩, h⟩
    exact h
  · exact fun h => ⟨halt, m, rfl, h⟩

@[simp] theorem not_exhausted_ok {value : α} {m : Machine} :
    ¬ Exhausted (.ok value m : EStateM.Result Halt Machine α) := by
  rintro ⟨_, _, ⟨⟩, _⟩

@[simp] theorem exhausted_leave : Exhausted (leave location result) ↔ Exhausted result := by
  cases result with
  | ok value m => simp [leave]
  | error halt m => simp [leave, exhausted_error_iff, Halt.within_eq_nesting]

@[simp] theorem spent_leave : Spent (leave location result) ↔ Spent result := by
  cases result <;> simp [leave, Spent, Halt.within_eq_nesting]

end Run

/-- Whether nodes of a kind are evaluated without evaluating any other node. -/
def Node.Kind.isLeaf : Node.Kind → Bool
  | .str | .int | .bool | .var | .function => true
  | _ => false

/-- How a line is followed by the next one: it is above the limit, and the next one is at most one
level deeper, and that exactly if the node is no leaf. -/
structure Line.Precedes (limit : Int) (line next : Line) : Prop where
  above : line.depth < limit
  step : next.depth ≤ line.depth + 1
  deeper : next.depth = line.depth + 1 ↔ line.kind.isLeaf = false

/-- How the lines of a computation go.  None is beyond the limit, every line but the last is
followed by the next one as it should be, and there is one at the limit exactly if the computation
stopped because of it.  If the host could follow the computation, then the last line is for a leaf
or at the limit. -/
structure Orderly (limit : Int) (result : EStateM.Result Halt Machine Value) (lines : List Line) :
    Prop where
  within : ∀ line ∈ lines, line.depth ≤ limit
  chain : lines.IsChain (Line.Precedes limit)
  cut : (∃ line ∈ lines, line.depth = limit) ↔ Run.Exhausted result
  ends : ¬ Run.Spent result → ∀ line ∈ lines.getLast?, line.kind.isLeaf ∨ line.depth = limit

namespace Orderly

variable {limit depth : Int} {result : EStateM.Result Halt Machine Value} {kind : Node.Kind}
  {trees trees' : List EvaluationTree}

/-- A computation that comes to no node. -/
theorem nil (h : ¬ Run.Exhausted result) : Orderly limit result [] where
  within := List.forall_mem_nil _
  chain := .nil
  cut := by simpa using h
  ends _ := by simp

/-- What comes after the value of a child. -/
theorem append {value : Value} {m : Machine}
    (hchild : Orderly limit (.ok value m) (preorderAll depth trees))
    (h : Orderly limit result (preorderAll depth trees')) :
    Orderly limit result (preorderAll depth (trees ++ trees')) := by
  have hshort : ∀ line ∈ preorderAll depth trees, line.depth ≠ limit := fun line hline hlimit =>
    Run.not_exhausted_ok (hchild.cut.1 ⟨line, hline, hlimit⟩)
  rw [preorderAll_append]
  refine ⟨List.forall_mem_append.2 ⟨hchild.within, h.within⟩, ?_, ?_, fun hspent => ?_⟩
  · refine hchild.chain.append h.chain fun line hline next hnext => ?_
    -- A child that has a value was not cut, so its last line is for a leaf; the next one is a root.
    have hmem : line ∈ preorderAll depth trees := List.mem_of_getLast? hline
    have hends := hchild.ends (by rintro ⟨_, ⟨⟩⟩) line hline
    have hleaf : line.kind.isLeaf := hends.resolve_right (hshort line hmem)
    have hwithin := hchild.within line hmem
    have hne := hshort line hmem
    have hbelow : depth ≤ line.depth := le_depth_of_mem_preorderAll hmem
    have hroot : next.depth = depth := depth_of_mem_head? hnext
    refine ⟨by omega, by omega, ?_⟩
    simp only [hleaf, Bool.true_eq_false, iff_false]
    omega
  · rw [← h.cut]
    constructor
    · rintro ⟨line, hline, hlimit⟩
      rcases List.mem_append.1 hline with hline | hline
      · exact absurd hlimit (hshort line hline)
      · exact ⟨line, hline, hlimit⟩
    · rintro ⟨line, hline, hlimit⟩
      exact ⟨line, List.mem_append_right _ hline, hlimit⟩
  · intro line hline
    rw [List.getLast?_append] at hline
    cases hlast : (preorderAll depth trees').getLast? with
    | none =>
      rw [hlast] at hline
      exact hchild.ends (by rintro ⟨_, ⟨⟩⟩) line hline
    | some last =>
      rw [hlast] at hline
      obtain rfl : last = line := Option.some.inj hline
      exact h.ends hspent last hlast

/-- A node that is refused. -/
theorem refused (hdepth : depth = limit) (h : Run.Exhausted result) :
    Orderly limit result (preorder depth (.node kind [])) where
  within := by simp [preorder, preorderAll, hdepth]
  chain := .singleton _
  cut := by simpa [preorder, preorderAll, hdepth] using h
  ends _ line hline := by
    cases hline
    exact .inr hdepth

/-- A node that is granted its depth comes before the nodes that are evaluated on its behalf.  There
are none if it is a leaf, and some if it is not, unless the host cannot follow. -/
theorem granted (hdepth : depth < limit) (hleaf : kind.isLeaf → trees = [])
    (hbranch : kind.isLeaf = false → trees = [] → Run.Spent result)
    (h : Orderly limit result (preorderAll (depth + 1) trees)) :
    Orderly limit result (preorder depth (.node kind trees)) := by
  rw [preorder]
  refine ⟨List.forall_mem_cons.2 ⟨Int.le_of_lt hdepth, h.within⟩, ?_, ?_, fun hspent => ?_⟩
  · refine List.isChain_cons.2 ⟨fun next hnext => ?_, h.chain⟩
    have hroot : next.depth = depth + 1 := depth_of_mem_head? hnext
    have hkind : kind.isLeaf = false := by
      by_contra hkind
      rw [hleaf (by simpa using hkind)] at hnext
      cases hnext
    exact ⟨hdepth, Int.le_of_eq hroot, iff_of_true hroot hkind⟩
  · rw [← h.cut]
    simp [Int.ne_of_lt hdepth]
  · intro line hline
    rw [List.getLast?_cons] at hline
    cases hlast : (preorderAll (depth + 1) trees).getLast? with
    | some last =>
      rw [hlast] at hline
      obtain rfl : last = line := Option.some.inj hline
      exact h.ends hspent last hlast
    | none =>
      rw [hlast] at hline
      obtain rfl : ⟨kind, depth⟩ = line := Option.some.inj hline
      have htrees : trees = [] := by simpa using hlast
      cases hkind : kind.isLeaf with
      | true => exact .inl rfl
      | false => exact absurd (hbranch hkind htrees) hspent

end Orderly

/-- Carrying out a plan of a node is orderly if evaluating nodes is. -/
theorem Plan.chart_orderly (settings : Settings) {eval : Observed (List EvaluationTree)}
    {limit depth : Int}
    (hdepth : ∀ node scope m, (Run.machine (eval node scope m).1).depth = m.depth)
    (heval : ∀ node scope m, m.depth = depth →
      Orderly limit (eval node scope m).1 (preorderAll depth (eval node scope m).2))
    {node : Node} {plan : Plan} (hplan : plan.Confined node) (site : Site) {m : Machine}
    (hm : m.depth = depth) :
    Orderly limit (plan.observe charter settings eval site m).1
      (preorderAll depth (plan.observe charter settings eval site m).2) := by
  have hown : ∀ {halt : Halt} (m : Machine), halt.OfNode →
      ¬ Run.Exhausted (.error halt m : EStateM.Result Halt Machine Value) :=
    fun m h hexhausted => h.not_isLimit (Run.exhausted_error_iff.1 hexhausted).1
  induction plan generalizing m with
  | done result =>
    cases result with
    | ok value => exact .nil Run.not_exhausted_ok
    | error halt => exact .nil (hown m hplan)
  | write text rest ih => exact ih hplan (m := m.wrote text) hm
  | define name value rest ih => exact ih hplan ((Machine.depth_bound ..).trans hm)
  | fetch name =>
    simp only [observe]
    cases m.store.lookup site.scope name with
    | some value => exact .nil Run.not_exhausted_ok
    | none => exact .nil (hown m .unbound)
  | close parameters body => exact .nil Run.not_exhausted_ok
  | child first rest ih =>
    have hfirst := heval first site.scope m hm
    have hsame := hdepth first site.scope m
    simp only [observe]
    cases h : eval first site.scope m with
    | mk result trees =>
      rw [h] at hfirst hsame
      cases result with
      | error halt m' => exact hfirst
      | ok value m' => exact hfirst.append (ih value (hplan value) (hsame.trans hm))
  | enter id parameters body captured values =>
    exact heval _ _ _ ((Machine.depth_entered ..).trans hm)

/-- A leaf is evaluated without any other node. -/
theorem Plan.chart_leaf {node : Node} (hleaf : node.kind.isLeaf) (settings : Settings)
    (eval : Observed (List EvaluationTree)) (site : Site) (m : Machine) :
    ((Plan.ofNode node).observe charter settings eval site m).2 = [] := by
  cases node with
  | str | int | bool | function => rfl
  | var name l =>
    simp only [ofNode, observe]
    cases m.store.lookup site.scope name <;> rfl
  | print | letIn | cond | call | binary | tuple | first | second => cases hleaf

/-- Any other node begins with a child. -/
theorem Plan.exists_child_of_not_leaf {node : Node} (hleaf : node.kind.isLeaf = false) :
    ∃ first rest, Plan.ofNode node = .child first rest := by
  cases node with
  | str | int | bool | var | function => cases hleaf
  | print | letIn | cond | call | binary | tuple | first | second => exact ⟨_, _, rfl⟩

/-- An evaluation that the host could follow has one tree, whose root is the node. -/
theorem exists_tree_of_chart {settings : Settings} {budget : Nat} {node : Node} {scope : ScopeId}
    {m : Machine} (h : ¬ Run.Spent (chart settings budget node scope m).1) :
    ∃ children, (chart settings budget node scope m).2 = [.node node.kind children] := by
  cases budget with
  | zero => exact absurd ⟨m, rfl⟩ h
  | succ budget =>
    by_cases hdepth : settings.maxDepth ≤ m.depth
    · rw [chart, observe_refused charter settings budget node scope m hdepth]
      exact ⟨[], rfl⟩
    · rw [chart, observe_granted charter settings budget node scope m (Int.not_le.1 hdepth)]
      exact ⟨_, rfl⟩

/-- A node that is no leaf has other nodes evaluated, unless the host cannot follow. -/
theorem Plan.spent_of_chart_eq_nil {node : Node} (hleaf : node.kind.isLeaf = false)
    {settings : Settings} {budget : Nat} {site : Site} {m : Machine}
    (h : ((Plan.ofNode node).observe charter settings (chart settings budget) site m).2 = []) :
    Run.Spent ((Plan.ofNode node).observe charter settings (chart settings budget) site m).1 := by
  obtain ⟨first, rest, hplan⟩ := exists_child_of_not_leaf hleaf
  rw [hplan] at h ⊢
  have hfirst : (chart settings budget first site.scope m).2 = [] →
      Run.Spent (chart settings budget first site.scope m).1 := by
    intro hnil
    by_contra hspent
    obtain ⟨children, htree⟩ := exists_tree_of_chart hspent
    rw [hnil] at htree
    cases htree
  simp only [observe] at h ⊢
  cases hresult : chart settings budget first site.scope m with
  | mk result trees =>
    rw [hresult] at h hfirst
    cases result with
    | ok value m' =>
      obtain ⟨m'', hspent⟩ := hfirst (List.append_eq_nil_iff.1 h).1
      cases hspent
    | error halt m' => exact hfirst h

/-- The lines of an evaluation that starts at the limit or above it are orderly. -/
theorem chart_orderly (settings : Settings) (budget : Nat) (node : Node) (scope : ScopeId)
    (m : Machine) (hm : m.depth ≤ settings.maxDepth) :
    Orderly settings.maxDepth (chart settings budget node scope m).1
      (preorderAll m.depth (chart settings budget node scope m).2) := by
  refine observe_induction (P := fun _ _ m outcome => m.depth ≤ settings.maxDepth →
    Orderly settings.maxDepth outcome.1 (preorderAll m.depth outcome.2))
    (fun _ _ _ _ => ?_) (fun node _ m hdepth hm => ?_)
    (fun budget ih node scope m hgranted _ => ?_) budget node scope m hm
  · exact .nil fun h => (Run.exhausted_error_iff.1 h).2 rfl
  · have hexhausted : (Halt.refusal settings.maxDepth node.location).isLimit ∧
        Halt.refusal settings.maxDepth node.location ≠ .nesting :=
      ⟨Halt.isLimit_refusal .., Halt.refusal_ne_nesting settings.maxDepth node.location⟩
    simp only [charter, preorderAll_singleton]
    exact .refused (Int.le_antisymm hm hdepth) (Run.exhausted_error_iff.2 hexhausted)
  · have hplan := Plan.chart_orderly settings (depth_chart settings budget)
      (fun node scope m' hm' => hm' ▸ ih node scope m' (by omega))
      (Plan.confined_ofNode node) ⟨node, scope, m⟩ (Machine.depth_started m settings node.kind)
    rw [charter_granted, preorderAll_singleton]
    refine .granted hgranted (fun hleaf => Plan.chart_leaf hleaf ..)
      (fun hleaf hnil => Run.spent_leave.2 (Plan.spent_of_chart_eq_nil hleaf hnil))
      ⟨hplan.within, hplan.chain, hplan.cut.trans Run.exhausted_leave.symm,
        fun hspent => hplan.ends (mt Run.spent_leave.2 hspent)⟩

namespace Orderly

variable {limit : Int} {result : EStateM.Result Halt Machine Value} {lines : List Line} {i : Nat}
  {line next : Line}

/-- A line and the one after it. -/
theorem precedes (h : Orderly limit result lines) (hline : lines[i]? = some line)
    (hnext : lines[i + 1]? = some next) : line.Precedes limit next := by
  obtain ⟨hi, rfl⟩ := List.getElem?_eq_some_iff.1 hline
  obtain ⟨hi', rfl⟩ := List.getElem?_eq_some_iff.1 hnext
  exact List.isChain_iff_getElem.1 h.chain i hi'

/-- A line that is for no leaf and above the limit has one after it. -/
theorem exists_next (h : Orderly limit result lines) (hspent : ¬ Run.Spent result)
    (hline : lines[i]? = some line) (hleaf : line.kind.isLeaf = false)
    (habove : line.depth < limit) : ∃ next, lines[i + 1]? = some next := by
  by_contra hnone
  have hlength : lines.length ≤ i + 1 :=
    List.getElem?_eq_none_iff.1 (Option.eq_none_iff_forall_ne_some.2 (not_exists.1 hnone))
  have hi : i < lines.length := (List.getElem?_eq_some_iff.1 hline).1
  have hlast : line ∈ lines.getLast? := by
    rw [List.getLast?_eq_getElem?, show lines.length - 1 = i by omega]
    exact hline
  rcases h.ends hspent line hlast with hkind | hlimit
  · rw [hleaf] at hkind
    cases hkind
  · omega

/-- A line at the limit is the last one. -/
theorem length_eq_of_limit (h : Orderly limit result lines) (hline : lines[i]? = some line)
    (hlimit : line.depth = limit) : i + 1 = lines.length := by
  have hi : i < lines.length := (List.getElem?_eq_some_iff.1 hline).1
  by_contra hlength
  have habove := (h.precedes hline (List.getElem?_eq_getElem (by omega))).above
  omega

end Orderly

/-- A program that the host could follow ends in the error for the depth if its evaluation does. -/
theorem Run.conclude_eq_stackExhausted_iff {α : Type} {settings : Settings} {depth : Int}
    {result : EStateM.Result Halt Machine α} (h : ¬ Spent result) :
    (∃ allowed location m',
      conclude settings depth result = .error (.error (.stackExhausted allowed) location) m') ↔
    ∃ allowed location m', result = .error (.error (.stackExhausted allowed) location) m' := by
  cases result with
  | ok value m => simp [conclude]
  | error halt m =>
    have hhalt : halt ≠ .nesting := by
      rintro rfl
      exact h ⟨m, rfl⟩
    rw [conclude, settings.exhausted_of_ne_nesting hhalt]
    constructor
    · rintro ⟨allowed, location, _, ⟨⟩⟩
      exact ⟨allowed, location, m, rfl⟩
    · rintro ⟨allowed, location, _, ⟨⟩⟩
      exact ⟨allowed, location, _, rfl⟩

/-- A depth that is exceeded within a budget of nested evaluations is below the budget, so that it
can be written if the budget can. -/
theorem exhausted_evaluate_iff {settings : Settings} {budget : Nat} {node : Node} {scope : ScopeId}
    {m : Machine} (hmax : 0 ≤ settings.maxDepth) (hdepth : m.depth = 0)
    (hbudget : budget < decimalBound) :
    Run.Exhausted (evaluate settings budget node scope m) ↔ ∃ allowed location m',
      evaluate settings budget node scope m =
        .error (.error (.stackExhausted allowed) location) m' := by
  constructor
  · rintro ⟨halt, m', h, hlimit, hnesting⟩
    obtain ⟨hspent, -⟩ | ⟨hleft, location, rfl⟩ := cut_of_evaluate hlimit h
    · exact absurd hspent hnesting
    · have hwithin : settings.maxDepth.natAbs < budget := by omega
      rw [Halt.refusal_of_lt (Nat.lt_trans hwithin hbudget)] at h
      exact ⟨_, location, m', h⟩
  · rintro ⟨allowed, location, m', h⟩
    exact h ▸ Run.exhausted_error_iff.2 ⟨rfl, nofun⟩

/-- **The trace is the preorder of the tree of the evaluation.**  Take a traced run of a program
that the host can follow, on a host whose own bound is a number that can be written.  The lines that
the run writes for nodes are the preorder of the tree of its evaluation.  The first of them is that
of the program, at depth zero.  Every later one is deeper than that, no deeper than one level below
the line before it, and no deeper than the depth allowed.  A line for a leaf is not followed by one
that is a level deeper; a line for any other node above the depth allowed is.  There is a line at the
depth allowed exactly if the run stops because that is exceeded, and such a line is the last one. -/
theorem trace_is_preorder (maxDepth : Int) (hmax : 0 ≤ maxDepth) (host : Limits) (root : Node)
    (m : Machine) (hframes : host.traced < decimalBound)
    (hhost : ∀ m', evaluateHere ⟨maxDepth, true⟩ host root m.store.scopes.size m.fresh ≠
      .error .nesting m') :
    ∃ tree : EvaluationTree,
      chartHere ⟨maxDepth, true⟩ host root m.store.scopes.size m.fresh =
        (evaluateHere ⟨maxDepth, true⟩ host root m.store.scopes.size m.fresh, [tree]) ∧
      (Run.machine (interpret ⟨maxDepth, true⟩ host root m)).lines = m.lines ++ tree.preorder 0 ∧
      (tree.preorder 0)[0]? = some ⟨root.kind, 0⟩ ∧
      (∀ (i : Nat) (line next : Line),
        (tree.preorder 0)[i]? = some line → (tree.preorder 0)[i + 1]? = some next →
        1 ≤ next.depth ∧ next.depth ≤ line.depth + 1 ∧ next.depth ≤ maxDepth ∧
        (line.kind.isLeaf → next.depth ≠ line.depth + 1)) ∧
      (∀ (i : Nat) (line : Line),
        (tree.preorder 0)[i]? = some line → line.kind.isLeaf = false → line.depth < maxDepth →
        ∃ next, (tree.preorder 0)[i + 1]? = some next ∧ next.depth = line.depth + 1) ∧
      ((∃ line ∈ tree.preorder 0, line.depth = maxDepth) ↔
        ∃ allowed location m', interpret ⟨maxDepth, true⟩ host root m =
          .error (.error (.stackExhausted allowed) location) m') ∧
      (∀ (i : Nat) (line : Line),
        (tree.preorder 0)[i]? = some line → line.depth = maxDepth →
        i + 1 = (tree.preorder 0).length) := by
  let settings : Settings := ⟨maxDepth, true⟩
  let budget := settings.budgetOn host 0
  have hplain : (chart settings budget root m.store.scopes.size m.fresh).1 =
      evaluateHere settings host root m.store.scopes.size m.fresh :=
    chartHere_fst settings host root m.store.scopes.size m.fresh
  have hspent : ¬ Run.Spent (chart settings budget root m.store.scopes.size m.fresh).1 := by
    rw [hplain]
    exact not_exists.2 hhost
  obtain ⟨children, htrees⟩ := exists_tree_of_chart hspent
  have horderly := chart_orderly settings budget root m.store.scopes.size m.fresh hmax
  have hdebug : settings.debug := rfl
  have hlines := chart_lines hdebug budget root m.store.scopes.size m.fresh
  rw [htrees, preorderAll_singleton] at horderly hlines
  have hinterpret : interpret settings host root m =
      Run.conclude settings m.depth (chart settings budget root m.store.scopes.size m.fresh).1 := by
    rw [interpret_apply, chart, observe_fst]
  have hbudget : budget < decimalBound := Nat.lt_of_le_of_lt (Nat.min_le_right ..) hframes
  refine ⟨.node root.kind children, Prod.ext hplain htrees, ?_, rfl, ?_, ?_, ?_, ?_⟩
  · rw [hinterpret, Machine.lines, Run.trace_conclude]
    exact hlines
  · intro i line next hline hnext
    have hprecedes := horderly.precedes hline hnext
    have hbelow : next ∈ preorderAll (0 + 1) children := List.mem_of_getElem? (i := i) hnext
    refine ⟨le_depth_of_mem_preorderAll hbelow, hprecedes.step,
      horderly.within next (List.mem_of_getElem? hnext), fun hleaf hdeeper => ?_⟩
    have hbranch := hprecedes.deeper.1 hdeeper
    rw [hleaf] at hbranch
    cases hbranch
  · intro i line hline hleaf habove
    obtain ⟨next, hnext⟩ := horderly.exists_next hspent hline hleaf habove
    exact ⟨next, hnext, (horderly.precedes hline hnext).deeper.2 hleaf⟩
  · rw [hinterpret, Run.conclude_eq_stackExhausted_iff hspent]
    refine horderly.cut.trans ?_
    rw [chart, observe_fst]
    exact exhausted_evaluate_iff hmax rfl hbudget
  · exact fun i line hline hlimit => horderly.length_eq_of_limit hline hlimit

/-- A pair whose first component is printed, and whose second one is too deep. -/
theorem trace_is_preorder_refused :
    let root : Node := .tuple (.print (.str "a" none) none)
      (.first (.print (.int 1 none) none) none) none
    (Run.machine (interpret ⟨3, true⟩ .standard root {})).lines =
      [⟨.tuple, 0⟩, ⟨.print, 1⟩, ⟨.str, 2⟩, ⟨.first, 1⟩, ⟨.print, 2⟩, ⟨.int, 3⟩] ∧
    ∃ allowed location m', interpret ⟨3, true⟩ .standard root {} =
      .error (.error (.stackExhausted allowed) location) m' := by
  intro root
  have hhost : ∀ m', evaluateHere ⟨3, true⟩ .standard root 0 (Machine.fresh {}) ≠
      .error .nesting m' := fun m' => by
    rw [evaluateHere_apply]
    exact evaluate_ne_nesting (by decide) root 0 m'
  have hpreorder : preorderAll 0 (chartHere ⟨3, true⟩ .standard root 0 (Machine.fresh {})).2 =
      [⟨.tuple, 0⟩, ⟨.print, 1⟩, ⟨.str, 2⟩, ⟨.first, 1⟩, ⟨.print, 2⟩, ⟨.int, 3⟩] := by
    decide +kernel
  obtain ⟨tree, hchart, hlines, -, -, -, hcut, -⟩ :=
    trace_is_preorder 3 (by decide) .standard root {} (by decide +kernel) hhost
  have htree : (chartHere ⟨3, true⟩ .standard root 0 (Machine.fresh {})).2 = [tree] :=
    congrArg Prod.snd hchart
  rw [htree, preorderAll_singleton] at hpreorder
  rw [hpreorder] at hlines hcut
  exact ⟨hlines, hcut.1 ⟨⟨.int, 3⟩, by decide, rfl⟩⟩

end Rinha
