import Rinha.Proofs.Observation
import Rinha.Proofs.Occurrence

/-!
# Runs with a history

Evaluation forgets where in the program the node that it evaluates stands: a closure keeps the body
of its function, and not the functions around it.  A tracked run keeps a history beside the machine.
The history says which nodes were evaluated, in which scopes and under which functions, and which
visit to a function made each closure.

## Main definitions

* `Enclosure`, `Visit`, `History` -- a function around a node, the evaluation of a node, and all of
  them so far.
* `tracker`, `track`, `trackProgram` -- evaluation, and a run of a program, with a history.
* `trackProgram_fst` -- without its history, a tracked run of a program is a run of it.
-/

namespace Rinha

/-- A function around a node. -/
structure Enclosure where
  parameters : List String
  body : Node

/-- The names that a scope of a call of the function may bind. -/
def Enclosure.names (f : Enclosure) : List String :=
  f.parameters ++ f.body.letNames

/-- The evaluation of a node: the functions around the node, innermost first, the scope, and the
store as the evaluation starts. -/
structure Visit where
  around : List Enclosure
  node : Node
  scope : ScopeId
  store : Store

/-- The functions around the body of a function that is visited. -/
def Visit.aroundBody (visit : Visit) : List Enclosure :=
  match visit.node with
  | .function parameters body _ => ⟨parameters, body⟩ :: visit.around
  | _ => visit.around

/-- What happened in a run so far: the visits, newest first, the visit that made each closure, and
the functions that each scope belongs to, innermost first. -/
structure History where
  visits : List Visit := []
  origins : Nat → Option Visit := fun _ => none
  owners : ScopeId → List Enclosure := fun _ => []

namespace History

/-- The history after a node starts to be evaluated. -/
def visited (h : History) (visit : Visit) : History :=
  { h with visits := visit :: h.visits }

/-- The history after a closure is made. -/
def closed (h : History) (id : Nat) (visit : Visit) : History :=
  { h with origins := fun other => if other = id then some visit else h.origins other }

/-- The history after the scope of a call is made. -/
def entered (h : History) (scope : ScopeId) (around : List Enclosure) : History :=
  { h with owners := fun other => if other = scope then around else h.owners other }

/-- The functions around the body of a closure. -/
def aroundBody (h : History) (id : Nat) : List Enclosure :=
  match h.origins id with
  | some visit => visit.aroundBody
  | none => []

end History

/-- What becomes of a history in a computation that is done under given functions. -/
abbrev Tracking :=
  List Enclosure → History → History

/-- The visit of a node that stands under given functions. -/
def Site.visit (site : Site) (around : List Enclosure) : Visit :=
  ⟨around, site.node, site.scope, site.start.store⟩

/-- Keeps a history.  A child stands under the functions that its node does; the body of a closure
stands under those of the visit that made the closure. -/
def tracker : Observer Tracking where
  spent site around h := h.visited (site.visit around)
  refused site _ around h := h.visited (site.visit around)
  granted site _ inner _ around h := inner around (h.visited (site.visit around))
  still _ _ _ h := h
  acted _ _ after := after
  closed site m _ _ around h := h.closed m.store.nextClosure (site.visit around)
  followed child after around h := after around (child around h)
  entered _ m id body _ h :=
    body (h.aroundBody id) (h.entered m.store.scopes.size (h.aroundBody id))

/-- A tracked computation under given functions, from the history so far. -/
def Run.tracked (around : List Enclosure) (h : History)
    (outcome : EStateM.Result Halt Machine Value × Tracking) :
    EStateM.Result Halt Machine Value × History :=
  (outcome.1, outcome.2 around h)

/-- Evaluates a node with a history, within a budget of nested evaluations. -/
def track (settings : Settings) (budget : Nat) (around : List Enclosure) (node : Node)
    (scope : ScopeId) (m : Machine) (h : History) : EStateM.Result Halt Machine Value × History :=
  Run.tracked around h (observe tracker settings budget node scope m)

/-- Runs a tree in a new scope that binds nothing, with a history that starts then. -/
def trackProgram (settings : Settings) (host : Limits) (root : Node) (m : Machine) :
    EStateM.Result Halt Machine Value × History :=
  let start : Machine := { m with store := (m.store.newScope none []).2, depth := 0 }
  let budget := settings.budgetOn host 0
  match track settings budget [] root m.store.scopes.size start {} with
  | (.ok value m', h) => (.ok value { m' with depth := m.depth }, h)
  | (.error halt m', h) => (.error (settings.exhausted halt) { m' with depth := m.depth }, h)

/-- Without its history, a tracked evaluation is an evaluation. -/
theorem track_fst (settings : Settings) (budget : Nat) (around : List Enclosure) (node : Node)
    (scope : ScopeId) (m : Machine) (h : History) :
    (track settings budget around node scope m h).1 = evaluate settings budget node scope m :=
  observe_fst tracker settings budget node scope m

/-- Without its history, a tracked run of a program is a run of it. -/
theorem trackProgram_fst (settings : Settings) (host : Limits) (root : Node) (m : Machine) :
    (trackProgram settings host root m).1 = interpret settings host root m := by
  have hnew : Run.newScope none [] m =
      .ok m.store.scopes.size { m with store := (m.store.newScope none []).2 } := rfl
  simp only [interpret, Run.bind_apply, hnew, evaluateProgram, evaluateHere_apply, trackProgram,
    ← track_fst settings _ [] root m.store.scopes.size _ {}]
  cases track settings (settings.budgetOn host 0) [] root m.store.scopes.size
    { m with store := (m.store.newScope none []).2, depth := 0 } {} with
  | mk result h => cases result <;> rfl

end Rinha
