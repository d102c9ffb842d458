import Rinha.Evaluation

/-!
# Sessions

A session keeps scopes under names and evaluates nodes in them one after the other.  Everything that
one step leaves in the store is there for the next, also when the step fails.  A session has a depth
of its own, from which nodes can be evaluated as if they were nested that deeply.

## Main definitions

* `Session` -- the machine, the named scopes and the settings.
* `Command` -- what a session can be asked to do.
* `Reply` -- the result of a command and what it printed.
* `Session.perform` -- carries out a command.
-/

namespace Rinha

/-- The state of a session. -/
structure Session where
  settings : Settings := {}
  host : Limits := .standard
  machine : Machine := {}
  names : List (String × ScopeId) := []

/-- What a session can be asked to do. -/
inductive Command where
  /-- Make a scope with given bindings and name it.  It hangs off the scope of another name, if one
  is given and there is such a scope. -/
  | create (name : String) (parent : Option String) (bindings : Bindings)
  /-- Make an empty scope off another one, which must exist, and name it. -/
  | branch (name parent : String)
  /-- Bind a name in a scope. -/
  | define (scope name : String) (value : Value)
  /-- Look a name up from a scope. -/
  | lookup (scope name : String)
  /-- Evaluate a node in a scope, from depth zero. -/
  | evaluate (scope : String) (node : Node)
  /-- Evaluate a node in a scope of its own, from depth zero. -/
  | interpret (node : Node)
  /-- Evaluate a node in a scope, from the depth of the session. -/
  | resume (scope : String) (node : Node)
  /-- Evaluate a node in a scope, from depth zero and with the default settings. -/
  | evaluateAfresh (scope : String) (node : Node)
  /-- Set the depth of the session. -/
  | setDepth (depth : Int)

/-- The result of a command and what it printed. -/
structure Reply where
  result : Except Halt (Option Value)
  output : String

namespace Session

/-- The scope of a given name. -/
def scope? (session : Session) (name : String) : Option ScopeId :=
  (session.names.find? fun entry => entry.1 == name).map Prod.snd

/-- A scope that must exist. -/
def scope (session : Session) (name : String) : Run ScopeId :=
  match session.scope? name with
  | some id => pure id
  | none => throw (.fault (.missing name))

/-- A computation from depth zero, after which the depth is what it was. -/
def fromZero {α : Type} (body : Run α) : Run α := fun m =>
  match body { m with depth := 0 } with
  | .ok value m' => .ok value { m' with depth := m.depth }
  | .error halt m' => .error halt { m' with depth := m.depth }

/-- What a command does to the machine. -/
def action (session : Session) : Command → Run (Option Value)
  | .create _ parent bindings => do
    let bound : Bindings := bindings.foldl (fun done b => done.set b.1 b.2) []
    let _ ← Run.newScope (parent.bind session.scope?) bound
    pure none
  | .branch _ parent => do
    let _ ← Run.newScope (some (← session.scope parent)) []
    pure none
  | .define scope name value => do
    Run.define (← session.scope scope) name value
    pure none
  | .lookup scope name => do return some (← Run.lookup (← session.scope scope) name)
  | .evaluate scope node => do
    return some (← evaluateProgram session.settings session.host node (← session.scope scope))
  | .interpret node => do return some (← Rinha.interpret session.settings session.host node)
  | .resume scope node => do
    return some (← evaluateHere session.settings session.host node (← session.scope scope))
  | .evaluateAfresh scope node => do
    return some (← fromZero (evaluateHere {} session.host node (← session.scope scope)))
  | .setDepth depth => do
    modify fun m => { m with depth := depth }
    pure none

/-- The names of a session after a command that left the given machine: a scope that was made is
the last one. -/
def namesAfter (session : Session) (machine : Machine) : Command → List (String × ScopeId)
  | .create name _ _ | .branch name _ => (name, machine.store.scopes.size - 1) :: session.names
  | _ => session.names

/-- Carries out a command. -/
def perform (session : Session) (command : Command) : Reply × Session :=
  match session.action command { session.machine with output := "" } with
  | .ok value m =>
    (⟨.ok value, m.output⟩, { session with machine := m, names := session.namesAfter m command })
  | .error halt m => (⟨.error halt, m.output⟩, { session with machine := m })

end Session

end Rinha
