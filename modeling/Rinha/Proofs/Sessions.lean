import Mathlib.Logic.Relation
import Rinha.Proofs.Frame
import Rinha.Proofs.Validity
import Rinha.Session

/-!
# Sessions keep their stores valid

A session starts without scopes.  Whatever it is then asked to do, and however each step ends, every
scope hangs off an older one, every value is one of the language whose closures were made over
scopes that exist, and no scope is lost.

## Main definitions

* `Command.Valid` -- the values that a command brings with it are over scopes of the session.
* `Session.Step` -- a session goes on with a valid command.
* `Store.Persists` -- the scopes of a store are those of a later one.
* `Session.Valid`, `Session.Valid.perform` -- the invariant of sessions, and that commands keep it.
-/

namespace Rinha

/-- The values that a command brings with it are values of the language over the first scopes. -/
def Command.Valid (size : Nat) : Command → Prop
  | .create _ _ bindings => ∀ binding ∈ bindings, binding.2.Valid size
  | .define _ _ value => value.Valid size
  | _ => True

/-- A session goes on with a command that brings valid values with it, whether or not the command
succeeds. -/
def Session.Step (session next : Session) : Prop :=
  ∃ command : Command, command.Valid session.machine.store.scopes.size ∧
    (session.perform command).2 = next

/-! ## No scope is lost -/

/-- Every scope of a store is one of a later store, and hangs off the same scope there. -/
def Store.Persists (s s' : Store) : Prop :=
  ∀ (id : ScopeId) (scope : Scope), s.scopes[id]? = some scope →
    ∃ scope' : Scope, s'.scopes[id]? = some scope' ∧ scope'.parent = scope.parent

namespace Store.Persists

variable {s s' s'' : Store}

theorem refl (s : Store) : s.Persists s :=
  fun _ scope hscope => ⟨scope, hscope, rfl⟩

theorem trans (h : s.Persists s') (h' : s'.Persists s'') : s.Persists s'' := by
  intro id scope hscope
  obtain ⟨scope', hscope', hparent⟩ := h id scope hscope
  obtain ⟨scope'', hscope'', hparent'⟩ := h' id scope' hscope'
  exact ⟨scope'', hscope'', hparent'.trans hparent⟩

theorem of_framed {e : ScopeId} {names : List String} (h : s.Framed e names s') :
    s.Persists s' := by
  intro id scope hscope
  obtain ⟨scope', hscope', hkept, -⟩ := h id scope hscope
  exact ⟨scope', hscope', hkept.parent⟩

theorem newScope (s : Store) (parent : Option ScopeId) (bindings : Bindings) :
    s.Persists (s.newScope parent bindings).2 :=
  fun _ scope hscope => ⟨scope, scopes_newScope_of_eq_some hscope parent bindings, rfl⟩

theorem lt_size (h : s.Persists s') {e : ScopeId} (he : e < s.scopes.size) :
    e < s'.scopes.size := by
  obtain ⟨scope', hscope', -⟩ := h e _ (Array.getElem?_eq_getElem he)
  exact (Array.getElem?_eq_some_iff.1 hscope').1

theorem size_le (h : s.Persists s') : s.scopes.size ≤ s'.scopes.size :=
  Nat.le_of_not_lt fun hlt => Nat.lt_irrefl _ (h.lt_size hlt)

end Store.Persists

/-! ## What one command does -/

/-- How an evaluation in a valid store ends that loses no scope. -/
structure Run.Preserves (m : Machine) (result : EStateM.Result Halt Machine Value) : Prop
    extends Run.Keeps m result where
  persists : m.store.Persists (Run.machine result).store

section

variable {m : Machine} {e : ScopeId}

/-- What is evaluated in a later store is evaluated after all that the earlier one has. -/
theorem Run.Preserves.after {start : Machine} {result : EStateM.Result Halt Machine Value}
    (h : Run.Preserves start result) (hstart : m.store.Persists start.store) :
    Run.Preserves m result :=
  ⟨h.toKeeps.of_le hstart.size_le, hstart.trans h.persists⟩

theorem evaluate_preserves (settings : Settings) (budget : Nat) (node : Node) (hm : m.store.Valid)
    (he : e < m.store.scopes.size) : Run.Preserves m (evaluate settings budget node e m) :=
  ⟨evaluate_keeps settings budget node e m hm he,
    .of_framed (evaluate_framed settings budget node e m)⟩

theorem evaluateHere_preserves (settings : Settings) (host : Limits) (node : Node)
    (hm : m.store.Valid) (he : e < m.store.scopes.size) :
    Run.Preserves m (evaluateHere settings host node e m) := by
  rw [evaluateHere_apply]
  exact evaluate_preserves settings _ node hm he

/-- Where a run ends in depth, and how a halt of the host is told, has no bearing on the store. -/
theorem Run.Preserves.conclude {result : EStateM.Result Halt Machine Value}
    (h : Run.Preserves m result) (settings : Settings) (depth : Int) :
    Run.Preserves m (Run.conclude settings depth result) := by
  cases result with
  | error halt m' => exact ⟨.error h.store h.grows, h.persists⟩
  | ok x m' => exact ⟨.ok h.store h.grows (h.value x m' rfl), h.persists⟩

theorem evaluateProgram_preserves (settings : Settings) (host : Limits) (node : Node)
    (hm : m.store.Valid) (he : e < m.store.scopes.size) :
    Run.Preserves m (evaluateProgram settings host node e m) := by
  rw [evaluateProgram_apply]
  have h := evaluate_preserves (m := { m with depth := 0 }) settings
    (settings.budgetOn host 0) node hm he
  exact (h.after (.refl m.store)).conclude settings m.depth

theorem interpret_preserves (settings : Settings) (host : Limits) (root : Node)
    (hm : m.store.Valid) : Run.Preserves m (interpret settings host root m) := by
  rw [interpret_apply]
  have hfresh : m.fresh.store.Valid := hm.newScope (by simp) (by simp)
  have hscope : m.store.scopes.size < m.fresh.store.scopes.size := by simp [Machine.fresh]
  have h := evaluate_preserves (m := m.fresh) settings (settings.budgetOn host 0)
    root hfresh hscope
  exact (h.after (.newScope m.store none [])).conclude settings m.depth

theorem fromZero_preserves {body : Run Value} (h : Run.Preserves m (body { m with depth := 0 })) :
    Run.Preserves m (Session.fromZero body m) := by
  simp only [Session.fromZero]
  cases hresult : body { m with depth := 0 } with
  | error halt m' =>
    rw [hresult] at h
    exact ⟨.error h.store h.grows, h.persists⟩
  | ok x m' =>
    rw [hresult] at h
    exact ⟨.ok h.store h.grows (h.value x m' rfl), h.persists⟩

end

/-- How an action on a valid store ends: the store is valid and has all the scopes that there were,
and a value that is yielded is valid in it. -/
structure Run.Sound (m : Machine) (result : EStateM.Result Halt Machine (Option Value)) : Prop where
  store : (Run.machine result).store.Valid
  persists : m.store.Persists (Run.machine result).store
  value : ∀ x m', result = .ok (some x) m' → x.Valid m'.store.scopes.size

namespace Run.Sound

variable {m m' : Machine}

theorem error {halt : Halt} (hm : m.store.Valid) : Run.Sound m (.error halt m) :=
  ⟨hm, .refl _, fun _ _ h => nomatch h⟩

theorem nothing (hstore : m'.store.Valid) (hpersists : m.store.Persists m'.store) :
    Run.Sound m (.ok none m') :=
  ⟨hstore, hpersists, fun _ _ h => nomatch h⟩

/-- An action that yields the value of an evaluation. -/
theorem of_preserves {run : Run Value} (hrun : Run.Preserves m (run m)) :
    Run.Sound m ((do return some (← run)) m) := by
  rw [bind_apply]
  cases h : run m with
  | error halt m' =>
    rw [h] at hrun
    exact ⟨hrun.store, hrun.persists, fun _ _ hx => nomatch hx⟩
  | ok x m' =>
    rw [h] at hrun
    refine ⟨hrun.store, hrun.persists, ?_⟩
    rintro _ _ ⟨⟩
    exact hrun.value x m' rfl

end Run.Sound

/-- The invariant of sessions: the store is valid, and names are of scopes that it has. -/
structure Session.Valid (session : Session) : Prop where
  store : session.machine.store.Valid
  names : ∀ entry ∈ session.names, entry.2 < session.machine.store.scopes.size

namespace Session

variable {session : Session} {m : Machine} {command : Command}

theorem Valid.lt_size (h : session.Valid) {name : String} {id : ScopeId}
    (hid : session.scope? name = some id) : id < session.machine.store.scopes.size := by
  obtain ⟨entry, hentry, rfl⟩ := Option.map_eq_some_iff.1 hid
  exact h.names entry (List.mem_of_find?_eq_some hentry)

/-- An action in a scope that must exist is one in a scope of the store, or nothing happens. -/
theorem Valid.inScope (h : session.Valid) (hm : m.store = session.machine.store) (name : String)
    {next : ScopeId → Run (Option Value)}
    (hnext : ∀ id, id < m.store.scopes.size → Run.Sound m (next id m)) :
    Run.Sound m ((session.scope name >>= next) m) := by
  rw [Run.bind_apply, Session.scope]
  cases hid : session.scope? name with
  | none => exact .error (hm ▸ h.store)
  | some id => exact hnext id (hm ▸ h.lt_size hid)

/-- What a valid command does to the machine of a session is sound. -/
theorem Valid.action (h : session.Valid) (hm : m.store = session.machine.store)
    (hcommand : command.Valid m.store.scopes.size) : Run.Sound m (session.action command m) := by
  have hstore : m.store.Valid := hm ▸ h.store
  cases command with
  | create name parent bindings =>
    have hparent : ∀ p ∈ parent.bind session.scope?, p < m.store.scopes.size := by
      intro p hp
      obtain ⟨other, -, hid⟩ := Option.bind_eq_some_iff.1 hp
      exact hm ▸ h.lt_size hid
    refine .nothing (hstore.newScope hparent fun binding hbinding => ?_) (.newScope m.store _ _)
    exact hcommand binding ((Bindings.mem_foldl_set hbinding).resolve_right List.not_mem_nil)
  | branch name parent =>
    refine h.inScope hm parent fun id hid => ?_
    exact .nothing (hstore.newScope (by simpa using hid) (by simp)) (.newScope m.store _ _)
  | define scope name value =>
    refine h.inScope hm scope fun id _ => ?_
    have hframed : m.store.Framed id [name] (m.store.define id name value) :=
      .define List.mem_cons_self m.store value
    exact .nothing (hstore.define hcommand id name) (.of_framed hframed)
  | lookup scope name =>
    refine h.inScope hm scope fun id _ => .of_preserves ?_
    rw [Run.lookup_apply]
    cases hx : m.store.lookup id name with
    | none => exact ⟨.error hstore (Nat.le_refl _), .refl _⟩
    | some x => exact ⟨.ok hstore (Nat.le_refl _) (hstore.lookup hx), .refl _⟩
  | evaluate scope node =>
    exact h.inScope hm scope fun id hid =>
      .of_preserves (evaluateProgram_preserves session.settings session.host node hstore hid)
  | interpret node =>
    exact .of_preserves (interpret_preserves session.settings session.host node hstore)
  | resume scope node =>
    exact h.inScope hm scope fun id hid =>
      .of_preserves (evaluateHere_preserves session.settings session.host node hstore hid)
  | evaluateAfresh scope node =>
    refine h.inScope hm scope fun id hid => .of_preserves (fromZero_preserves ?_)
    have hhere :=
      evaluateHere_preserves (m := { m with depth := 0 }) {} session.host node hstore hid
    exact hhere.after (.refl m.store)
  | setDepth depth => exact .nothing hstore (.refl _)

/-- A command that names a scope and succeeds leaves a store that has one. -/
theorem size_pos_of_action {name : String} {x : Option Value} {m' : Machine}
    (hcommand : (∃ parent bindings, command = .create name parent bindings) ∨
      ∃ parent, command = .branch name parent)
    (haction : session.action command m = .ok x m') : 0 < m'.store.scopes.size := by
  rcases hcommand with ⟨parent, bindings, rfl⟩ | ⟨parent, rfl⟩
  · cases haction
    simp
  · simp only [action, Run.bind_apply, scope] at haction
    cases hid : session.scope? parent with
    | none =>
      rw [hid] at haction
      cases haction
    | some id =>
      rw [hid] at haction
      cases haction
      simp

/-- The names after a command are of scopes that the machine then has. -/
theorem Valid.namesAfter (h : session.Valid) {x : Option Value} {m' : Machine}
    (hpersists : session.machine.store.Persists m'.store)
    (haction : session.action command m = .ok x m') (entry : String × ScopeId)
    (hentry : entry ∈ session.namesAfter m' command) : entry.2 < m'.store.scopes.size := by
  have hold : ∀ entry ∈ session.names, entry.2 < m'.store.scopes.size :=
    fun entry hentry => hpersists.lt_size (h.names entry hentry)
  cases command with
  | create name parent bindings =>
    rcases List.mem_cons.1 hentry with rfl | hentry
    · exact Nat.sub_one_lt_of_lt (size_pos_of_action (.inl ⟨parent, bindings, rfl⟩) haction)
    · exact hold entry hentry
  | branch name parent =>
    rcases List.mem_cons.1 hentry with rfl | hentry
    · exact Nat.sub_one_lt_of_lt (size_pos_of_action (.inr ⟨parent, rfl⟩) haction)
    · exact hold entry hentry
  | _ => exact hold entry hentry

/-- A valid command keeps the invariant of sessions, loses no scope and yields a valid value if
any. -/
theorem Valid.perform (h : session.Valid)
    (hcommand : command.Valid session.machine.store.scopes.size) :
    (session.perform command).2.Valid ∧
    session.machine.store.Persists (session.perform command).2.machine.store ∧
    ∀ x, (session.perform command).1.result = .ok (some x) →
      x.Valid (session.perform command).2.machine.store.scopes.size := by
  have hsound := h.action (m := { session.machine with output := "" }) rfl hcommand
  simp only [Session.perform]
  cases haction : session.action command { session.machine with output := "" } with
  | error halt m' =>
    rw [haction] at hsound
    have hpersists : session.machine.store.Persists m'.store := hsound.persists
    exact ⟨⟨hsound.store, fun entry hentry => hpersists.lt_size (h.names entry hentry)⟩,
      hpersists, fun _ hx => nomatch hx⟩
  | ok y m' =>
    rw [haction] at hsound
    have hpersists : session.machine.store.Persists m'.store := hsound.persists
    refine ⟨⟨hsound.store, h.namesAfter hpersists haction⟩, hpersists, ?_⟩
    rintro x ⟨⟩
    exact hsound.value x m' rfl

/-! ## What any number of commands do -/

theorem Step.valid {next : Session} (h : session.Valid) (hstep : session.Step next) :
    next.Valid := by
  obtain ⟨command, hcommand, rfl⟩ := hstep
  exact (h.perform hcommand).1

/-- A session without scopes is valid. -/
theorem valid_start (settings : Settings) (host : Limits) :
    Valid { settings := settings, host := host } :=
  ⟨⟨by simp [Store.WellFormed], by simp⟩, by simp⟩

theorem valid_of_steps {next : Session} (h : session.Valid)
    (hsteps : Relation.ReflTransGen Step session next) : next.Valid := by
  induction hsteps with
  | refl => exact h
  | tail _ hstep ih => exact hstep.valid ih

theorem persists_of_steps {next : Session} (h : session.Valid)
    (hsteps : Relation.ReflTransGen Step session next) :
    session.machine.store.Persists next.machine.store := by
  induction hsteps with
  | refl => exact .refl _
  | tail hsteps hstep ih =>
    obtain ⟨command, hcommand, rfl⟩ := hstep
    exact ih.trans ((valid_of_steps h hsteps).perform hcommand).2.1

end Session

/-- **Stores stay valid over whole sessions.**  After any commands that bring valid values with
them, each of which succeeds or fails, every scope hangs off an older one.  So every search for a
name comes to an end: it finds the value that the scopes outwards give the name, or none of them
binds it.  All values in scopes are of the language, over scopes that exist, and so is every value
that a further command yields.  No scope is ever lost, nor moved to hang off another one. -/
theorem session_store_valid (settings : Settings) (host : Limits) (session : Session)
    (h : Relation.ReflTransGen Session.Step { settings := settings, host := host } session) :
    (∀ (id : ScopeId) (scope : Scope), session.machine.store.scopes[id]? = some scope →
      ∀ parent, scope.parent = some parent → parent < id) ∧
    (∀ (e : ScopeId) (name : String), e < session.machine.store.scopes.size →
      (∃ x, session.machine.store.lookup e name = some x ∧
        session.machine.store.Resolves name e x) ∨
      (session.machine.store.lookup e name = none ∧ session.machine.store.Unbound name e)) ∧
    (∀ (id : ScopeId) (scope : Scope), session.machine.store.scopes[id]? = some scope →
      ∀ binding ∈ scope.bindings, binding.2.Valid session.machine.store.scopes.size) ∧
    (∀ command : Command, command.Valid session.machine.store.scopes.size →
      ∀ x, (session.perform command).1.result = .ok (some x) →
        x.Valid (session.perform command).2.machine.store.scopes.size) ∧
    ∀ later, Relation.ReflTransGen Session.Step session later →
      session.machine.store.Persists later.machine.store := by
  have hvalid : session.Valid := Session.valid_of_steps (Session.valid_start settings host) h
  have hparents : session.machine.store.WellFormed := hvalid.store.parents
  refine ⟨hparents, ?_, hvalid.store.values, fun command hcommand => (hvalid.perform hcommand).2.2,
    fun later hlater => Session.persists_of_steps hvalid hlater⟩
  intro e name he
  rcases Store.resolves_or_unbound hparents name e he with ⟨x, hx⟩ | hunbound
  · exact .inl ⟨x, (Store.lookup_eq_some_iff hparents he).2 hx, hx⟩
  · exact .inr ⟨(Store.lookup_eq_none_iff hparents he).2 hunbound, hunbound⟩

/-- A session whose second step fails after it has bound a function that captures the scope. -/
theorem session_store_valid_after_failure :
    let create : Command := .create "top" none [("n", .int 1)]
    let evaluate : Command := .evaluate "top" (.letIn "f" (.function ["x"] (.var "f" none) none)
      (.first (.var "n" none) none) none)
    let made : Session := (Session.perform {} create).2
    let session : Session := (made.perform evaluate).2
    (made.perform evaluate).1.result = .error (.unlocated (.notATuple "Int" "First")) ∧
    session.machine.store.lookup 0 "f" = some (.closure 0 ["x"] (.var "f" none) 0) ∧
    session.machine.store.Resolves "f" 0 (.closure 0 ["x"] (.var "f" none) 0) := by
  intro create evaluate made session
  have hcreate : create.Valid 0 := by
    intro binding hbinding
    obtain rfl := List.mem_singleton.1 hbinding
    trivial
  have hsteps : Relation.ReflTransGen Session.Step {} session :=
    .tail (.tail .refl ⟨create, hcreate, rfl⟩) ⟨evaluate, trivial, rfl⟩
  have hlookup : session.machine.store.lookup 0 "f" =
      some (.closure 0 ["x"] (.var "f" none) 0) := rfl
  refine ⟨rfl, hlookup, ?_⟩
  rcases (session_store_valid {} .standard session hsteps).2.1 0 "f" (by decide) with
    ⟨x, hx, hresolves⟩ | ⟨hnone, -⟩
  · rw [hlookup] at hx
    exact Option.some.inj hx ▸ hresolves
  · rw [hlookup] at hnone
    cases hnone

end Rinha
