import Rinha.Proofs.Correspondence
import Rinha.Proofs.Plan
import Rinha.Session

/-!
# Runs are isolated

An evaluation depends on nothing but what can be reached from its scope.  In two stores that match
up to a correspondence, evaluating a node in corresponding scopes prints the same text and ends in
the same way: with the same error, or with corresponding values.  The stores then match up to a
correspondence that extends the first one.  So a whole program, which is run in a scope of its own,
is answered the same whatever was done before.

## Main definitions

* `Plan.Matches` -- plans that are the same up to a correspondence, for all values that children may
  yield under its extensions.
* `Run.Ends`, `Run.Agree`, `Run.Alike` -- two evaluations that cannot be told apart.
* `evaluate_alike` -- evaluations in corresponding scopes cannot be told apart.
* `Reply.shown` -- what can be seen of a reply.
-/

namespace Rinha

/-! ## Plans -/

namespace Plan

/-- Plans that are the same up to a correspondence.  It may be extended whenever a child is
evaluated, and the values of children correspond as it is then. -/
inductive Matches : Correspondence → Plan → Plan → Prop
  | ok {c : Correspondence} {x x' : Value} :
    x.Matches c x' → Matches c (done (.ok x)) (done (.ok x'))
  | error {c : Correspondence} (halt : Halt) : Matches c (done (.error halt)) (done (.error halt))
  | write {c : Correspondence} (text : String) {rest rest' : Plan} :
    Matches c rest rest' → Matches c (write text rest) (write text rest')
  | define {c : Correspondence} (name : String) {x x' : Value} {rest rest' : Plan} :
    x.Matches c x' → Matches c rest rest' → Matches c (define name x rest) (define name x' rest')
  | fetch {c : Correspondence} (name : String) : Matches c (fetch name) (fetch name)
  | close {c : Correspondence} (parameters : List String) (body : Node) :
    Matches c (close parameters body) (close parameters body)
  | child {c : Correspondence} (node : Node) {rest rest' : Value → Plan} :
    (∀ c', c ≤ c' → ∀ x x' : Value, x.Matches c' x' → Matches c' (rest x) (rest' x')) →
    Matches c (child node rest) (child node rest')
  | enter {c : Correspondence} {id id' : Nat} (parameters : List String) (body : Node)
      {captured captured' : ScopeId} {values values' : List Value} :
    captured' ∈ c.scopes captured → List.Forall₂ (Value.Matches c) values values' →
    Matches c (enter id parameters body captured values)
      (enter id' parameters body captured' values')

variable {c : Correspondence}

theorem matches_last (node : Node) : Matches c (last node) (last node) :=
  .child node fun _ _ _ _ hx => .ok hx

theorem matches_children {nodes : List Node} {rest rest' : List Value → Plan}
    (hrest : ∀ c', c ≤ c' → ∀ values values' : List Value,
      List.Forall₂ (Value.Matches c') values values' → Matches c' (rest values) (rest' values')) :
    Matches c (children nodes rest) (children nodes rest') := by
  induction nodes generalizing rest rest' c with
  | nil => exact hrest c (le_refl c) [] [] .nil
  | cons node nodes ih =>
    refine .child node fun c₁ hc₁ x x' hx => ih fun c₂ hc₂ values values' hvalues => ?_
    exact hrest c₂ (hc₁.trans hc₂) _ _ (.cons (hx.mono hc₂) hvalues)

/-- The results of an operator at corresponding operands. -/
theorem matches_apply (op : Operator) {x x' y y' : Value} (hx : x.Matches c x')
    (hy : y.Matches c y') : Matches c (done (op.apply x y)) (done (op.apply x' y')) := by
  rw [op.apply_eq_of_matches hx hy]
  cases h : op.apply x' y' with
  | error halt => exact .error halt
  | ok z => exact .ok (Value.matches_self c (Operator.tag_of_apply h))

/-- The plan of a node is the same up to any correspondence. -/
theorem matches_ofNode (node : Node) (c : Correspondence) :
    Matches c (ofNode node) (ofNode node) := by
  cases node with
  | str value l => exact .ok (.str value)
  | int value l => exact .ok (.int value)
  | bool value l => exact .ok (.bool value)
  | var name l => exact .fetch name
  | function parameters body l => exact .close parameters body
  | print operand l =>
    refine .child operand fun c' _ x x' hx => ?_
    simp only [hx.printed_eq]
    cases x'.printed with
    | ok text => exact .write text (.ok hx)
    | error refusal => exact .error (.digits refusal)
  | letIn name operand next l =>
    exact .child operand fun c' _ x x' hx => .define name hx (matches_last next)
  | cond condition then_ otherwise l =>
    refine .child condition fun c' _ x x' hx => ?_
    simp only [hx.isTruthy_eq]
    split <;> exact matches_last _
  | call callee arguments l =>
    refine .child callee fun c' _ x x' hx => ?_
    cases hx with
    | closure parameters body _ hcaptured =>
      by_cases h : arguments.length = parameters.length
      · rw [calling_of_length_eq h, calling_of_length_eq h]
        refine matches_children fun c'' hc'' values values' hvalues => ?_
        exact .enter parameters body (Correspondence.mem_scopes_of_le hc'' hcaptured) hvalues
      · rw [calling_of_length_ne h, calling_of_length_ne h]
        exact .error _
    | _ => exact .error _
  | binary op lhs rhs l =>
    refine .child lhs fun c' _ x x' hx => ?_
    have hop : ∀ op : Operator, Matches c' (child rhs fun right => done (op.apply x right))
        (child rhs fun right => done (op.apply x' right)) :=
      fun op => .child rhs fun c'' hc'' y y' hy => matches_apply op (hx.mono hc'') hy
    cases op with
    | and =>
      simp only [hx.isTruthy_eq]
      split
      · exact matches_last rhs
      · exact .ok hx
    | or =>
      simp only [hx.isTruthy_eq]
      split
      · exact .ok hx
      · exact matches_last rhs
    | _ => exact hop _
  | tuple lhs rhs l =>
    refine .child lhs fun c' _ x x' hx => .child rhs fun c'' hc'' y y' hy => ?_
    exact .ok (.tuple (hx.mono hc'') hy)
  | first operand l =>
    refine .child operand fun c' _ x x' hx => ?_
    cases hx with
    | tuple ha hb => exact .ok ha
    | _ => exact .error _
  | second operand l =>
    refine .child operand fun c' _ x x' hx => ?_
    cases hx with
    | tuple ha hb => exact .ok hb
    | _ => exact .error _

end Plan

/-! ## Evaluations -/

namespace Run

/-- Two evaluations end in the same way: with corresponding values, or with the same error. -/
inductive Ends (c : Correspondence) :
    EStateM.Result Halt Machine Value → EStateM.Result Halt Machine Value → Prop
  | ok {x x' : Value} {m m' : Machine} : x.Matches c x' → Ends c (.ok x m) (.ok x' m')
  | error (halt : Halt) {m m' : Machine} : Ends c (.error halt m) (.error halt m')

/-- Two evaluations from two machines agree: both print a text, end at the same depth and in the
same way, and leave stores that match. -/
structure Agree (c : Correspondence) (text : String) (m m' : Machine)
    (result result' : EStateM.Result Halt Machine Value) : Prop where
  left : (machine result).output = m.output ++ text
  right : (machine result').output = m'.output ++ text
  depth : (machine result).depth = (machine result').depth
  store : (machine result).store.Matches c (machine result').store
  ends : Ends c result result'

/-- Two evaluations cannot be told apart: they agree up to an extension of a correspondence. -/
def Alike (c : Correspondence) (m m' : Machine)
    (result result' : EStateM.Result Halt Machine Value) : Prop :=
  ∃ c' text, c ≤ c' ∧ Agree c' text m m' result result'

variable {c c' : Correspondence} {m m' m₁ m₁' : Machine}
  {result result' : EStateM.Result Halt Machine Value}

theorem Agree.leave {text : String} (h : Agree c text m m' result result')
    (location : Option Location) :
    Agree c text m m' (leave location result) (leave location result') := by
  refine ⟨by simp [h.left], by simp [h.right], by simp [h.depth], by simpa using h.store, ?_⟩
  cases h.ends with
  | ok hx => exact .ok hx
  | error halt => exact .error (halt.within location)

namespace Alike

theorem ok (hdepth : m.depth = m'.depth) (hstore : m.store.Matches c m'.store) {x x' : Value}
    (hx : x.Matches c x') : Alike c m m' (.ok x m) (.ok x' m') :=
  ⟨c, "", le_refl c, by simp, by simp, hdepth, hstore, .ok hx⟩

theorem error (hdepth : m.depth = m'.depth) (hstore : m.store.Matches c m'.store) (halt : Halt) :
    Alike c m m' (.error halt m) (.error halt m') :=
  ⟨c, "", le_refl c, by simp, by simp, hdepth, hstore, .error halt⟩

/-- What comes after two machines have printed the same text. -/
theorem after (h : Alike c' m₁ m₁' result result') (hc : c ≤ c') {text : String}
    (hm : m₁.output = m.output ++ text) (hm' : m₁'.output = m'.output ++ text) :
    Alike c m m' result result' := by
  obtain ⟨c'', more, hc'', hleft, hright, hdepth, hstore, hends⟩ := h
  refine ⟨c'', text ++ more, hc.trans hc'', ?_, ?_, hdepth, hstore, hends⟩
  · rw [hleft, hm, String.append_assoc]
  · rw [hright, hm', String.append_assoc]

/-- What comes after two machines have printed nothing. -/
theorem of_output_eq (h : Alike c' m₁ m₁' result result') (hc : c ≤ c')
    (hm : m₁.output = m.output) (hm' : m₁'.output = m'.output) : Alike c m m' result result' :=
  h.after hc (by rw [hm, String.append_empty]) (by rw [hm', String.append_empty])

theorem leave (h : Alike c m m' result result') (location : Option Location) :
    Alike c m m' (leave location result) (leave location result') := by
  obtain ⟨c', text, hc', hagree⟩ := h
  exact ⟨c', text, hc', hagree.leave location⟩

end Alike

end Run

variable {c : Correspondence} {e e' : ScopeId} {m m' : Machine}

/-- Carrying out corresponding plans in corresponding scopes cannot be told apart, if evaluating
nodes cannot. -/
theorem Plan.run_alike (settings : Settings) {eval : Node → ScopeId → Run Value}
    (heval : ∀ node (c : Correspondence) e e' (m m' : Machine), m.depth = m'.depth →
      e' ∈ c.scopes e → m.store.Matches c m'.store →
      Run.Alike c m m' (eval node e m) (eval node e' m'))
    {plan plan' : Plan} (hplan : Plan.Matches c plan plan') (hdepth : m.depth = m'.depth)
    (he : e' ∈ c.scopes e) (hstore : m.store.Matches c m'.store) :
    Run.Alike c m m' (plan.run settings eval e m) (plan'.run settings eval e' m') := by
  -- The induction is on how the plans match, since the correspondence grows from child to child.
  induction hplan generalizing m m' with
  | ok hx => exact .ok hdepth hstore hx
  | error halt => exact .error hdepth hstore halt
  | write text _ ih =>
    have hrest := @ih (m.wrote text) (m'.wrote text) hdepth he hstore
    exact hrest.after (le_refl _) rfl rfl
  | @define _ name x x' _ _ hx _ ih =>
    have hrest := @ih (m.bound settings e name x) (m'.bound settings e' name x')
      (by simpa using hdepth) he (by simpa using hstore.define he name hx)
    exact hrest.of_output_eq (le_refl _) (by simp) (by simp)
  | fetch name =>
    simp only [run]
    rcases optionRel_cases (hstore.lookup he name) with ⟨hx, hx'⟩ | ⟨x, x', hx, hx', hxx'⟩
    · rw [hx, hx']
      exact .error hdepth hstore _
    · rw [hx, hx']
      exact .ok hdepth hstore hxx'
  | close parameters body =>
    obtain ⟨c', hc', hvalue, hclosed⟩ := hstore.newClosure he parameters body
    have hdepth' : (m.closed parameters body e).depth = (m'.closed parameters body e').depth :=
      hdepth
    exact (Run.Alike.ok hdepth' hclosed hvalue).of_output_eq hc' rfl rfl
  | child node _ ih =>
    obtain ⟨c', text, hc', hagree⟩ := heval node _ e e' m m' hdepth he hstore
    simp only [run]
    -- Either both evaluations of the child stop here, or both plans go on with matching values.
    generalize eval node e m = result at hagree ⊢
    generalize eval node e' m' = result' at hagree ⊢
    obtain ⟨hleft, hright, hdepth', hstore', hends⟩ := hagree
    cases hends with
    | error halt => exact ⟨c', text, hc', hleft, hright, hdepth', hstore', .error halt⟩
    | ok hx =>
      have hrest := ih c' hc' _ _ hx hdepth' (Correspondence.mem_scopes_of_le hc' he) hstore'
      exact hrest.after hc' hleft hright
  | @enter _ _ _ parameters body captured captured' values values' hcaptured hvalues =>
    obtain ⟨c', hc', hscope, hentered⟩ :=
      hstore.newScope (.some hcaptured) (.ofArguments parameters hvalues)
    have hbody := heval body c' _ _ (m.entered settings parameters captured values)
      (m'.entered settings parameters captured' values') (by simpa using hdepth) hscope
      (by simpa using hentered)
    exact hbody.of_output_eq hc' (by simp) (by simp)

/-- Evaluating a node in corresponding scopes of matching stores cannot be told apart. -/
theorem evaluate_alike (settings : Settings) (budget : Nat) (node : Node)
    (hdepth : m.depth = m'.depth) (he : e' ∈ c.scopes e) (hstore : m.store.Matches c m'.store) :
    Run.Alike c m m' (evaluate settings budget node e m) (evaluate settings budget node e' m') := by
  induction budget generalizing node c e e' m m' with
  | zero => exact .error hdepth hstore .nesting
  | succ budget ih =>
    by_cases h : settings.maxDepth ≤ m.depth
    · rw [evaluate_refused settings budget node e m h,
        evaluate_refused settings budget node e' m' (hdepth ▸ h), hdepth]
      refine (Run.Alike.error ?_ ?_ _).of_output_eq (le_refl c) (Machine.output_noted ..)
        (Machine.output_noted ..)
      · simpa using hdepth
      · simpa using hstore
    · have hlt : m.depth < settings.maxDepth := Int.not_le.1 h
      rw [evaluate_granted settings budget node e m hlt,
        evaluate_granted settings budget node e' m' (hdepth ▸ hlt)]
      have hdeeper : (m.started settings node.kind).depth =
          (m'.started settings node.kind).depth := by simpa using hdepth
      have hrun := Plan.run_alike settings
        (fun node c e e' m m' hdepth he hstore => ih node hdepth he hstore)
        (Plan.matches_ofNode node c) hdeeper he (by simpa using hstore)
      exact (hrun.of_output_eq (le_refl c) (by simp) (by simp)).leave node.location

/-- Programs agree wherever they start: nothing that was there before needs a counterpart, only the
new scopes correspond. -/
theorem evaluate_fresh_agree (settings : Settings) (budget : Nat) (node : Node) (m m' : Machine) :
    ∃ c text, Run.Agree c text m.fresh m'.fresh
      (evaluate settings budget node m.store.scopes.size m.fresh)
      (evaluate settings budget node m'.store.scopes.size m'.fresh) := by
  obtain ⟨c, -, hscope, hstore⟩ :=
    (Store.Matches.empty m.store m'.store).newScope .none (.nil .empty)
  have hdepth : m.fresh.depth = m'.fresh.depth := rfl
  obtain ⟨c', text, -, hagree⟩ := evaluate_alike settings budget node hdepth hscope hstore
  exact ⟨c', text, hagree⟩

/-! ## Sessions -/

/-- What can be seen of a reply: the text of the value or the error, and what was printed. -/
def Reply.shown (reply : Reply) :
    Except Halt (Option (Except TooManyDigits String)) × String :=
  (reply.result.map (Option.map Value.display), reply.output)

/-- The reply to a program that was run from depth zero. -/
def Reply.ofRun (settings : Settings) : EStateM.Result Halt Machine Value → Reply
  | .ok x m => ⟨.ok (some x), m.output⟩
  | .error halt m => ⟨.error (settings.exhausted halt), m.output⟩

theorem Session.reply_interpret (session : Session) (node : Node) :
    (session.perform (.interpret node)).1 =
      .ofRun session.settings (evaluate session.settings
        (session.settings.budgetOn session.host 0) node
        session.machine.store.scopes.size { session.machine with output := "" }.fresh) := by
  simp only [perform, action, Run.bind_apply, interpret_apply]
  cases evaluate session.settings (session.settings.budgetOn session.host 0) node
    session.machine.store.scopes.size { session.machine with output := "" }.fresh <;> rfl

/-- What is seen of runs from machines that have printed nothing is the same if they agree. -/
theorem Run.Agree.shown_eq {text : String} {result result' : EStateM.Result Halt Machine Value}
    (h : Run.Agree c text m m' result result') (hm : m.output = "") (hm' : m'.output = "")
    (settings : Settings) :
    (Reply.ofRun settings result).shown = (Reply.ofRun settings result').shown := by
  have houtput : (Run.machine result).output = (Run.machine result').output := by
    rw [h.left, h.right, hm, hm']
  cases h.ends with
  | ok hx =>
    refine Prod.ext ?_ houtput
    simp only [Reply.shown, Reply.ofRun, Except.map, Option.map_some, hx.display_eq]
  | error halt => exact Prod.ext rfl houtput

/-- **Runs are isolated.**  Let some scopes and closures of two stores correspond one to one, such
that corresponding scopes hang off corresponding scopes and bind the same names to corresponding
values.  Then evaluating a node in corresponding scopes, from one depth, prints the same text and
ends with the same error or with corresponding values.  The stores that are left match up to a
correspondence that extends the first one, and covers whatever can be reached from corresponding
scopes.  So what is seen of the answer to a program is the same in every session: it is that of a
session that starts with the program. -/
theorem evaluation_isolated :
    (∀ (settings : Settings) (host : Limits) (node : Node) (c : Correspondence) (e e' : ScopeId)
      (m m' : Machine), m.depth = m'.depth → e' ∈ c.scopes e → m.store.Matches c m'.store →
      ∃ c' text, c ≤ c' ∧
        Run.Agree c' text m m' (evaluateHere settings host node e m)
          (evaluateHere settings host node e' m') ∧
        ∀ id id', id' ∈ c'.scopes id →
          c'.Covers (Run.machine (evaluateHere settings host node e m)).store
            (Run.machine (evaluateHere settings host node e' m')).store id id') ∧
    ∀ (session : Session) (node : Node),
      (session.perform (.interpret node)).1.shown =
        (Session.perform { settings := session.settings, host := session.host }
          (.interpret node)).1.shown := by
  constructor
  · intro settings host node c e e' m m' hdepth he hstore
    rw [evaluateHere_apply, evaluateHere_apply, ← hdepth]
    obtain ⟨c', text, hc', hagree⟩ := evaluate_alike settings
      (settings.budgetOn host m.depth) node hdepth he hstore
    exact ⟨c', text, hc', hagree, fun id id' hid => hagree.store.covers hid⟩
  · intro session node
    rw [Session.reply_interpret, Session.reply_interpret]
    obtain ⟨c, text, hagree⟩ := evaluate_fresh_agree session.settings
      (session.settings.budgetOn session.host 0) node
      { session.machine with output := "" } {}
    exact hagree.shown_eq rfl rfl session.settings

/-- A function that two stores hold under different numbers, in scopes of different numbers, and a
program in a session that has bound its names otherwise. -/
theorem evaluation_isolated_renumbered :
    let function (id : Nat) (scope : ScopeId) : Value :=
      .closure id [] (.print (.var "f" none) none) scope
    let m : Machine := { store := ⟨#[⟨none, [("f", function 0 0)]⟩], 1⟩ }
    let m' : Machine :=
      { store := ⟨#[⟨none, [("f", .bool true)]⟩, ⟨none, [("f", function 3 1)]⟩], 4⟩ }
    let c : Correspondence := ⟨PEquiv.single 0 1, PEquiv.single 0 3⟩
    let node : Node := .binary .eq (.call (.var "f" none) [] none) (.var "f" none) none
    let session : Session := { machine := m', names := [("top", 0)] }
    m.store.Matches c m'.store ∧
    (Run.machine (evaluateHere {} .standard node 0 m)).output =
      (Run.machine (evaluateHere {} .standard node 1 m')).output ∧
    (session.perform (.interpret node)).1.shown =
      (Session.perform {} (.interpret node)).1.shown := by
  intro function m m' c node session
  have hfunction : (function 0 0).Matches c (function 3 1) :=
    .closure [] _ (PEquiv.mem_single 0 3) (PEquiv.mem_single 0 1)
  have hstore : m.store.Matches c m'.store := by
    constructor
    · intro id id' hid
      obtain ⟨rfl, rfl⟩ := (PEquiv.mem_single_iff ..).1 hid
      exact ⟨_, _, rfl, rfl, .none, (Bindings.Matches.nil c).set "f" hfunction⟩
    · intro id id' hid
      obtain ⟨rfl, rfl⟩ := (PEquiv.mem_single_iff ..).1 hid
      exact ⟨by decide, by decide⟩
  obtain ⟨hruns, hsessions⟩ := evaluation_isolated
  obtain ⟨c', text, -, hagree, -⟩ :=
    hruns {} .standard node c 0 1 m m' rfl (PEquiv.mem_single 0 1) hstore
  refine ⟨hstore, ?_, hsessions session node⟩
  rw [hagree.left, hagree.right]

end Rinha
