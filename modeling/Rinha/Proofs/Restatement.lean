import Rinha.Proofs.Erasure
import Rinha.Proofs.Grammar

/-!
# Programs that are restated

Data for a program may locate its nodes, and may spell a literal as a bare scalar or as an object.
Data that differs in nothing else restates the program: it is decoded to the same tree up to
locations, or refused for the same reason.  Since locations have no bearing on evaluation, a program
does the same however it is restated.

## Main definitions

* `Wire.Spells` -- an object that spells out the literal that a bare scalar stands for.
* `Wire.Restates` -- data that differs in locations and in the spelling of literals.
* `Wire.decodeNode_restates` -- such data is decoded to the same tree up to locations.
* `locations_inert` -- locations have no bearing on what a program does.
-/

namespace Rinha

/-- What is the same without locations is the same without them after a next step. -/
theorem Halt.eraseFrom_bind {α β : Type} {f : α → α} {g : β → β} {first first' : Except Halt α}
    {next next' : α → Except Halt β} (h : eraseFrom f first = eraseFrom f first')
    (hnext : ∀ a a', f a = f a' → eraseFrom g (next a) = eraseFrom g (next' a')) :
    eraseFrom g (first >>= next) = eraseFrom g (first' >>= next') := by
  cases first with
  | ok a =>
    cases first' with
    | ok a' =>
      simp only [eraseFrom, Except.ok.injEq] at h
      exact hnext a a' h
    | error halt' => cases h
  | error halt =>
    cases first' with
    | ok a' => cases h
    | error halt' => exact congrArg Except.error (Except.error.inj h)

namespace Wire

/-! ## Parts without locations -/

/-- A part without the locations of the nodes in it. -/
def Part.bare : Part → Part
  | .text value => .text value
  | .integer value => .integer value
  | .truth value => .truth value
  | .operator op => .operator op
  | .names items => .names items
  | .node child => .node child.bare
  | .nodes items => .nodes (items.map Node.bare)

/-- A node without locations is made of its parts without locations. -/
theorem bare_assemble (kind : Node.Kind) (parts : List Part) (l : Option Location) :
    (assemble kind parts l).bare = assemble kind (parts.map Part.bare) none := by
  -- Parts that are not those of the kind give the default node on both sides.
  rcases parts with _ | ⟨p, _ | ⟨q, _ | ⟨r, _ | ⟨s, rest⟩⟩⟩⟩
  · cases kind <;> rfl
  · cases kind <;> cases p <;> rfl
  · cases kind <;> cases p <;> first
      | rfl
      | cases q <;> first
        | rfl
        | simp only [assemble, Node.bare, List.map, Part.bare, Node.bareAll_eq_map]
  · cases kind <;> cases p <;> first | rfl | (cases q <;> first | rfl | (cases r <;> rfl))
  · cases kind <;> cases p <;> first | rfl | (cases q <;> first | rfl | (cases r <;> rfl))

/-! ## Restated data -/

/-- The kind of literal that a bare scalar stands for. -/
def literalKind? : Json → Option Node.Kind
  | .str _ => some .str
  | .int _ => some .int
  | .bool _ => some .bool
  | _ => none

/-- An object may have any location, or what is none, unless the name of a file in it cannot be
written. -/
def Located (fields : Fields) : Prop :=
  ∃ l, location (Json.lookup "location" fields) = .ok l

/-- An object that spells out the literal that a bare scalar stands for. -/
structure Spells (fields : Fields) (data : Json) : Prop where
  kind : ∃ kind, literalKind? data = some kind ∧
    Json.lookup "kind" fields = some (.str kind.name)
  value : Json.lookup "value" fields = some data
  located : Located fields

/-- Data that differs, where data of a form is asked for, in nothing but the locations of objects,
the spelling of literals, and fields that nodes do not have. -/
inductive Restates : Shape → Json → Json → Prop
  | refl (shape : Shape) (data : Json) : Restates shape data data
  | spelled {fields : Fields} {data : Json} : Spells fields data →
    Restates .node data (.obj fields)
  | scalar {fields : Fields} {data : Json} : Spells fields data →
    Restates .node (.obj fields) data
  | nodes {items items' : List Json} : List.Forall₂ (Restates .node) items items' →
    Restates .nodes (.arr items) (.arr items')
  | object {fields fields' : Fields} : Located fields → Located fields' →
    Json.lookup "kind" fields = Json.lookup "kind" fields' →
    (∀ kind : Node.Kind, Json.lookup "kind" fields = some (.str kind.name) →
      ∀ field ∈ kind.layout,
        (Json.lookup field.1 fields).isSome = (Json.lookup field.1 fields').isSome) →
    (∀ kind : Node.Kind, Json.lookup "kind" fields = some (.str kind.name) →
      ∀ field ∈ kind.layout, ∀ data data', Json.lookup field.1 fields = some data →
        Json.lookup field.1 fields' = some data' → Restates field.2 data data') →
    Restates .node (.obj fields) (.obj fields')

/-- A literal that is spelled out is decoded to what the bare scalar is decoded to. -/
theorem decodeWith_spells {fields : Fields} {data : Json} (h : Spells fields data)
    (decode : Json → Except Halt Node) :
    Halt.eraseFrom Node.bare (decodeWith decode (.obj fields)) =
      Halt.eraseFrom Node.bare (decodeWith decode data) := by
  obtain ⟨⟨kind, hliteral, hkind⟩, hvalue, l, hl⟩ := h
  have hdecode : decodeWith decode (.obj fields) = decodeFields decode kind fields l := by
    simp only [decodeWith, hkind, hl, Node.Kind.ofName?_name]
    rfl
  rw [hdecode]
  cases data with
  | str value | int value | bool value =>
    cases hliteral
    simp only [decodeFields, requiredString, requiredInt, requiredBool, required, hvalue]
    rfl
  | _ => cases hliteral

/-! ## Decoding restated data -/

section

variable {decode : Json → Except Halt Node}
  (hdecode : ∀ data data', Restates .node data data' →
    Halt.eraseFrom Node.bare (decode data) = Halt.eraseFrom Node.bare (decode data'))
include hdecode

theorem decodeAll_restates {items items' : List Json}
    (h : List.Forall₂ (Restates .node) items items') :
    Halt.eraseFrom (List.map Node.bare) (decodeAll decode items) =
      Halt.eraseFrom (List.map Node.bare) (decodeAll decode items') := by
  induction h with
  | nil => rfl
  | cons hitem _ ih =>
    refine Halt.eraseFrom_bind (hdecode _ _ hitem) fun node node' hnode => ?_
    refine Halt.eraseFrom_bind ih fun nodes nodes' hnodes => ?_
    simp only [pure, Except.pure, Halt.eraseFrom, List.map_cons, hnode, hnodes]

theorem readData_restates (l l' : Option Location) (key : String) {shape : Shape}
    {data data' : Json} (h : Restates shape data data') :
    Halt.eraseFrom Part.bare (readData decode l key shape data) =
      Halt.eraseFrom Part.bare (readData decode l' key shape data') := by
  cases shape with
  | node =>
    refine Halt.eraseFrom_bind (hdecode _ _ h) fun node node' hnode => ?_
    simp only [pure, Except.pure, Halt.eraseFrom, Part.bare, hnode]
  | nodes =>
    cases h with
    | refl => cases data <;> rfl
    | nodes hitems =>
      refine Halt.eraseFrom_bind (decodeAll_restates hdecode hitems) fun nodes nodes' hnodes => ?_
      simp only [pure, Except.pure, Halt.eraseFrom, Part.bare, hnodes]
  | operator =>
    cases h
    cases data with
    | str name =>
      -- Only the location of an operator that does not exist can differ.
      simp only [readData]
      cases Operator.ofName? name <;> rfl
    | _ => rfl
  | _ =>
    cases h
    cases data <;> rfl

theorem readParts_restates (kind : Node.Kind) (l l' : Option Location) {fields fields' : Fields}
    {layout : List (String × Shape)}
    (hpresent : ∀ field ∈ layout,
      (Json.lookup field.1 fields).isSome = (Json.lookup field.1 fields').isSome)
    (hrestates : ∀ field ∈ layout, ∀ data data', Json.lookup field.1 fields = some data →
      Json.lookup field.1 fields' = some data' → Restates field.2 data data') :
    Halt.eraseFrom (List.map Part.bare) (readParts decode kind fields l layout) =
      Halt.eraseFrom (List.map Part.bare) (readParts decode kind fields' l' layout) := by
  induction layout with
  | nil => rfl
  | cons field rest ih =>
    have hrest := ih (fun field hfield => hpresent field (List.mem_cons_of_mem _ hfield))
      (fun field hfield => hrestates field (List.mem_cons_of_mem _ hfield))
    have hpart : Halt.eraseFrom Part.bare (readPart decode kind fields l field.1 field.2) =
        Halt.eraseFrom Part.bare (readPart decode kind fields' l' field.1 field.2) := by
      have hsome := hpresent field List.mem_cons_self
      cases hlookup : Json.lookup field.1 fields with
      | none =>
        rw [hlookup, Option.isSome_none, eq_comm, Option.isSome_eq_false_iff,
          Option.isNone_iff_eq_none] at hsome
        simp only [readPart, required, hlookup, hsome]
        rfl
      | some data =>
        rw [hlookup, Option.isSome_some, eq_comm, Option.isSome_iff_exists] at hsome
        obtain ⟨data', hlookup'⟩ := hsome
        simp only [readPart, required, hlookup, hlookup']
        exact readData_restates hdecode l l' field.1
          (hrestates field List.mem_cons_self data data' hlookup hlookup')
    refine Halt.eraseFrom_bind hpart fun part part' hpart => ?_
    refine Halt.eraseFrom_bind hrest fun parts parts' hparts => ?_
    simp only [pure, Except.pure, Halt.eraseFrom, List.map_cons, hpart, hparts]

theorem decodeFields_restates (kind : Node.Kind) (l l' : Option Location)
    {fields fields' : Fields}
    (hpresent : ∀ field ∈ kind.layout,
      (Json.lookup field.1 fields).isSome = (Json.lookup field.1 fields').isSome)
    (hrestates : ∀ field ∈ kind.layout, ∀ data data', Json.lookup field.1 fields = some data →
      Json.lookup field.1 fields' = some data' → Restates field.2 data data') :
    Halt.eraseFrom Node.bare (decodeFields decode kind fields l) =
      Halt.eraseFrom Node.bare (decodeFields decode kind fields' l') := by
  rw [decodeFields_eq, decodeFields_eq]
  refine Halt.eraseFrom_bind (readParts_restates hdecode kind l l' hpresent hrestates)
    fun parts parts' hparts => ?_
  simp only [pure, Except.pure, Halt.eraseFrom, bare_assemble, hparts]

theorem decodeWith_restates {data data' : Json} (h : Restates .node data data') :
    Halt.eraseFrom Node.bare (decodeWith decode data) =
      Halt.eraseFrom Node.bare (decodeWith decode data') := by
  cases h with
  | refl => rfl
  | spelled hspells => exact (decodeWith_spells hspells decode).symm
  | scalar hspells => exact decodeWith_spells hspells decode
  | @object fields fields' hlocated hlocated' hkind hpresent hrestates =>
    obtain ⟨l, hl⟩ := hlocated
    obtain ⟨l', hl'⟩ := hlocated'
    simp only [decodeWith, ← hkind, hl, hl']
    split
    · rfl
    · rfl
    · next name hname =>
      cases hofName : Node.Kind.ofName? name with
      | none => rfl
      | some kind =>
        obtain rfl := Node.Kind.name_of_ofName? hofName
        exact decodeFields_restates hdecode kind l l' (hpresent kind hname) (hrestates kind hname)
    · rfl

end

/-- Restated data is decoded to the same tree up to locations, or refused for the same reason. -/
theorem decodeNode_restates (budget : Nat) {data data' : Json} (h : Restates .node data data') :
    Halt.eraseFrom Node.bare (decodeNode budget data) =
      Halt.eraseFrom Node.bare (decodeNode budget data') := by
  induction budget generalizing data data' with
  | zero => rfl
  | succ budget ih => exact decodeWith_restates (fun _ _ => ih) h

end Wire

/-- **Locations have no bearing on what a program does.**  Let two trees be the same up to
locations, and let two stores be the same up to locations in the bodies of closures.  Then
evaluating the trees in one scope, from one depth, prints the same text, ends with the same value up
to locations in the bodies of closures, or with the same failure up to the location of an error, and
leaves the same store up to locations.  A program that is restated on the wire, with its nodes
located and its literals spelled in any way, is decoded to the same tree up to locations, so that it
does the same. -/
theorem locations_inert :
    (∀ (settings : Settings) (host : Limits) (node node' : Node) (scope : ScopeId)
      (m m' : Machine), node.bare = node'.bare → m.store.bare = m'.store.bare →
      m.depth = m'.depth →
      Run.SameUpToLocations m m' (evaluateHere settings host node scope m)
        (evaluateHere settings host node' scope m')) ∧
    ∀ (budget : Nat) (data data' : Json) (node : Node), Wire.Restates .node data data' →
      Wire.decodeNode budget data = .ok node →
      ∃ node', Wire.decodeNode budget data' = .ok node' ∧
        ∀ settings host scope m, Run.SameUpToLocations m m
          (evaluateHere settings host node scope m) (evaluateHere settings host node' scope m) := by
  have hruns : ∀ (settings : Settings) (host : Limits) (node node' : Node) (scope : ScopeId)
      (m m' : Machine), node.bare = node'.bare → m.store.bare = m'.store.bare →
      m.depth = m'.depth →
      Run.SameUpToLocations m m' (evaluateHere settings host node scope m)
        (evaluateHere settings host node' scope m') := by
    intro settings host node node' scope m m' hnode hstore hdepth
    rw [evaluateHere_apply, evaluateHere_apply, ← hdepth]
    exact evaluate_sameUpToLocations settings _ hnode scope hstore hdepth
  refine ⟨hruns, ?_⟩
  intro budget data data' node hrestates hnode
  have hdecode := Wire.decodeNode_restates budget hrestates
  rw [hnode] at hdecode
  cases hresult : Wire.decodeNode budget data' with
  | error halt =>
    rw [hresult] at hdecode
    cases hdecode
  | ok node' =>
    rw [hresult] at hdecode
    have hbare : node.bare = node'.bare := Except.ok.inj hdecode
    exact ⟨node', rfl, fun settings host scope m =>
      hruns settings host node node' scope m m hbare rfl rfl⟩

/-- A call of a function that fails, with its locations and without, and a program that prints a
literal, spelled as a bare scalar and as an object with a location. -/
theorem locations_inert_call :
    let here : Option Location := some ⟨.int 3, .int 5, "main.rinha"⟩
    let call (l : Option Location) : Node := .call (.var "f" l) [.str "a" l] l
    let m (l : Option Location) : Machine :=
      { store := ⟨#[⟨none, [("f", .closure 0 ["x"] (.first (.var "x" l) l) 0)]⟩], 1⟩ }
    let literal : Json := .obj [("kind", .str "Int"), ("value", .int 7), ("location", .str "here")]
    let located : Json := .obj [("start", .int 0), ("end", .int 9)]
    let data : Json := .obj [("kind", .str "Print"), ("value", .int 7)]
    let data' : Json := .obj [("location", located), ("kind", .str "Print"), ("value", literal)]
    Run.SameUpToLocations (m here) (m none) (evaluateHere {} .standard (call here) 0 (m here))
      (evaluateHere {} .standard (call none) 0 (m none)) ∧
    Wire.decodeNode 9 data = .ok (.print (.int 7 none) none) ∧
    ∃ node', Wire.decodeNode 9 data' = .ok node' ∧
      Run.SameUpToLocations {} {} (evaluateHere {} .standard (.print (.int 7 none) none) 0 {})
        (evaluateHere {} .standard node' 0 {}) := by
  intro here call m literal located data data'
  have hspells : Wire.Spells [("kind", .str "Int"), ("value", .int 7), ("location", .str "here")]
      (.int 7) := ⟨⟨.int, rfl, rfl⟩, rfl, none, rfl⟩
  have hrestates : Wire.Restates .node data data' := by
    refine .object ⟨none, rfl⟩ ⟨some ⟨.int 0, .int 9, ""⟩, rfl⟩ rfl ?_ ?_
    all_goals
      intro kind hkind
      have hname : some (Json.str Node.Kind.print.name) = some (.str kind.name) := hkind
      obtain rfl := Node.Kind.name_injective (Json.str.inj (Option.some.inj hname))
    · decide
    · intro field hfield value value' hvalue hvalue'
      obtain rfl := List.mem_singleton.1 hfield
      cases hvalue
      cases hvalue'
      exact .spelled hspells
  have hstore : (m here).store.bare = (m none).store.bare := by
    simp [m, Store.bare, Store.mapValues, Scope.mapValues, Bindings.mapValues, Value.bare,
      Node.bare]
  obtain ⟨node', hnode', hrun⟩ := locations_inert.2 9 data data' (.print (.int 7 none) none)
    hrestates rfl
  exact ⟨locations_inert.1 {} .standard (call here) (call none) 0 (m here) (m none) rfl hstore rfl,
    rfl, node', hnode', hrun {} .standard 0 {}⟩

end Rinha
