import Rinha.Proofs.Grammar
import Rinha.Proofs.Labels
import Rinha.Proofs.Values

/-!
# Encoding of trees

Every tree has a canonical form as data: an object with the kind of its root, the fields of that
kind, and a location if the root has one.  Decoding undoes encoding, as long as the host can follow
the nesting of the tree.  So every tree is what some data is decoded to, and encoding what was
decoded loses nothing.

## Main definitions

* `Node.encode`, `Program.encode` -- the canonical forms of trees and programs.
* `Node.nesting` -- how many nodes are nested in one another.
* `Wire.decodeNode_encode_iff` -- a tree is decoded from its canonical form if the budget allows for
  its nesting.
* `Wire.AgreeProgram` -- data that agrees in all that decoding of a program looks at.
-/

namespace Rinha

/-! ## Canonical forms -/

/-- The data of an offset. -/
def Offset.encode : Offset → Json
  | .int value => .int value
  | .bool value => .bool value

/-- The data of a location. -/
def Location.encode (location : Location) : Json :=
  .obj [("start", location.start.encode), ("end", location.stop.encode),
    ("filename", .str location.filename)]

namespace Wire

/-- The field of a location that is known. -/
def locationFields : Option Location → Fields
  | none => []
  | some location => [("location", location.encode)]

/-- An object of a kind with given fields, and with its location if that is known. -/
def object (kind : Node.Kind) (fields : Fields) (location : Option Location) : Json :=
  .obj (("kind", .str kind.name) :: fields ++ locationFields location)

/-- The data of an identifier. -/
def encodeName (name : String) : Json :=
  .obj [("text", .str name)]

end Wire

namespace Node

open Wire in
mutual

/-- The canonical form of a tree. -/
def encode : Node → Json
  | .str value l => object .str [("value", .str value)] l
  | .int value l => object .int [("value", .int value)] l
  | .bool value l => object .bool [("value", .bool value)] l
  | .print operand l => object .print [("value", operand.encode)] l
  | .letIn name operand next l =>
    object .letIn [("name", encodeName name), ("value", operand.encode), ("next", next.encode)] l
  | .var name l => object .var [("text", .str name)] l
  | .cond condition then_ otherwise l =>
    object .cond [("condition", condition.encode), ("then", then_.encode),
      ("otherwise", otherwise.encode)] l
  | .function parameters body l =>
    object .function [("parameters", .arr (parameters.map encodeName)), ("value", body.encode)] l
  | .call callee arguments l =>
    object .call [("callee", callee.encode), ("arguments", .arr (encodeAll arguments))] l
  | .binary op lhs rhs l =>
    object .binary [("op", .str op.name), ("lhs", lhs.encode), ("rhs", rhs.encode)] l
  | .tuple left right l => object .tuple [("first", left.encode), ("second", right.encode)] l
  | .first operand l => object .first [("value", operand.encode)] l
  | .second operand l => object .second [("value", operand.encode)] l

/-- The canonical forms of several trees. -/
def encodeAll : List Node → List Json
  | [] => []
  | node :: nodes => node.encode :: encodeAll nodes

end

theorem encodeAll_eq_map (nodes : List Node) : encodeAll nodes = nodes.map encode := by
  induction nodes with
  | nil => rfl
  | cons node nodes ih => rw [encodeAll, ih, List.map_cons]

/-! ## Nesting -/

mutual

/-- How many nodes of a tree are nested in one another. -/
def nesting : Node → Nat
  | .str .. | .int .. | .bool .. | .var .. => 1
  | .print operand _ | .first operand _ | .second operand _ => operand.nesting + 1
  | .letIn _ operand next _ => max operand.nesting next.nesting + 1
  | .cond condition then_ otherwise _ =>
    max condition.nesting (max then_.nesting otherwise.nesting) + 1
  | .function _ body _ => body.nesting + 1
  | .call callee arguments _ => max callee.nesting (nestingAll arguments) + 1
  | .binary _ lhs rhs _ | .tuple lhs rhs _ => max lhs.nesting rhs.nesting + 1

/-- The nesting of the most deeply nested of several trees. -/
def nestingAll : List Node → Nat
  | [] => 0
  | node :: nodes => max node.nesting (nestingAll nodes)

end

theorem nestingAll_le_iff {nodes : List Node} {bound : Nat} :
    nestingAll nodes ≤ bound ↔ ∀ node ∈ nodes, node.nesting ≤ bound := by
  induction nodes with
  | nil => simp [nestingAll]
  | cons node nodes ih => simp [nestingAll, ih]

theorem nesting_pos (node : Node) : 0 < node.nesting := by
  cases node <;> simp [nesting]

/-- The nesting of a tree is one more than that of what is below its root. -/
theorem nesting_le_succ_iff {node : Node} {bound : Nat} :
    node.nesting ≤ bound + 1 ↔ ∀ child ∈ node.subtrees, child.nesting ≤ bound := by
  cases node with
  | call => simp [forall_mem_subtrees, nesting, operands, arguments, nestingAll_le_iff]
  | _ => simp [forall_mem_subtrees, nesting, operands, arguments]

end Node

/-- The canonical form of a program. -/
def Program.encode (program : Program) : Json :=
  .obj ([("name", .str program.name), ("expression", program.expression.encode)] ++
    Wire.locationFields program.location)

namespace Wire

/-! ## Decoding canonical forms -/

theorem offset?_encode (offset : Offset) : offset? offset.encode = some offset := by
  cases offset <;> rfl

/-- A location is read back from its data. -/
theorem location_encode (l : Option Location) :
    location (l.map Location.encode) = .ok l := by
  cases l with
  | none => rfl
  | some l => simp [location_eq, Location.encode, Json.field?, Json.lookup, offset?_encode,
      Json.display, Halt.ofConversion, pure, Except.pure, bind, Except.bind]

@[simp] theorem lookup_locationFields (l : Option Location) :
    Json.lookup "location" (locationFields l) = l.map Location.encode := by
  cases l <;> rfl

theorem identifier_encodeName (key name : String) :
    identifier key (encodeName name) = .ok name :=
  identifier_of_names (.text rfl) key

/-- A list is decoded if its items are. -/
theorem decodeAll_map {α : Type} {decode : Json → Except Halt α} {encode : α → Json}
    {items : List α} (h : ∀ item ∈ items, decode (encode item) = .ok item) :
    decodeAll decode (items.map encode) = .ok items := by
  induction items with
  | nil => rfl
  | cons item rest ih =>
    have hrest := ih fun other hother => h other (List.mem_cons_of_mem _ hother)
    rw [List.map_cons, decodeAll, h item List.mem_cons_self, hrest]
    rfl

/-- An object is decoded by the fields of its kind. -/
theorem decodeWith_object (decode : Json → Except Halt Node) (kind : Node.Kind) {fields : Fields}
    (l : Option Location) (hfields : Json.lookup "location" (fields ++ locationFields l) =
      Json.lookup "location" (locationFields l)) :
    decodeWith decode (object kind fields l) =
      decodeFields decode kind (("kind", .str kind.name) :: fields ++ locationFields l) l := by
  have hlocation : Json.lookup "location" (("kind", .str kind.name) :: fields ++ locationFields l) =
      l.map Location.encode := by
    rw [List.cons_append, Json.lookup, if_neg (by decide), hfields, lookup_locationFields]
  have hkind : Json.lookup "kind" (("kind", .str kind.name) :: fields ++ locationFields l) =
      some (.str kind.name) := rfl
  simp only [object, decodeWith, hkind, hlocation, location_encode, Node.Kind.ofName?_name]
  rfl

/-- A node is decoded from its canonical form, if its subtrees are. -/
theorem decodeWith_encode {decode : Json → Except Halt Node} {node : Node}
    (h : ∀ child ∈ node.subtrees, decode child.encode = .ok child) :
    decodeWith decode node.encode = .ok node := by
  obtain ⟨hoperands, harguments⟩ := Node.forall_mem_subtrees.1 h
  cases node with
  | call callee arguments l =>
    simp only [Node.operands, List.forall_mem_cons] at hoperands
    have hlist : decodeAll decode (arguments.map Node.encode) = .ok arguments :=
      decodeAll_map harguments
    rw [Node.encode, decodeWith_object _ _ _ rfl, Node.encodeAll_eq_map]
    simp [decodeFields, required, requiredList, Json.lookup, hoperands, hlist, bind, Except.bind,
      pure, Except.pure]
  | binary op lhs rhs l =>
    simp only [Node.operands, List.forall_mem_cons] at hoperands
    rw [Node.encode, decodeWith_object _ _ _ rfl]
    simp [decodeFields, required, requiredString, Json.lookup, hoperands, bind, Except.bind, pure,
      Except.pure]
  | function parameters body l =>
    simp only [Node.operands, List.forall_mem_cons] at hoperands
    have hparameters : decodeAll (identifier "parameters") (parameters.map encodeName) =
        .ok parameters := decodeAll_map fun name _ => identifier_encodeName _ name
    rw [Node.encode, decodeWith_object _ _ _ rfl]
    simp [decodeFields, required, requiredList, Json.lookup, hoperands, hparameters, bind,
      Except.bind, pure, Except.pure]
  | _ =>
    simp only [Node.operands, List.forall_mem_cons] at hoperands
    rw [Node.encode, decodeWith_object _ _ _ rfl]
    simp [decodeFields, required, requiredString, requiredInt, requiredBool, Json.lookup, hoperands,
      identifier_encodeName, bind, Except.bind, pure, Except.pure]

/-- A tree is decoded from its canonical form, if the budget allows for its nesting. -/
theorem decodeNode_encode {budget : Nat} {node : Node} (h : node.nesting ≤ budget) :
    decodeNode budget node.encode = .ok node := by
  induction budget generalizing node with
  | zero => exact absurd h (Nat.not_le.2 node.nesting_pos)
  | succ budget ih =>
    exact decodeWith_encode fun child hchild => ih (Node.nesting_le_succ_iff.1 h child hchild)

/-! ## What has been decoded -/

/-- The trees of a part. -/
def Part.trees : Part → List Node
  | .node tree => [tree]
  | .nodes trees => trees
  | .text _ | .integer _ | .truth _ | .operator _ | .names _ => []

/-- What is below the root of a node was one of its parts. -/
theorem exists_part_of_mem_subtrees {kind : Node.Kind} {parts : List Part} {l : Option Location}
    {child : Node} (h : child ∈ (assemble kind parts l).subtrees) :
    ∃ part ∈ parts, child ∈ part.trees := by
  unfold assemble at h
  split at h
  case h_14 =>
    have hnone : (default : Node).subtrees = [] := rfl
    simp [hnone] at h
  all_goals simp_all [Node.subtrees, Node.operands, Node.arguments, Part.trees]

section

variable {decode : Json → Except Halt Node} {data : Json}

/-- A part was read from data: an integer is that of the data, and trees have been decoded from the
data or from its items. -/
def Part.From (decode : Json → Except Halt Node) (data : Json) : Part → Prop
  | .integer value => data = .int value
  | .node tree => decode data = .ok tree
  | .nodes trees =>
    ∃ items, data = .arr items ∧ ∀ tree ∈ trees, ∃ item ∈ items, decode item = .ok tree
  | .text _ | .truth _ | .operator _ | .names _ => True

/-- A node has been decoded from data: it is the literal that the data is, or it is assembled from
parts that were read from the fields of the data. -/
inductive Decoded (decode : Json → Except Halt Node) : Json → Node → Prop
  | bool (value : Bool) : Decoded decode (.bool value) (.bool value none)
  | int (value : Int) : Decoded decode (.int value) (.int value none)
  | str (value : String) : Decoded decode (.str value) (.str value none)
  | object {fields : Fields} (kind : Node.Kind) {parts : List Part} (l : Option Location) :
    (∀ part ∈ parts, ∃ key data, Json.lookup key fields = some data ∧ part.From decode data) →
    Decoded decode (.obj fields) (assemble kind parts l)

theorem exists_item_of_mem {nodes : List Node} {items : List Json}
    (h : decodeAll decode items = .ok nodes) : ∀ node ∈ nodes, ∃ item ∈ items,
      decode item = .ok node := by
  induction items generalizing nodes with
  | nil =>
    cases h
    simp
  | cons item rest ih =>
    obtain ⟨first, hfirst, h⟩ := bind_eq_ok h
    obtain ⟨others, hothers, h⟩ := bind_eq_ok h
    cases h
    refine List.forall_mem_cons.2 ⟨⟨item, List.mem_cons_self, hfirst⟩, fun node hnode => ?_⟩
    obtain ⟨item', hitem', hdecode⟩ := ih hothers node hnode
    exact ⟨item', List.mem_cons_of_mem _ hitem', hdecode⟩

theorem from_of_readData {l : Option Location} {key : String} {shape : Shape} {part : Part}
    (h : readData decode l key shape data = .ok part) : part.From decode data := by
  cases shape with
  | text | truth =>
    cases data <;> cases h
    trivial
  | integer =>
    cases data <;> cases h
    rfl
  | operator =>
    cases data with
    | str name =>
      simp only [readData] at h
      split at h <;> cases h
      trivial
    | _ => cases h
  | name =>
    obtain ⟨name, -, h⟩ := bind_eq_ok h
    cases h
    trivial
  | names =>
    cases data with
    | arr items =>
      obtain ⟨names, -, h⟩ := bind_eq_ok h
      cases h
      trivial
    | _ => cases h
  | node =>
    obtain ⟨tree, htree, h⟩ := bind_eq_ok h
    cases h
    exact htree
  | nodes =>
    cases data with
    | arr items =>
      obtain ⟨trees, htrees, h⟩ := bind_eq_ok h
      cases h
      exact ⟨items, rfl, exists_item_of_mem htrees⟩
    | _ => cases h

theorem from_of_readParts {kind : Node.Kind} {fields : Fields} {l : Option Location}
    {layout : List (String × Shape)} {parts : List Part}
    (h : readParts decode kind fields l layout = .ok parts) : ∀ part ∈ parts,
      ∃ key data, Json.lookup key fields = some data ∧ part.From decode data := by
  induction layout generalizing parts with
  | nil =>
    cases h
    simp
  | cons field rest ih =>
    obtain ⟨first, hfirst, h⟩ := bind_eq_ok h
    obtain ⟨others, hothers, h⟩ := bind_eq_ok h
    cases h
    obtain ⟨data, hrequired, hdata⟩ := bind_eq_ok hfirst
    refine List.forall_mem_cons.2 ⟨⟨field.1, data, ?_, from_of_readData hdata⟩, ih hothers⟩
    unfold required at hrequired
    split at hrequired <;> cases hrequired
    assumption

theorem decoded_of_decodeWith {node : Node} (h : decodeWith decode data = .ok node) :
    Decoded decode data node := by
  cases data with
  | obj fields =>
    simp only [decodeWith] at h
    split at h
    · cases h
    · cases h
    · obtain ⟨l, -, h⟩ := bind_eq_ok h
      split at h
      · cases h
      · next kind _ =>
        rw [decodeFields_eq] at h
        obtain ⟨parts, hparts, h⟩ := bind_eq_ok h
        cases h
        exact .object kind l (from_of_readParts hparts)
    · cases h
  | bool value =>
    cases h
    exact .bool value
  | int value =>
    cases h
    exact .int value
  | str value =>
    cases h
    exact .str value
  | null | real | arr => cases h

/-- What is below the root of a node that was decoded has been decoded itself. -/
theorem exists_data_of_mem_subtrees {node child : Node} (h : decodeWith decode data = .ok node)
    (hchild : child ∈ node.subtrees) : ∃ data, decode data = .ok child := by
  cases decoded_of_decodeWith h with
  | bool | int | str => simp [Node.subtrees, Node.operands, Node.arguments] at hchild
  | object kind l hparts =>
    obtain ⟨part, hpart, hchild⟩ := exists_part_of_mem_subtrees hchild
    obtain ⟨-, data, -, hfrom⟩ := hparts part hpart
    cases part with
    | node tree =>
      obtain rfl := List.mem_singleton.1 hchild
      exact ⟨data, hfrom⟩
    | nodes trees =>
      obtain ⟨items, -, htrees⟩ := hfrom
      obtain ⟨item, -, hitem⟩ := htrees child hchild
      exact ⟨item, hitem⟩
    | _ => simp [Part.trees] at hchild

end

/-- What is decoded within a budget is not nested beyond it. -/
theorem nesting_le_of_decodeNode {budget : Nat} {data : Json} {node : Node}
    (h : decodeNode budget data = .ok node) : node.nesting ≤ budget := by
  induction budget generalizing data node with
  | zero => cases h
  | succ budget ih =>
    refine Node.nesting_le_succ_iff.2 fun child hchild => ?_
    obtain ⟨data, hdata⟩ := exists_data_of_mem_subtrees h hchild
    exact ih hdata

/-- A tree is decoded from its canonical form exactly if the budget allows for its nesting. -/
theorem decodeNode_encode_iff {budget : Nat} {node : Node} :
    decodeNode budget node.encode = .ok node ↔ node.nesting ≤ budget :=
  ⟨nesting_le_of_decodeNode, decodeNode_encode⟩

/-! ## Programs -/

/-- Data that agrees in all that decoding of a program looks at: the name, the location, and the
tree as far as decoding looks at it. -/
inductive AgreeProgram : Json → Json → Prop
  | refl (data : Json) : AgreeProgram data data
  | object {fields fields' : Fields} {tree tree' : Json} :
    Json.lookup "name" fields = Json.lookup "name" fields' →
    Json.lookup "expression" fields = some tree → Json.lookup "expression" fields' = some tree' →
    Agree .node tree tree' →
    (∀ key ∈ locationKeys, locationField fields key = locationField fields' key) →
    AgreeProgram (.obj fields) (.obj fields')

theorem decodeProgram_congr (limits : Limits) {data data' : Json} (h : AgreeProgram data data') :
    decodeProgram limits data = decodeProgram limits data' := by
  cases h with
  | refl => rfl
  | object hname hexpression hexpression' htree hlocation =>
    simp only [decodeProgram, decodeExpression, hexpression, hexpression', hname,
      decodeNode_congr _ htree, location_congr hlocation]

/-- A program is decoded from its canonical form, if the limits allow for its nesting. -/
theorem decodeProgram_encode {limits : Limits} {program : Program}
    (h : program.expression.nesting ≤ limits.decoding) :
    decodeProgram limits program.encode = .ok program := by
  have hlocation : ∀ l : Option Location, Json.lookup "location" ([("name", .str program.name),
      ("expression", program.expression.encode)] ++ locationFields l) = l.map Location.encode :=
    fun l => lookup_locationFields l
  simp only [Program.encode, decodeProgram, hlocation, location_encode]
  simp [Json.lookup, decodeExpression, decodeNode_encode h, bind, Except.bind, pure, Except.pure]

/-- A text that spells data of a program holds that program. -/
theorem decodeText_of_parse {limits : Limits} {text filename : String} {data : Json}
    {program : Program} (hparse : Json.parse ⟨some limits.reading, some digitLimit⟩ text.toList =
      .ok data) (hprogram : decodeProgram limits data = .ok program) :
    decodeText limits text filename = .ok program := by
  simp only [decodeText, hparse, hprogram]

/-- **Decoding undoes encoding.**  Within the limits of the host, a tree is decoded from its
canonical form, and a program from data that agrees with its canonical form or from a text that
spells such data.  So every tree is what some data is decoded to, and a tree that has been decoded
is decoded again from its canonical form. -/
theorem decoding_undoes_encoding :
    (∀ budget (node : Node), decodeNode budget node.encode = .ok node ↔ node.nesting ≤ budget) ∧
    (∀ limits (program : Program), program.expression.nesting ≤ limits.decoding →
      ∀ data, AgreeProgram program.encode data →
        decodeProgram limits data = .ok program ∧
        ∀ text filename,
          Json.parse ⟨some limits.reading, some digitLimit⟩ text.toList = .ok data →
            decodeText limits text filename = .ok program) ∧
    (∀ node, ∃ budget data, decodeNode budget data = .ok node) ∧
    ∀ budget data node, decodeNode budget data = .ok node →
      decodeNode budget node.encode = .ok node := by
  refine ⟨fun _ _ => decodeNode_encode_iff, ?_, ?_, ?_⟩
  · intro limits program hnesting data hdata
    have hprogram : decodeProgram limits data = .ok program := by
      rw [← decodeProgram_congr limits hdata, decodeProgram_encode hnesting]
    exact ⟨hprogram, fun text filename hparse => decodeText_of_parse hparse hprogram⟩
  · exact fun node => ⟨node.nesting, node.encode, decodeNode_encode (Nat.le_refl _)⟩
  · exact fun budget data node h => decodeNode_encode (nesting_le_of_decodeNode h)

/-- A function with a location that is applied to an integer, and a program whose text has its
fields in another order. -/
theorem decoding_undoes_encoding_reordered :
    let tree : Node := .call
      (.function ["x"] (.var "x" none) (some ⟨.int 0, .int 8, "a"⟩)) [.int 1 none] none
    let program : Program := ⟨"a", .var "x" none, none⟩
    decodeNode 3 tree.encode = .ok tree ∧ decodeNode 2 tree.encode ≠ .ok tree ∧
    decodeText ⟨2, 1, 9, 9⟩
      "\x7b\"expression\":\x7b\"text\":\"x\",\"kind\":\"Var\"\x7d,\"name\":\"a\"\x7d" "b" =
        .ok program := by
  intro tree program
  obtain ⟨htree, hprogram, -⟩ := decoding_undoes_encoding
  have hnesting : tree.nesting = 3 := rfl
  let variable_ : Fields := [("text", .str "x"), ("kind", .str "Var")]
  let data : Json := .obj [("expression", .obj variable_), ("name", .str "a")]
  have hvariable : Agree .node program.expression.encode (.obj variable_) := by
    refine .of_lookup fun key => ?_
    by_cases hkey : "kind" = key
    · subst hkey
      rfl
    · simp [variable_, locationFields, Json.lookup, hkey]
  have hdata : AgreeProgram program.encode data :=
    .object rfl rfl rfl hvariable fun _ _ => rfl
  refine ⟨(htree 3 tree).2 (by omega), fun h => ?_, ?_⟩
  · have := (htree 2 tree).1 h
    omega
  · refine (hprogram ⟨2, 1, 9, 9⟩ program (Nat.le_refl 1) data hdata).2 _ "b" ?_
    with_unfolding_all rfl

end Wire

end Rinha
