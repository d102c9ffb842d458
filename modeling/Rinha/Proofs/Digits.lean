import Mathlib.Data.List.Induction
import Rinha.Proofs.Encoding

/-!
# Integers that are read can be written

A numeral of more digits than the limit is never read, so no integer in the data that a text spells
is too long to be written.  Decoding only hands integers on, so a tree that is decoded from such
data has a dump.

## Main definitions

* `Json.Reader.read_withinDigits`, `Json.parse_withinDigits` -- data that is read is within the
  limit.
* `Node.WithinDigits`, `Node.WithinDigits.exists_dump` -- trees that have a dump.
* `Wire.decodeNode_withinDigits` -- a tree is within the limit if its data is.
* `Wire.exists_dump_of_decodeText` -- a program that a text spells has a dump.
-/

namespace Rinha

namespace Json

theorem itemsWithinDigits_iff {items : List Json} :
    ItemsWithinDigits items ↔ ∀ item ∈ items, item.WithinDigits := by
  induction items with
  | nil => simp [ItemsWithinDigits]
  | cons item rest ih => simp [ItemsWithinDigits, ih]

/-- A field that is set to data within the limit keeps an object within the limit. -/
theorem FieldsWithinDigits.insert {fields : List (String × Json)} {key : String} {value : Json}
    (hfields : FieldsWithinDigits fields) (hvalue : value.WithinDigits) :
    FieldsWithinDigits (Json.insert key value fields) := by
  induction fields with
  | nil => exact ⟨hvalue, trivial⟩
  | cons field rest ih =>
    rw [Json.insert]
    split
    · exact ⟨hvalue, hfields.2⟩
    · exact ⟨hfields.1, ih hfields.2⟩

namespace Reader

/-! ## Numerals -/

theorem digit_lt {c : Char} (h : isDigit c = true) : c.toNat - '0'.toNat < 10 := by
  simp only [isDigit, Bool.and_eq_true, decide_eq_true_eq, Char.le_def, UInt32.le_iff_toNat_le] at h
  have hnine : c.toNat ≤ '9'.toNat := h.2
  have hvalue : '9'.toNat = '0'.toNat + 9 := rfl
  omega

/-- The digits of a number bound it. -/
theorem valueOf_lt {digits : List Char} (h : ∀ c ∈ digits, isDigit c = true) :
    valueOf digits < 10 ^ digits.length := by
  induction digits using List.reverseRecOn with
  | nil => decide
  | append_singleton front c ih =>
    have hfront := ih fun d hd => h d (List.mem_append_left _ hd)
    have hc := digit_lt (h c (List.mem_append_right _ List.mem_cons_self))
    rw [valueOf, List.foldl_append, List.foldl_cons, List.foldl_nil, List.length_append,
      List.length_singleton, Nat.pow_succ]
    change 10 * valueOf front + (c.toNat - '0'.toNat) < _
    omega

/-- A number of no more digits than the limit can be written. -/
theorem valueOf_lt_decimalBound {digits : List Char} (h : ∀ c ∈ digits, isDigit c = true)
    (hlength : digits.length ≤ digitLimit) : valueOf digits < decimalBound := by
  unfold decimalBound
  generalize digitLimit = limit at hlength ⊢
  exact Nat.lt_of_lt_of_le (valueOf_lt h) (Nat.pow_le_pow_right (by decide) hlength)

theorem isDigit_of_mem_wholePart? {text whole rest : List Char}
    (h : wholePart? text = some (whole, rest)) : ∀ c ∈ whole, isDigit c = true := by
  unfold wholePart? at h
  split at h
  · cases h
    simp [isDigit]
  · next c tail _ =>
    split at h
    · next hc =>
      cases h
      refine List.forall_mem_cons.2 ⟨hc, fun d hd => ?_⟩
      exact List.all_eq_true.1 (List.all_takeWhile ..) d hd
    · cases h
  · cases h

section

variable {limits : ReadLimits} {text rest : List Char} {data : Json}

theorem scanUnsigned?_withinDigits (hlimits : limits.digits = some digitLimit) {negative : Bool}
    (h : scanUnsigned? limits negative text = some (.ok data, rest)) : data.WithinDigits := by
  unfold scanUnsigned? at h
  split at h
  · cases h
  · next whole after hwhole =>
    dsimp only at h
    split at h
    · split at h
      · cases h
      · next hdigits =>
        cases h
        have hlength : whole.length ≤ digitLimit := by simpa [exceeds, hlimits] using hdigits
        have hvalue := valueOf_lt_decimalBound (isDigit_of_mem_wholePart? hwhole) hlength
        cases negative with
        | false => exact hvalue
        | true => exact Nat.lt_of_le_of_lt (Int.natAbs_neg (valueOf whole)).le hvalue
    · cases h
      trivial

theorem scanScalar?_withinDigits (hlimits : limits.digits = some digitLimit)
    (h : scanScalar? limits text = some (.ok data, rest)) : data.WithinDigits := by
  unfold scanScalar? at h
  split at h
  case h_7 | h_8 => exact scanUnsigned?_withinDigits hlimits h
  all_goals
    cases h
    trivial

end

/-! ## The reader -/

/-- No integer in an open container is too long to be written. -/
def Frame.WithinDigits : Frame → Prop
  | .arr items => ItemsWithinDigits items
  | .obj fields _ => FieldsWithinDigits fields

/-- No integer in the value that has just been read is too long to be written. -/
def Stage.WithinDigits : Stage → Prop
  | .value => True
  | .after data => Json.WithinDigits data

/-- A list that is closed is within the limit. -/
theorem closed_withinDigits {value : Json} {items : List Json} (hvalue : value.WithinDigits)
    (hitems : ItemsWithinDigits items) : WithinDigits (.arr (value :: items).reverse) := by
  refine itemsWithinDigits_iff.2 fun item hitem => ?_
  exact itemsWithinDigits_iff.1 (show ItemsWithinDigits (value :: items) from ⟨hvalue, hitems⟩)
    item (List.mem_reverse.1 hitem)

/-- The reader adds only integers within the limit to what it holds. -/
theorem read_withinDigits {limits : ReadLimits} (hlimits : limits.digits = some digitLimit)
    {depth : Nat} {stage : Stage} {stack : List Frame} {text rest : List Char} {data : Json}
    (hstage : stage.WithinDigits) (hstack : ∀ frame ∈ stack, frame.WithinDigits)
    (h : read limits depth stage stack text = .ok (data, rest)) : data.WithinDigits := by
  fun_induction read limits depth stage stack text with
  -- The reader stops with a refusal.
  | case3 | case6 | case8 | case10 | case11 | case16 | case18 | case20 => cases h
  | case1 _ _ _ _ hscan =>
    split at h
    · cases h
    · next hscan' => cases hscan.symm.trans hscan'
  -- It has read a value of its own, or opens a container.
  | case2 _ _ _ _ _ hscan _ ih =>
    split at h
    · cases h
    · next hscan' =>
      cases hscan.symm.trans hscan'
      exact ih trivial hstack h
  | case4 _ _ _ _ _ _ _ ih | case7 _ _ _ _ _ _ _ ih => exact ih trivial hstack h
  | case5 _ _ _ _ _ _ ih | case9 _ _ _ _ _ _ _ _ _ _ ih =>
    exact ih trivial (List.forall_mem_cons.2 ⟨trivial, hstack⟩) h
  | case12 _ _ _ _ _ _ _ _ hscan _ ih =>
    exact ih (scanScalar?_withinDigits hlimits hscan) hstack h
  -- It goes on after a value, and puts it into the innermost container.
  | case13 =>
    cases h
    exact hstage
  | case14 _ _ _ _ _ _ _ _ ih =>
    obtain ⟨hitems, houter⟩ := List.forall_mem_cons.1 hstack
    exact ih (closed_withinDigits hstage hitems) houter h
  | case15 _ _ _ _ _ _ _ _ _ ih =>
    obtain ⟨hitems, houter⟩ := List.forall_mem_cons.1 hstack
    exact ih trivial (List.forall_mem_cons.2 ⟨⟨hstage, hitems⟩, houter⟩) h
  | case17 _ _ _ _ _ _ _ _ _ ih =>
    obtain ⟨hfields, houter⟩ := List.forall_mem_cons.1 hstack
    exact ih (FieldsWithinDigits.insert hfields hstage) houter h
  | case19 _ _ _ _ _ _ _ _ _ _ _ _ _ _ ih =>
    obtain ⟨hfields, houter⟩ := List.forall_mem_cons.1 hstack
    exact ih trivial
      (List.forall_mem_cons.2 ⟨FieldsWithinDigits.insert hfields hstage, houter⟩) h

end Reader

/-- No integer in the data that a text spells is too long to be written. -/
theorem parse_withinDigits {limits : ReadLimits} (hlimits : limits.digits = some digitLimit)
    {text : List Char} {data : Json} (h : parse limits text = .ok data) : data.WithinDigits := by
  unfold parse at h
  split at h
  · cases h
  · split at h
    · cases h
    · next hread =>
      split at h
      · cases h
        have hstage : Reader.Stage.value.WithinDigits := trivial
        exact Reader.read_withinDigits hlimits hstage (by simp) hread
      · cases h

end Json

/-! ## Trees that have a dump -/

namespace Node

/-- The integer of a label, if it has one, can be written. -/
def Label.WithinDigits : Label → Prop
  | .int value => value.natAbs < decimalBound
  | .str _ | .bool _ | .print | .letIn _ | .var _ | .cond | .function _ | .call | .binary _
  | .tuple | .first | .second => True

/-- No integer in a tree is too long to be written. -/
inductive WithinDigits : Node → Prop
  | intro {node : Node} : node.label.WithinDigits →
    (∀ child ∈ node.subtrees, child.WithinDigits) → node.WithinDigits

theorem Label.WithinDigits.exists_detail {label : Label} (h : label.WithinDigits) :
    ∃ detail, label.detail = .ok detail := by
  cases label with
  | int value => exact ⟨some (decimalText value), by rw [detail, decimal_of_lt h]; rfl⟩
  | _ => exact ⟨_, rfl⟩

/-- Several trees have dumps, if each of them has. -/
theorem exists_dumpAll_of_forall {steps : Int} {nodes : List Node}
    (h : ∀ node ∈ nodes, ∃ lines, node.dumpLines steps = .ok lines) :
    ∃ lines, dumpAll steps nodes = .ok lines := by
  induction nodes with
  | nil => exact ⟨[], rfl⟩
  | cons node rest ih =>
    obtain ⟨⟨lines, hlines⟩, hrest⟩ := List.forall_mem_cons.1 h
    obtain ⟨others, hothers⟩ := ih hrest
    exact ⟨lines ++ others, by rw [dumpAll, hlines, hothers]; rfl⟩

/-- A tree has a dump if no integer in it is too long to be written. -/
theorem WithinDigits.exists_dumpLines {node : Node} (h : node.WithinDigits) (steps : Int) :
    ∃ lines, node.dumpLines steps = .ok lines := by
  induction h generalizing steps with
  | @intro node hlabel _ ih =>
    obtain ⟨ihoperands, iharguments⟩ := forall_mem_subtrees.1 ih
    obtain ⟨detail, hdetail⟩ := hlabel.exists_detail
    obtain ⟨operands, hoperands⟩ :=
      exists_dumpAll_of_forall fun operand hmem => ihoperands operand hmem (steps + 1)
    obtain ⟨arguments, harguments⟩ :=
      exists_dumpAll_of_forall fun argument hmem => iharguments argument hmem (steps + 2)
    exact ⟨_, by rw [dumpLines_eq, hdetail, hoperands, harguments]; rfl⟩

theorem WithinDigits.exists_dump {node : Node} (h : node.WithinDigits) (steps : Int) :
    ∃ text, node.dump steps = .ok text := by
  obtain ⟨lines, hlines⟩ := h.exists_dumpLines steps
  exact ⟨_, by rw [dump, hlines]; rfl⟩

end Node

/-! ## Decoding -/

namespace Wire

/-- No integer in a part is too long to be written. -/
def Part.WithinDigits : Part → Prop
  | .integer value => value.natAbs < decimalBound
  | .node tree => tree.WithinDigits
  | .nodes trees => ∀ tree ∈ trees, tree.WithinDigits
  | .text _ | .truth _ | .operator _ | .names _ => True

/-- A node is within the limit if its parts are. -/
theorem assemble_withinDigits (kind : Node.Kind) {parts : List Part} (l : Option Location)
    (h : ∀ part ∈ parts, part.WithinDigits) : (assemble kind parts l).WithinDigits := by
  refine .intro ?_ fun child hchild => ?_
  · unfold assemble
    split
    case h_2 => exact h _ List.mem_cons_self
    all_goals trivial
  · obtain ⟨part, hpart, hchild⟩ := exists_part_of_mem_subtrees hchild
    have hwithin := h part hpart
    cases part with
    | node tree =>
      obtain rfl := List.mem_singleton.1 hchild
      exact hwithin
    | nodes trees => exact hwithin child hchild
    | _ => simp [Part.trees] at hchild

section

variable {decode : Json → Except Halt Node} {data : Json}

/-- A part is within the limit if the data that it was read from is. -/
theorem Part.From.withinDigits
    (hdecode : ∀ {data tree}, data.WithinDigits → decode data = .ok tree → tree.WithinDigits)
    {part : Part} (h : part.From decode data) (hdata : data.WithinDigits) : part.WithinDigits := by
  cases part with
  | integer value =>
    obtain rfl := h
    exact hdata
  | node tree => exact hdecode hdata h
  | nodes trees =>
    obtain ⟨items, rfl, htrees⟩ := h
    intro tree htree
    obtain ⟨item, hitem, htree⟩ := htrees tree htree
    exact hdecode (hdata.mem hitem) htree
  | text | truth | operator | names => trivial

end

/-- A tree is within the limit if the data that it is decoded from is. -/
theorem decodeNode_withinDigits {budget : Nat} {data : Json} {node : Node}
    (hdata : data.WithinDigits) (h : decodeNode budget data = .ok node) : node.WithinDigits := by
  induction budget generalizing data node with
  | zero => cases h
  | succ budget ih =>
    cases decoded_of_decodeWith h with
    | bool | str => exact .intro trivial (by simp [Node.subtrees, Node.operands, Node.arguments])
    | int => exact .intro hdata (by simp [Node.subtrees, Node.operands, Node.arguments])
    | object kind l hparts =>
      refine assemble_withinDigits kind l fun part hpart => ?_
      obtain ⟨key, data, hlookup, hfrom⟩ := hparts part hpart
      exact hfrom.withinDigits ih (Json.FieldsWithinDigits.lookup hdata hlookup)

/-- The tree of a program is within the limit if the data that it is decoded from is. -/
theorem decodeProgram_withinDigits {limits : Limits} {data : Json} {program : Program}
    (hdata : data.WithinDigits) (h : decodeProgram limits data = .ok program) :
    program.expression.WithinDigits := by
  cases data with
  | obj fields =>
    simp only [decodeProgram] at h
    split at h
    · cases h
    · next data hexpression =>
      obtain ⟨tree, htree, h⟩ := bind_eq_ok h
      obtain ⟨l, -, h⟩ := bind_eq_ok h
      cases h
      unfold decodeExpression at htree
      split at htree
      · cases htree
      · exact decodeNode_withinDigits (Json.FieldsWithinDigits.lookup hdata hexpression) htree
  | _ => cases h

/-- A program that a text spells has a dump. -/
theorem exists_dump_of_decodeText {limits : Limits} {text filename : String} {program : Program}
    (h : decodeText limits text filename = .ok program) (steps : Int) :
    ∃ tree, program.expression.dump steps = .ok tree := by
  unfold decodeText at h
  dsimp only at h
  split at h
  · cases h
  · next data hparse =>
    split at h
    · cases h
    · next hprogram =>
      cases h
      have hdata := Json.parse_withinDigits rfl hparse
      exact (decodeProgram_withinDigits hdata hprogram).exists_dump steps

end Wire

end Rinha
