import Rinha.Proofs.Labels
import Rinha.Proofs.Texts
import Rinha.Proofs.Values

/-!
# Dumps are unambiguous

Two trees with the same dump are the same, apart from their locations, if their names are proper and
their integers can be written.

A label is read back from its line: the blanks in front tell how far the line is indented, the kind
ends at the parenthesis, and what is inside the parentheses tells the rest.  The lines of a tree are
told from those that follow by their indentation.  What follows a tree is indented by one step more
than the tree at most, since it is an argument of the call whose callee the tree ends, or stands
further out.  The operands of a node are told apart because the label says how many there are, and
the arguments of a call because they are indented by two steps more than the call.

## Main definitions

* `ProperName`, `Node.Proper` -- names and trees that a dump can show.
* `Node.indented_heading_inj`, `Node.Label.eq_of_detail` -- a label is read back from its line.
* `Node.ReadsBack`, `Node.Proper.readsBack` -- a tree is read back from lines that start with its
  dump.
-/

namespace Rinha

/-! ## Lines -/

/-- A name that a dump can show: it is not empty, and holds neither a line feed nor a comma. -/
def ProperName (name : String) : Prop :=
  name ≠ "" ∧ '\n' ∉ name.toList ∧ ',' ∉ name.toList

/-- Names are read back from a list of parameters. -/
theorem parameters_inj {names names' : List String} (h : ∀ name ∈ names, ProperName name)
    (h' : ∀ name ∈ names', ProperName name)
    (heq : ", ".intercalate names = ", ".intercalate names') : names = names' := by
  -- Only an empty list has an empty text, since no name is empty.
  have hempty : ∀ name rest, ProperName name → ", ".intercalate (name :: rest) ≠ "" := by
    intro name rest hname htext
    have hchars := congrArg String.toList htext
    rw [String.toList_intercalate, List.map_cons, Text.intercalate_cons] at hchars
    simp [hname.1] at hchars
  cases names with
  | nil =>
    cases names' with
    | nil => rfl
    | cons name' rest' => exact absurd heq.symm (hempty name' rest' (h' name' List.mem_cons_self))
  | cons name rest =>
    cases names' with
    | nil => exact absurd heq (hempty name rest (h name List.mem_cons_self))
    | cons name' rest' =>
      exact Text.joined_inj (c := ',') rfl (fun text htext => (h text htext).2.2)
        (fun text htext => (h' text htext).2.2) (by simp) (by simp) heq

namespace Node

/-- A label that a dump can show: its names are proper, and its integer can be written. -/
def Label.Proper : Label → Prop
  | .int value => value.natAbs < decimalBound
  | .letIn name | .var name => ProperName name
  | .function parameters => ∀ name ∈ parameters, ProperName name
  | .str _ | .bool _ | .print | .cond | .call | .binary _ | .tuple | .first | .second => True

/-- The name of a kind starts with a mark that is no blank. -/
theorem Kind.exists_head?_name (kind : Kind) :
    ∃ c, kind.name.toList.head? = some c ∧ c ≠ ' ' := by
  cases kind <;> exact ⟨_, rfl, by decide⟩

/-- The name of a kind holds neither a parenthesis nor a line feed. -/
theorem Kind.forall_mem_name (kind : Kind) : ∀ c ∈ kind.name.toList, c ≠ '(' ∧ c ≠ '\n' := by
  cases kind <;> simp [Kind.name]

/-- The part of a heading after the name of the kind. -/
def details : Option String → List Char
  | none => []
  | some detail => '(' :: detail.toList ++ [')']

theorem toList_heading (kind : Kind) (detail : Option String) :
    (heading kind detail).toList = kind.name.toList ++ details detail := by
  cases detail <;> simp [heading, details]

theorem details_inj {detail detail' : Option String} (h : details detail = details detail') :
    detail = detail' := by
  cases detail <;> cases detail' <;> simp_all [details, String.toList_inj]

/-- The kind and what is shown beside it are read back from a heading. -/
theorem heading_inj {kind kind' : Kind} {detail detail' : Option String}
    (h : heading kind detail = heading kind' detail') : kind = kind' ∧ detail = detail' := by
  have hback : ∀ other : Option String, ∀ c ∈ (details other).head?, ¬ c ≠ '(' := by
    intro other
    cases other <;> simp [details]
  have hchars := congrArg String.toList h
  rw [toList_heading, toList_heading] at hchars
  obtain ⟨hname, hdetail⟩ := Text.append_inj_of_forall (fun c hc => (kind.forall_mem_name c hc).1)
    (fun c hc => (kind'.forall_mem_name c hc).1) (hback detail) (hback detail') hchars
  exact ⟨Kind.name_injective (String.toList_inj.1 hname), details_inj hdetail⟩

theorem toList_indented (steps : Int) (line : String) :
    (indented steps line).toList = List.replicate (2 * steps.toNat) ' ' ++ line.toList := by
  simp [indented]

/-- The indentation and the heading are read back from a line. -/
theorem indented_heading_inj {steps steps' : Int} (hsteps : 0 ≤ steps) (hsteps' : 0 ≤ steps')
    {kind kind' : Kind} {detail detail' : Option String}
    (h : indented steps (heading kind detail) = indented steps' (heading kind' detail')) :
    steps = steps' ∧ kind = kind' ∧ detail = detail' := by
  have hblanks : ∀ n, ∀ c ∈ List.replicate n ' ', c = ' ' := fun _ _ hc =>
    List.eq_of_mem_replicate hc
  have hback : ∀ (kind : Kind) (detail : Option String),
      ∀ c ∈ (heading kind detail).toList.head?, c ≠ ' ' := by
    intro kind detail c hc
    obtain ⟨first, hfirst, hne⟩ := kind.exists_head?_name
    rw [toList_heading, List.head?_append, hfirst, Option.some_or, Option.mem_some_iff] at hc
    exact hc ▸ hne
  have hchars := congrArg String.toList h
  rw [toList_indented, toList_indented] at hchars
  obtain ⟨hfront, hheading⟩ := Text.append_inj_of_forall (hblanks _) (hblanks _) (hback kind detail)
    (hback kind' detail') hchars
  obtain ⟨rfl, rfl⟩ := heading_inj (String.toList_inj.1 hheading)
  have hlength := congrArg List.length hfront
  simp only [List.length_replicate] at hlength
  exact ⟨by omega, rfl, rfl⟩

/-- A heading stands on a single line if what is shown beside the kind does. -/
theorem newline_notMem_indented (steps : Int) (kind : Kind) {detail : Option String}
    (h : ∀ text ∈ detail, '\n' ∉ text.toList) :
    '\n' ∉ (indented steps (heading kind detail)).toList := by
  have hname : '\n' ∉ kind.name.toList := fun hmem => (kind.forall_mem_name _ hmem).2 rfl
  rw [toList_indented, toList_heading]
  cases detail with
  | none => simp [hname, details]
  | some text => simpa [hname, details] using h text rfl

/-- What a dump shows of a proper label stands on a single line. -/
theorem Label.Proper.exists_detail {label : Label} (h : label.Proper) :
    ∃ detail, label.detail = .ok detail ∧ ∀ text ∈ detail, '\n' ∉ text.toList := by
  cases label with
  | str value => exact ⟨_, rfl, by simpa using Text.newline_notMem_quote value⟩
  | int value =>
    exact ⟨some (decimalText value), by rw [detail, decimal_of_lt h]; rfl,
      by simpa using Text.newline_notMem_decimalText value⟩
  | bool value => exact ⟨_, rfl, by cases value <;> simp⟩
  | letIn name | var name => exact ⟨_, rfl, by simpa using h.2.1⟩
  | function parameters =>
    have hseparator : '\n' ∉ ", ".toList := by decide
    have hnames := Text.notMem_intercalate hseparator
      (List.forall_mem_map.2 fun name hname => (h name hname).2.1)
    exact ⟨_, rfl, by simpa [String.toList_intercalate] using hnames⟩
  | binary op => exact ⟨_, rfl, by cases op <;> simp [Operator.name]⟩
  | print | cond | call | tuple | first | second => exact ⟨none, rfl, by simp⟩

/-- A proper label is read back from its kind and from what a dump shows beside it. -/
theorem Label.eq_of_detail {label label' : Label} (h : label.Proper) (h' : label'.Proper)
    (hkind : label.kind = label'.kind) (hdetail : label.detail = label'.detail) :
    label = label' := by
  cases label with
  | str value =>
    cases label' with
    | str value' =>
      simp only [detail, Except.ok.injEq, Option.some.injEq] at hdetail
      rw [Text.quote_injective hdetail]
    | _ => cases hkind
  | int value =>
    cases label' with
    | int value' =>
      simp only [detail, decimal_of_lt h, decimal_of_lt h', ok_bind] at hdetail
      rw [Text.decimalText_inj (Option.some.inj (Except.ok.inj hdetail))]
    | _ => cases hkind
  | bool value =>
    cases label' with
    | bool value' => cases value <;> cases value' <;> simp_all [detail]
    | _ => cases hkind
  | letIn name =>
    cases label' with
    | letIn name' =>
      simp only [detail, Except.ok.injEq, Option.some.injEq] at hdetail
      rw [hdetail]
    | _ => cases hkind
  | var name =>
    cases label' with
    | var name' =>
      simp only [detail, Except.ok.injEq, Option.some.injEq] at hdetail
      rw [hdetail]
    | _ => cases hkind
  | function parameters =>
    cases label' with
    | function parameters' =>
      simp only [detail, Except.ok.injEq, Option.some.injEq] at hdetail
      rw [parameters_inj h h' hdetail]
    | _ => cases hkind
  | binary op =>
    cases label' with
    | binary op' =>
      simp only [detail, Except.ok.injEq, Option.some.injEq] at hdetail
      rw [Operator.name_injective hdetail]
    | _ => cases hkind
  | print | cond | call | tuple | first | second => cases label' <;> first | rfl | cases hkind

/-! ## Trees -/

/-- A tree that a dump can show: all of its labels are proper. -/
inductive Proper : Node → Prop
  | intro {node : Node} : node.label.Proper → (∀ child ∈ node.subtrees, child.Proper) → node.Proper

/-- A dump starts with the line of the label. -/
theorem exists_of_dumpLines {steps : Int} {node : Node} {lines : List String}
    (h : node.dumpLines steps = .ok lines) :
    ∃ detail operands arguments, node.label.detail = .ok detail ∧
      dumpAll (steps + 1) node.operands = .ok operands ∧
      dumpAll (steps + 2) node.arguments = .ok arguments ∧
      lines = indented steps (heading node.label.kind detail) :: (operands ++ arguments) := by
  rw [dumpLines_eq] at h
  obtain ⟨detail, hdetail, h⟩ := bind_eq_ok h
  obtain ⟨operands, hoperands, h⟩ := bind_eq_ok h
  obtain ⟨arguments, harguments, h⟩ := bind_eq_ok h
  cases h
  exact ⟨detail, operands, arguments, hdetail, hoperands, harguments, rfl⟩

/-- The dumps of several trees start with that of the first. -/
theorem exists_of_dumpAll_cons {steps : Int} {node : Node} {nodes : List Node}
    {lines : List String} (h : dumpAll steps (node :: nodes) = .ok lines) :
    ∃ first last, node.dumpLines steps = .ok first ∧ dumpAll steps nodes = .ok last ∧
      lines = first ++ last := by
  obtain ⟨first, hfirst, h⟩ := bind_eq_ok h
  obtain ⟨last, hlast, h⟩ := bind_eq_ok h
  cases h
  exact ⟨first, last, hfirst, hlast, rfl⟩

/-- A tree has a dump, and every line of it is a single line. -/
def HasLines (node : Node) : Prop :=
  ∀ steps, ∃ lines, node.dumpLines steps = .ok lines ∧ ∀ line ∈ lines, '\n' ∉ line.toList

theorem exists_dumpAll {nodes : List Node} (h : ∀ node ∈ nodes, node.HasLines) (steps : Int) :
    ∃ lines, dumpAll steps nodes = .ok lines ∧ ∀ line ∈ lines, '\n' ∉ line.toList := by
  induction nodes with
  | nil => exact ⟨[], rfl, by simp⟩
  | cons node rest ih =>
    obtain ⟨lines, hlines, hfeed⟩ := h node List.mem_cons_self steps
    obtain ⟨others, hothers, hfeeds⟩ :=
      ih fun other hother => h other (List.mem_cons_of_mem _ hother)
    refine ⟨lines ++ others, by rw [dumpAll, hlines, hothers]; rfl, fun line hline => ?_⟩
    exact (List.mem_append.1 hline).elim (hfeed line) (hfeeds line)

theorem Proper.hasLines {node : Node} (h : node.Proper) : node.HasLines := by
  induction h with
  | @intro node hlabel _ ih =>
    intro steps
    obtain ⟨ihoperands, iharguments⟩ := forall_mem_subtrees.1 ih
    obtain ⟨detail, hdetail, hfeed⟩ := hlabel.exists_detail
    obtain ⟨operands, hoperands, hfeeds⟩ := exists_dumpAll ihoperands (steps + 1)
    obtain ⟨arguments, harguments, hfeeds'⟩ := exists_dumpAll iharguments (steps + 2)
    refine ⟨_, by rw [dumpLines_eq, hdetail, hoperands, harguments]; rfl, ?_⟩
    refine List.forall_mem_cons.2 ⟨newline_notMem_indented steps _ hfeed, fun line hline => ?_⟩
    exact (List.mem_append.1 hline).elim (hfeeds line) (hfeeds' line)

/-! ## Reading trees back -/

/-- Lines that are none, or of which the first is a heading that is indented no further than by a
number of steps. -/
def StartsWithin (bound : Int) : List String → Prop
  | [] => True
  | line :: _ => ∃ steps kind detail, 0 ≤ steps ∧ steps ≤ bound ∧
    line = indented steps (heading kind detail)

theorem StartsWithin.mono {bound bound' : Int} {lines : List String} (h : StartsWithin bound lines)
    (hbound : bound ≤ bound') : StartsWithin bound' lines := by
  cases lines with
  | nil => trivial
  | cons line rest =>
    obtain ⟨steps, kind, detail, hpos, hle, hline⟩ := h
    exact ⟨steps, kind, detail, hpos, Int.le_trans hle hbound, hline⟩

section

variable {steps : Int} (hsteps : 0 ≤ steps)
include hsteps

/-- Trees that are dumped one after the other start at their own indentation. -/
theorem startsWithin_dumpAll {nodes : List Node} {lines rest : List String}
    (h : dumpAll steps nodes = .ok lines) {bound : Int} (hbound : steps ≤ bound)
    (hrest : StartsWithin bound rest) : StartsWithin bound (lines ++ rest) := by
  cases nodes with
  | nil =>
    cases h
    exact hrest
  | cons node others =>
    obtain ⟨first, last, hfirst, -, rfl⟩ := exists_of_dumpAll_cons h
    obtain ⟨detail, _, _, -, -, -, rfl⟩ := exists_of_dumpLines hfirst
    exact ⟨steps, node.label.kind, detail, hsteps, hbound, rfl⟩

/-- Lines that start further out are no dump of any trees. -/
theorem not_startsWithin_dumpAll {node : Node} {nodes : List Node} {lines rest : List String}
    (h : dumpAll steps (node :: nodes) = .ok lines) {bound : Int} (hbound : bound < steps) :
    ¬ StartsWithin bound (lines ++ rest) := by
  obtain ⟨first, last, hfirst, -, rfl⟩ := exists_of_dumpAll_cons h
  obtain ⟨detail, _, _, -, -, -, rfl⟩ := exists_of_dumpLines hfirst
  rintro ⟨outer, kind, detail', hpos, hle, hline⟩
  have hsame := (indented_heading_inj hsteps hpos hline).1
  omega

end

/-- A tree is read back from lines that start with its dump, whatever follows, as long as that is
not indented by two steps more than the tree or further: no other tree has a dump that the lines
start with, apart from locations. -/
def ReadsBack (node : Node) : Prop :=
  ∀ {node' : Node} {steps : Int} {lines lines' rest rest' : List String},
    node'.Proper → 0 ≤ steps →
    node.dumpLines steps = .ok lines → node'.dumpLines steps = .ok lines' →
    StartsWithin (steps + 1) rest → StartsWithin (steps + 1) rest' →
    lines ++ rest = lines' ++ rest' → node.bare = node'.bare ∧ rest = rest'

/-- Trees that are dumped one after the other are read back, if it is known how many there are, or
what follows them is not indented as far as they are. -/
theorem readsBack_all {nodes nodes' : List Node} (hnodes : ∀ node ∈ nodes, node.ReadsBack)
    (hnodes' : ∀ node ∈ nodes', node.Proper) {steps : Int} (hsteps : 0 ≤ steps)
    {lines lines' rest rest' : List String} (h : dumpAll steps nodes = .ok lines)
    (h' : dumpAll steps nodes' = .ok lines') (hrest : StartsWithin (steps + 1) rest)
    (hrest' : StartsWithin (steps + 1) rest')
    (hend : nodes.length = nodes'.length ∨
      StartsWithin (steps - 1) rest ∧ StartsWithin (steps - 1) rest')
    (heq : lines ++ rest = lines' ++ rest') :
    nodes.map bare = nodes'.map bare ∧ rest = rest' := by
  induction nodes generalizing nodes' lines lines' with
  | nil =>
    cases nodes' with
    | nil =>
      cases h
      cases h'
      exact ⟨rfl, heq⟩
    | cons node' others' =>
      cases h
      rcases hend with hlength | ⟨houter, -⟩
      · simp at hlength
      · rw [List.nil_append] at heq
        exact absurd (heq ▸ houter) (not_startsWithin_dumpAll hsteps h' (by omega))
  | cons node others ih =>
    cases nodes' with
    | nil =>
      cases h'
      rcases hend with hlength | ⟨-, houter⟩
      · simp at hlength
      · rw [List.nil_append] at heq
        exact absurd (heq ▸ houter) (not_startsWithin_dumpAll hsteps h (by omega))
    | cons node' others' =>
      obtain ⟨first, last, hfirst, hlast, rfl⟩ := exists_of_dumpAll_cons h
      obtain ⟨first', last', hfirst', hlast', rfl⟩ := exists_of_dumpAll_cons h'
      rw [List.append_assoc, List.append_assoc] at heq
      obtain ⟨hbare, heq⟩ := hnodes node List.mem_cons_self (hnodes' node' List.mem_cons_self)
        hsteps hfirst hfirst' (startsWithin_dumpAll hsteps hlast (by omega) hrest)
        (startsWithin_dumpAll hsteps hlast' (by omega) hrest') heq
      have hend : others.length = others'.length ∨
          StartsWithin (steps - 1) rest ∧ StartsWithin (steps - 1) rest' := by
        simpa using hend
      obtain ⟨hbares, hrests⟩ := ih
        (fun other hother => hnodes other (List.mem_cons_of_mem _ hother))
        (fun other hother => hnodes' other (List.mem_cons_of_mem _ hother)) hlast hlast' hend heq
      exact ⟨by rw [List.map_cons, List.map_cons, hbare, hbares], hrests⟩

theorem Proper.readsBack {node : Node} (h : node.Proper) : node.ReadsBack := by
  induction h with
  | @intro node hlabel _ ih =>
    intro node' steps lines lines' rest rest' hproper hsteps h h' hrest hrest' heq
    obtain ⟨ihoperands, iharguments⟩ := forall_mem_subtrees.1 ih
    obtain ⟨hlabel', hbelow'⟩ := hproper
    obtain ⟨hproperOperands, hproperArguments⟩ := forall_mem_subtrees.1 hbelow'
    obtain ⟨detail, operands, arguments, hdetail, hoperands, harguments, rfl⟩ :=
      exists_of_dumpLines h
    obtain ⟨detail', operands', arguments', hdetail', hoperands', harguments', rfl⟩ :=
      exists_of_dumpLines h'
    rw [List.cons_append, List.cons_append, List.append_assoc, List.append_assoc] at heq
    obtain ⟨hline, hbelow⟩ := List.cons.inj heq
    obtain ⟨-, hkind, rfl⟩ := indented_heading_inj hsteps hsteps hline
    have hsame : node.label = node'.label :=
      Label.eq_of_detail hlabel hlabel' hkind (hdetail.trans hdetail'.symm)
    -- The label says how many operands there are.
    have hlength : node.operands.length = node'.operands.length := by
      rw [length_operands, length_operands, hsame]
    obtain ⟨hbareOperands, hlast⟩ := readsBack_all ihoperands hproperOperands (by omega) hoperands
      hoperands' (startsWithin_dumpAll (by omega) harguments (by omega) (hrest.mono (by omega)))
      (startsWithin_dumpAll (by omega) harguments' (by omega) (hrest'.mono (by omega)))
      (.inl hlength) hbelow
    -- The arguments end where a line is not indented by two steps more than the node.
    obtain ⟨hbareArguments, hrests⟩ := readsBack_all iharguments hproperArguments (by omega)
      harguments harguments' (hrest.mono (by omega)) (hrest'.mono (by omega))
      (.inr ⟨hrest.mono (by omega), hrest'.mono (by omega)⟩) hlast
    exact ⟨by rw [bare_eq, bare_eq, hsame, hbareOperands, hbareArguments], hrests⟩

/-! ## Dumps of trees -/

mutual

/-- Locations are not shown. -/
theorem dumpLines_bare (steps : Int) (node : Node) :
    node.bare.dumpLines steps = node.dumpLines steps := by
  match node with
  | .str .. | .int .. | .bool .. | .var .. => rfl
  | .print operand _ | .first operand _ | .second operand _ =>
    simp only [bare, dumpLines, dumpLines_bare _ operand]
  | .function _ body _ => simp only [bare, dumpLines, dumpLines_bare _ body]
  | .letIn _ operand next _ =>
    simp only [bare, dumpLines, dumpLines_bare _ operand, dumpLines_bare _ next]
  | .cond condition then_ otherwise _ =>
    simp only [bare, dumpLines, dumpLines_bare _ condition, dumpLines_bare _ then_,
      dumpLines_bare _ otherwise]
  | .call callee arguments _ =>
    simp only [bare, dumpLines, dumpLines_bare _ callee, dumpAll_bareAll _ arguments]
  | .binary _ lhs rhs _ | .tuple lhs rhs _ =>
    simp only [bare, dumpLines, dumpLines_bare _ lhs, dumpLines_bare _ rhs]

theorem dumpAll_bareAll (steps : Int) (nodes : List Node) :
    dumpAll steps (bareAll nodes) = dumpAll steps nodes := by
  match nodes with
  | [] => rfl
  | node :: rest =>
    simp only [bareAll, dumpAll, dumpLines_bare steps node, dumpAll_bareAll steps rest]

end

theorem dump_bare (steps : Int) (node : Node) : node.bare.dump steps = node.dump steps := by
  rw [dump, dump, dumpLines_bare]

/-- A proper tree has a dump, which is made up of lines. -/
theorem Proper.exists_dump {node : Node} (h : node.Proper) (steps : Int) :
    ∃ lines, node.dumpLines steps = .ok lines ∧ node.dump steps = .ok ("\n".intercalate lines) ∧
      lines ≠ [] ∧ ∀ line ∈ lines, '\n' ∉ line.toList := by
  obtain ⟨lines, hlines, hfeed⟩ := h.hasLines steps
  obtain ⟨_, _, _, -, -, -, hcons⟩ := exists_of_dumpLines hlines
  exact ⟨lines, hlines, by rw [dump, hlines]; rfl, by simp [hcons], hfeed⟩

/-- A dump for which there is room is the dump of the tree. -/
theorem dump_of_dumpWithin {steps : Int} {node : Node} {text : String}
    (h : node.dumpWithin steps = .ok text) : node.dump steps = .ok text := by
  obtain ⟨_, -, h⟩ := bind_eq_ok h
  cases hdump : node.dump steps with
  | ok text' =>
    rw [hdump] at h
    cases h
    rfl
  | error refusal =>
    rw [hdump] at h
    cases h

/-- **Dumps are unambiguous.**  A tree whose names are proper and whose integers can be written has
a dump, from whatever indentation on.  Two such trees have the same dump exactly if they are the
same apart from their locations. -/
theorem dump_unambiguous {node node' : Node} (h : node.Proper) (h' : node'.Proper) {steps : Int}
    (hsteps : 0 ≤ steps) :
    (∃ text, node.dump steps = .ok text) ∧
    (node.dump steps = node'.dump steps ↔ node.bare = node'.bare) ∧
    ∀ text, node.dumpWithin steps = .ok text → node'.dumpWithin steps = .ok text →
      node.bare = node'.bare := by
  obtain ⟨lines, hlines, hdump, hne, hfeed⟩ := h.exists_dump steps
  obtain ⟨lines', hlines', hdump', hne', hfeed'⟩ := h'.exists_dump steps
  have hsame : node.dump steps = node'.dump steps → node.bare = node'.bare := by
    intro heq
    rw [hdump, hdump'] at heq
    have hjoined : lines = lines' :=
      Text.joined_inj (c := '\n') rfl hfeed hfeed' hne hne' (Except.ok.inj heq)
    have hends : lines ++ [] = lines' ++ [] := by rw [hjoined]
    have hnone : StartsWithin (steps + 1) [] := trivial
    exact (h.readsBack h' hsteps hlines hlines' hnone hnone hends).1
  refine ⟨⟨_, hdump⟩, ⟨hsame, fun hbare => ?_⟩, fun text htext htext' => ?_⟩
  · rw [← dump_bare, hbare, dump_bare]
  · exact hsame ((dump_of_dumpWithin htext).trans (dump_of_dumpWithin htext').symm)

/-- A call of what a call without arguments yields, and a call without arguments of what a call
yields. -/
theorem dump_unambiguous_calls :
    let inner : Node := .call (.call (.var "f" none) [.str "it's" none] none) [] none
    let outer : Node := .call (.call (.var "f" none) [] none) [.str "it's" none] none
    let located : Node :=
      .call (.call (.var "f" (some ⟨.int 0, .int 1, "a"⟩)) [] none) [.str "it's" none] none
    inner.dump 0 ≠ outer.dump 0 ∧ located.dump 0 = outer.dump 0 := by
  intro inner outer located
  have hname : ∀ l, (Node.var "f" l).Proper := fun l =>
    .intro ⟨by decide, by decide, by decide⟩ (by simp [subtrees, operands, arguments])
  have htext : (Node.str "it's" none).Proper :=
    .intro trivial (by simp [subtrees, operands, arguments])
  have hcall : ∀ {callee : Node} {args : List Node}, callee.Proper → (∀ arg ∈ args, arg.Proper) →
      (Node.call callee args none).Proper := fun hcallee hargs =>
    .intro trivial (List.forall_mem_cons.2 ⟨hcallee, hargs⟩)
  have hinner : inner.Proper := hcall (hcall (hname none) (by simpa using htext)) (by simp)
  have houter : outer.Proper := hcall (hcall (hname none) (by simp)) (by simpa using htext)
  have hlocated : located.Proper := hcall (hcall (hname _) (by simp)) (by simpa using htext)
  refine ⟨fun hsame => ?_, ((dump_unambiguous hlocated houter (Int.le_refl 0)).2.1).2 rfl⟩
  have hbare := ((dump_unambiguous hinner houter (Int.le_refl 0)).2.1).1 hsame
  cases hbare

end Node

end Rinha
