import Mathlib.Data.List.Induction
import Rinha.Diagnostic
import Rinha.Proofs.Texts

/-!
# Lines and columns

The line of a position is counted forwards, its column is reckoned backwards to the last line feed,
and its text is put together from what stands on both sides.  All three agree with one cut of the
text into lines: a position inside the text, or at its end, lies at exactly one place of one line,
and no other position lies there.

## Main definitions

* `Source.lines`, `Source.extent` -- the lines of a text, and how much of it some lines take up.
* `Source.Place` -- a position is a column of a line.
* `Source.exists_lines_before` -- the lines of a text around a cut.
* `Source.place_iff`, `Source.Place.position_eq` -- a position has one place, and a place one
  position.
* `Diagnostic.numbered` -- a line behind its number.
* `Diagnostic.lines_context` -- what is shown of a source text.
* `line_and_column_identify` -- the places that diagnostics name and show.
-/

namespace Rinha

namespace Source

/-! ## Lines -/

/-- The lines of a text, without their line feeds. -/
def lines (text : List Char) : List (List Char) :=
  text.splitOn '\n'

/-- The first line of a text goes up to the first line feed. -/
def firstLine (text : List Char) : List Char :=
  text.takeWhile (· != '\n')

section

variable {c : Char} (text : List Char)

@[simp] theorem lines_newline_cons : lines ('\n' :: text) = [] :: lines text := by
  simp [lines, List.splitOn_cons_eq_if_modifyHead]

theorem lines_cons_of_ne (hc : c ≠ '\n') :
    lines (c :: text) = (lines text).modifyHead (c :: ·) := by
  simp [lines, List.splitOn_cons_eq_if_modifyHead, hc]

@[simp] theorem firstLine_newline_cons : firstLine ('\n' :: text) = [] := by
  simp [firstLine]

theorem firstLine_cons_of_ne (hc : c ≠ '\n') : firstLine (c :: text) = c :: firstLine text := by
  simp [firstLine, hc]

/-- The first of the lines, and the others. -/
theorem lines_eq_cons : lines text = firstLine text :: (lines text).tail := by
  induction text with
  | nil => rfl
  | cons c rest ih =>
    by_cases hc : c = '\n'
    · subst hc
      simp
    · rw [lines_cons_of_ne rest hc, firstLine_cons_of_ne rest hc, ih]
      simp

theorem tail_lines_cons_of_ne (hc : c ≠ '\n') :
    (lines (c :: text)).tail = (lines text).tail := by
  rw [lines_cons_of_ne text hc]
  cases lines text <;> rfl

@[simp] theorem lineEnd_append_newline : lineEnd (text ++ ['\n']) = [] := by
  simp [lineEnd]

theorem lineEnd_append_of_ne (hc : c ≠ '\n') : lineEnd (text ++ [c]) = lineEnd text ++ [c] := by
  simp [lineEnd, hc]

theorem newline_notMem_lineEnd : '\n' ∉ lineEnd text := by
  intro h
  have hmem : '\n' ∈ text.reverse.takeWhile (· != '\n') := List.mem_reverse.1 h
  simpa using List.all_eq_true.1 (List.all_takeWhile ..) _ hmem

theorem newline_notMem_firstLine : '\n' ∉ firstLine text := by
  intro h
  simpa using List.all_eq_true.1 (List.all_takeWhile ..) _ h

end

/-- How many characters of a text some of its lines take up, with a line feed behind each. -/
def extent (lines : List (List Char)) : Nat :=
  (lines.map fun line => line.length + 1).sum

@[simp] theorem extent_append (front back : List (List Char)) :
    extent (front ++ back) = extent front + extent back := by
  simp [extent]

@[simp] theorem extent_singleton (line : List Char) : extent [line] = line.length + 1 := by
  simp [extent]

/-- Where a text is cut, some lines are complete, and the line of the cut is made of the end of what
stands before it and the first line of what stands behind it. -/
theorem exists_lines_before (before : List Char) : ∃ complete, complete.length = before.count '\n' ∧
    extent complete + (lineEnd before).length = before.length ∧
    ∀ after, lines (before ++ after) =
      complete ++ (lineEnd before ++ firstLine after) :: (lines after).tail := by
  -- From the end, where `lineEnd` starts; what stands behind the cut takes up the last character.
  induction before using List.reverseRecOn with
  | nil =>
    refine ⟨[], rfl, rfl, ?_⟩
    intro after
    exact lines_eq_cons after
  | append_singleton front c ih =>
    obtain ⟨complete, hcount, hextent, hlines⟩ := ih
    by_cases hc : c = '\n'
    · -- A line feed completes the line that it ends.
      subst hc
      refine ⟨complete ++ [lineEnd front], ?_, ?_, ?_⟩
      · simp [hcount]
      · simp only [extent_append, extent_singleton, lineEnd_append_newline, List.length_append,
          List.length_cons, List.length_nil]
        omega
      · intro after
        have hafter := hlines ('\n' :: after)
        simp only [lines_newline_cons, firstLine_newline_cons, List.append_nil,
          List.tail_cons] at hafter
        rw [List.append_assoc, List.singleton_append, hafter, lineEnd_append_newline,
          List.append_assoc, List.singleton_append, List.nil_append, ← lines_eq_cons]
    · refine ⟨complete, ?_, ?_, ?_⟩
      · have hnone : List.count '\n' [c] = 0 := List.count_eq_zero.2 (by simpa using Ne.symm hc)
        rw [List.count_append, hcount, hnone, Nat.add_zero]
      · rw [lineEnd_append_of_ne front hc, List.length_append, List.length_append]
        omega
      · intro after
        have hafter := hlines (c :: after)
        rw [firstLine_cons_of_ne after hc, tail_lines_cons_of_ne after hc] at hafter
        rw [List.append_assoc, List.singleton_append, hafter, lineEnd_append_of_ne front hc,
          List.append_assoc, List.singleton_append]

/-! ## Places -/

/-- A position of a text is a column of a line, both counted from one: the lines before that line
and the columns before that column take up as many characters as stand before the position.  There
is a column for each character of a line and one behind the last. -/
structure Place (text : List Char) (position : Int) (line column : Nat) (content : List Char) :
    Prop where
  one_le_line : 1 ≤ line
  line_le : line ≤ (lines text).length
  content_eq : (lines text)[line - 1]? = some content
  one_le_column : 1 ≤ column
  column_le : column ≤ content.length + 1
  position_eq : position = extent ((lines text).take (line - 1)) + (column - 1 : Nat)

section

variable {text : List Char} {position : Int}

/-- The cut of a text at a position that is not outside it. -/
theorem index_toNat (low : 0 ≤ position) (high : position ≤ text.length) :
    index text position = position.toNat := by
  rw [index, if_neg (by omega)]
  omega

theorem length_before (low : 0 ≤ position) (high : position ≤ text.length) :
    ((before text position).length : Int) = position := by
  rw [before, index_toNat low high, List.length_take]
  omega

/-- The line of a position, between the lines before it and those behind it. -/
theorem exists_lines_around (low : 0 ≤ position) (high : position ≤ text.length) :
    ∃ complete rest, lines text = complete ++ lineText text position :: rest ∧
      lineNumber text position = complete.length + 1 ∧
      position = extent complete + (lineEnd (before text position)).length ∧
      column text position = (lineEnd (before text position)).length + 1 := by
  obtain ⟨complete, hcount, hextent, hlines⟩ := exists_lines_before (before text position)
  have hlength := length_before low high
  refine ⟨complete, (lines (text.drop (index text position))).tail, ?_, ?_, ?_, ?_⟩
  · have hcut : before text position ++ text.drop (index text position) = text :=
      List.take_append_drop ..
    have hwhole := hlines (text.drop (index text position))
    rw [hcut] at hwhole
    exact hwhole
  · rw [lineNumber, hcount]
  · omega
  · rw [column, lineStart]
    omega

theorem length_lineText_le (text : List Char) (position : Int) :
    (lineText text position).length ≤ text.length := by
  have hend : (lineEnd (before text position)).length ≤ (before text position).length := by
    have hsublist := (List.takeWhile_sublist (l := (before text position).reverse)
      (· != '\n')).length_le
    rwa [List.length_reverse, ← List.length_reverse] at hsublist
  have hfirst := (List.takeWhile_sublist (l := text.drop (index text position))
    (· != '\n')).length_le
  have hwhole := congrArg List.length (List.take_append_drop (index text position) text)
  rw [List.length_append] at hwhole
  rw [lineText, List.length_append]
  exact hwhole ▸ Nat.add_le_add hend hfirst

/-- A position that is not outside a text lies where its line and its column say. -/
theorem place (low : 0 ≤ position) (high : position ≤ text.length) :
    Place text position (lineNumber text position) (column text position).toNat
      (lineText text position) := by
  obtain ⟨complete, rest, hlines, hnumber, hposition, hcolumn⟩ := exists_lines_around low high
  constructor
  case one_le_line => omega
  case line_le =>
    rw [hlines, hnumber, List.length_append, List.length_cons]
    omega
  case content_eq => simp [hlines, hnumber]
  case one_le_column => omega
  case column_le =>
    rw [lineText, List.length_append]
    omega
  case position_eq =>
    have htake : (lines text).take (lineNumber text position - 1) = complete := by
      simp [hlines, hnumber]
    rw [htake]
    omega

end

/-! ### One place for each position -/

section

variable {text content content' : List Char} {position position' : Int}
  {line line' column column' : Nat}

/-- What lines take up grows from each to the next by the line and its line feed. -/
theorem extent_take_succ {all : List (List Char)} {n : Nat} (h : all[n]? = some content) :
    extent (all.take (n + 1)) = extent (all.take n) + (content.length + 1) := by
  rw [List.take_add_one, h, extent_append]
  simp

theorem extent_take_le {m n : Nat} (all : List (List Char)) (h : m ≤ n) :
    extent (all.take m) ≤ extent (all.take n) := by
  have hprefix := List.take_append_drop m (all.take n)
  rw [List.take_take, Nat.min_eq_left h] at hprefix
  rw [← hprefix, extent_append]
  exact Nat.le_add_right ..

/-- A line ends before every later line begins. -/
theorem Place.lt_of_line_lt (h : Place text position line column content)
    (h' : Place text position' line' column' content') (hline : line < line') :
    position < position' := by
  have hfirst := h.one_le_line
  have hnext := extent_take_succ h.content_eq
  have hlater := extent_take_le (lines text) (show line - 1 + 1 ≤ line' - 1 by omega)
  have hcolumn := h.column_le
  have hposition := h.position_eq
  have hposition' := h'.position_eq
  omega

/-- There is one position for a line and a column. -/
theorem Place.position_inj (h : Place text position line column content)
    (h' : Place text position' line column content') : position = position' := by
  rw [h.position_eq, h'.position_eq]

/-- There is one place for a position. -/
theorem Place.unique (h : Place text position line column content)
    (h' : Place text position line' column' content') :
    line = line' ∧ column = column' ∧ content = content' := by
  have hline : line = line' := by
    rcases Nat.lt_trichotomy line line' with hlt | heq | hgt
    · have := h.lt_of_line_lt h' hlt
      omega
    · exact heq
    · have := h'.lt_of_line_lt h hgt
      omega
  subst hline
  have hcolumn : column - 1 = column' - 1 := by
    have hposition := h.position_eq
    have hposition' := h'.position_eq
    omega
  have hone := h.one_le_column
  have hone' := h'.one_le_column
  refine ⟨rfl, by omega, ?_⟩
  exact Option.some.inj (h.content_eq.symm.trans h'.content_eq)

/-- The line, the column and the text of the line of a position are where it lies. -/
theorem place_iff (low : 0 ≤ position) (high : position ≤ text.length) :
    Place text position line column content ↔ line = lineNumber text position ∧
      (column : Int) = Source.column text position ∧ content = lineText text position := by
  have hplace := place low high
  constructor
  · intro h
    obtain ⟨hline, hcolumn, hcontent⟩ := h.unique hplace
    have hone := h.one_le_column
    exact ⟨hline, by omega, hcontent⟩
  · rintro ⟨rfl, hcolumn, rfl⟩
    have htoNat : (Source.column text position).toNat = column := by omega
    rw [htoNat] at hplace
    exact hplace

end

end Source

namespace Diagnostic

open Source (lines Place)

/-! ## What diagnostics show -/

/-- A line behind its number, which is filled up with blanks to four columns. -/
def numbered (line : Nat) (content : List Char) : List Char :=
  (toString line).toList.leftpad 4 ' ' ++ [':', ' '] ++ content

theorem newline_notMem_numbered {content : List Char} (h : '\n' ∉ content) (line : Nat) :
    '\n' ∉ numbered line content := by
  have hdigits : '\n' ∉ Nat.toDigits 10 line := Text.notMem_toDigits (by decide) line
  simp [numbered, List.leftpad, hdigits, h]

theorem newline_notMem_lineText (text : List Char) (position : Int) :
    '\n' ∉ Source.lineText text position := by
  rw [Source.lineText, List.mem_append, not_or]
  exact ⟨Source.newline_notMem_lineEnd _, Source.newline_notMem_firstLine _⟩

/-- The blanks and the carets under a line. -/
def underline (blanks carets : Nat) : List Char :=
  List.replicate blanks ' ' ++ List.replicate carets '^'

theorem newline_notMem_underline (blanks carets : Nat) : '\n' ∉ underline blanks carets := by
  simp [underline, List.mem_replicate]

theorem toList_context (text : List Char) (start : Int) (stop : Option Int) :
    (context text start stop).toList =
      numbered (Source.lineNumber text start) (Source.lineText text start) ++ '\n' ::
        underline (6 + (Source.column text start - 1).toNat) (caretCount
          (Source.lineText text start).length (Source.column text start) start stop) := by
  rw [context, String.toList_ofList, underline, ← List.replicate_append_replicate]
  simp only [numbered, margin, List.leftpad, List.append_assoc, List.cons_append, List.nil_append]

/-- A span is shown in two lines: the line that it starts on behind its number, and the carets
behind blanks, of which six stand for the number. -/
theorem lines_context (text : List Char) (start : Int) (stop : Option Int) :
    lines (context text start stop).toList =
      [numbered (Source.lineNumber text start) (Source.lineText text start),
        underline (6 + (Source.column text start - 1).toNat) (caretCount
          (Source.lineText text start).length (Source.column text start) start stop)] := by
  have hshown := newline_notMem_numbered (newline_notMem_lineText text start)
    (Source.lineNumber text start)
  rw [toList_context, lines, List.splitOn_append_cons_self_of_not_mem hshown,
    List.splitOn_eq_singleton (newline_notMem_underline _ _)]

/-- Where the host can hold more than the text, there is room for what is shown of it. -/
theorem contextWithin_of_held {text : List Char} {start : Int} (low : 0 ≤ start)
    (high : start ≤ text.length) (held : text.length < Limits.maxHeld) (stop : Option Int) :
    contextWithin text start stop = .ok (context text start stop) := by
  have hplace := Source.place low high
  have hlength := Source.length_lineText_le text start
  have hcolumn := hplace.column_le
  have hone := hplace.one_le_column
  refine contextWithin_eq ?_ ?_ ?_
  · omega
  · omega
  · have hspan : (caretCount (Source.lineText text start).length (Source.column text start) start
        stop : Int) ≤
        max 1 ((Source.lineText text start).length - Source.column text start + 1) := by
      unfold caretCount
      split
      · split <;> omega
      · omega
    have hheld : (1 : Int) ≤ Limits.maxHeld := by decide
    omega

section

variable {text content : List Char} {location : Location} {line column : Nat}

/-- A place is described by its line and its column, if the column can be written. -/
theorem describe_of_place (h : Place text location.start.toInt line column content)
    (low : 0 ≤ location.start.toInt) (high : location.start.toInt ≤ text.length) :
    describe location (some text) = (decimal column).map fun written =>
      location.shownName ++ ":" ++ toString line ++ ":" ++ written := by
  obtain ⟨rfl, hcolumn, -⟩ := (Source.place_iff low high).1 h
  have hcovers : covers text location = true := decide_eq_true high
  simp only [describe, hcovers, if_true, ← hcolumn]
  cases decimal (column : Int) <;> rfl

theorem decimal_natCast (h : column < decimalBound) :
    decimal (column : Int) = .ok (toString column) := by
  rw [decimal_of_lt (by simpa using h)]
  rfl

end

/-- A text that starts with the digits of a number, last digit first, and goes on with a colon
starts with those of no other number. -/
theorem digits_colon_inj {m n : Nat} {rest rest' : List Char}
    (h : (Nat.toDigits 10 m).reverse ++ ':' :: rest = (Nat.toDigits 10 n).reverse ++ ':' :: rest') :
    m = n ∧ rest = rest' := by
  have hdigits : ∀ k, ∀ c ∈ (Nat.toDigits 10 k).reverse, c ≠ ':' := by
    intro k c hc
    exact ne_of_mem_of_not_mem (List.mem_reverse.1 hc) (Text.notMem_toDigits (by decide) k)
  obtain ⟨hfront, hback⟩ := Text.append_inj_of_forall (hdigits m) (hdigits n) (by simp) (by simp) h
  exact ⟨Text.toDigits_inj (List.reverse_inj.1 hfront), (List.cons.inj hback).2⟩

/-- A name, a line and a column are read back from the text that names them. -/
theorem named_place_inj {name name' : String} {line line' column column' : Nat}
    (h : name ++ ":" ++ toString line ++ ":" ++ toString column =
      name' ++ ":" ++ toString line' ++ ":" ++ toString column') :
    name = name' ∧ line = line' ∧ column = column' := by
  have hchars := congrArg (fun text : String => text.toList.reverse) h
  simp only [String.toList_append, List.reverse_append, Nat.toString_eq_repr, Nat.toList_repr,
    List.append_assoc] at hchars
  obtain ⟨hcolumn, hrest⟩ := digits_colon_inj hchars
  obtain ⟨hline, hname⟩ := digits_colon_inj hrest
  exact ⟨String.toList_inj.1 (List.reverse_inj.1 hname), hline, hcolumn⟩

/-- What describes a position names its line and its column. -/
theorem exists_place_of_describe {text : List Char} {location : Location} {shown : String}
    (low : 0 ≤ location.start.toInt) (high : location.start.toInt ≤ text.length)
    (h : describe location (some text) = .ok shown) :
    ∃ line column content, Place text location.start.toInt line column content ∧
      shown = location.shownName ++ ":" ++ toString line ++ ":" ++ toString column := by
  obtain ⟨line, column, content, hplace⟩ : ∃ line column content,
    Place text location.start.toInt line column content := ⟨_, _, _, Source.place low high⟩
  refine ⟨line, column, content, hplace, ?_⟩
  rw [describe_of_place hplace low high] at h
  by_cases hwritten : column < decimalBound
  · rw [decimal_natCast hwritten] at h
    cases h
    rfl
  · rw [(decimal_eq_error_iff (column : Int)).2 (Nat.le_of_not_lt hwritten)] at h
    cases h

/-- Positions that are described alike are one position. -/
theorem start_eq_of_describe {text : List Char} {location location' : Location} {shown : String}
    (low : 0 ≤ location.start.toInt) (high : location.start.toInt ≤ text.length)
    (low' : 0 ≤ location'.start.toInt) (high' : location'.start.toInt ≤ text.length)
    (h : describe location (some text) = .ok shown)
    (h' : describe location' (some text) = .ok shown) :
    location.start.toInt = location'.start.toInt := by
  obtain ⟨line, column, content, hplace, rfl⟩ := exists_place_of_describe low high h
  obtain ⟨line', column', content', hplace', hshown⟩ := exists_place_of_describe low' high' h'
  obtain ⟨-, rfl, rfl⟩ := named_place_inj hshown
  obtain rfl : content = content' :=
    Option.some.inj (hplace.content_eq.symm.trans hplace'.content_eq)
  exact hplace.position_inj hplace'

end Diagnostic

open Source (Place)

/-- **Line and column identify an offset.**  A position that is not outside a text lies at exactly
one place.  Its line and column are what a diagnostic names behind the name of the file, unless the
column has too many digits, and its line is what a diagnostic shows, behind its number.  Positions
that a diagnostic names alike are the same. -/
theorem line_and_column_identify (text : List Char) :
    (∀ location : Location, 0 ≤ location.start.toInt → location.start.toInt ≤ text.length →
      ∃ line column content,
        (∀ line' column' content', Place text location.start.toInt line' column' content' ↔
          line' = line ∧ column' = column ∧ content' = content) ∧
        (column < decimalBound → Diagnostic.describe location (some text) =
          .ok (location.shownName ++ ":" ++ toString line ++ ":" ++ toString column)) ∧
        (∀ stop, ∃ marks, Source.lines (Diagnostic.context text location.start.toInt stop).toList =
          [Diagnostic.numbered line content, marks]) ∧
        (text.length < Limits.maxHeld → ∀ stop,
          Diagnostic.contextWithin text location.start.toInt stop =
            .ok (Diagnostic.context text location.start.toInt stop))) ∧
    (∀ line column content content' position position', Place text position line column content →
      Place text position' line column content' → position = position') ∧
    ∀ (location location' : Location) (shown : String), 0 ≤ location.start.toInt →
      location.start.toInt ≤ text.length → 0 ≤ location'.start.toInt →
      location'.start.toInt ≤ text.length →
      Diagnostic.describe location (some text) = .ok shown →
      Diagnostic.describe location' (some text) = .ok shown →
      location.start.toInt = location'.start.toInt := by
  refine ⟨?_, ?_, ?_⟩
  · intro location low high
    have hplace := Source.place low high
    refine ⟨Source.lineNumber text location.start.toInt,
      (Source.column text location.start.toInt).toNat, Source.lineText text location.start.toInt,
      ?_, ?_, ?_, ?_⟩
    · intro line column content
      constructor
      · intro h
        exact h.unique hplace
      · rintro ⟨rfl, rfl, rfl⟩
        exact hplace
    · intro hwritten
      rw [Diagnostic.describe_of_place hplace low high, Diagnostic.decimal_natCast hwritten]
      rfl
    · intro stop
      exact ⟨_, Diagnostic.lines_context text location.start.toInt stop⟩
    · intro held stop
      exact Diagnostic.contextWithin_of_held low high held stop
  · intro line column content content' position position' h h'
    exact h.position_inj h'
  · intro location location' shown low high low' high' h h'
    exact Diagnostic.start_eq_of_describe low high low' high' h h'

/-- The start of an argument on the second line, and the end of the text, which is behind its last
line feed. -/
theorem line_and_column_identify_argument :
    let text := "let x = 1;\nprint(y)\n".toList
    Diagnostic.describe ⟨.int 17, .int 18, "prog.rinha"⟩ (some text) = .ok "prog.rinha:2:7" ∧
    Diagnostic.describe ⟨.int 20, .int 20, ""⟩ (some text) = .ok "<input>:3:1" ∧
    ∃ marks, Source.lines (Diagnostic.context text 17 (some 18)).toList =
      ["   2: print(y)".toList, marks] := by
  intro text
  obtain ⟨hlaw, -, -⟩ := line_and_column_identify text
  have hsecond : Place text 17 2 7 "print(y)".toList := by
    constructor <;> decide
  have hlast : Place text 20 3 1 [] := by
    constructor <;> decide
  obtain ⟨line, column, content, hplace, hdescribe, hcontext, -⟩ :=
    hlaw ⟨.int 17, .int 18, "prog.rinha"⟩ (by decide) (by decide)
  obtain ⟨rfl, rfl, rfl⟩ := (hplace _ _ _).1 hsecond
  obtain ⟨line', column', content', hplace', hdescribe', -⟩ :=
    hlaw ⟨.int 20, .int 20, ""⟩ (by decide) (by decide)
  obtain ⟨rfl, rfl, rfl⟩ := (hplace' _ _ _).1 hlast
  refine ⟨hdescribe (by decide +kernel), hdescribe' (by decide +kernel), ?_⟩
  exact hcontext (some 18)

end Rinha
