import Rinha.Proofs.Position

/-!
# Carets under a span

The carets under a line mark the characters of a span that lie on the line, or the place where the
span starts if there are none.  The room in front of them is reckoned for line numbers of up to four
digits.  A longer number moves the line to the right and leaves the carets where they are, so from
line 10000 on they stand too far to the left, by one column for each further digit.

## Main definitions

* `Source.spanOnLine` -- the characters of a span on the line that it starts on.
* `Diagnostic.caretCount_eq` -- there is a caret for each, and one if there are none.
* `Diagnostic.overhang` -- by how many columns a line number moves its line.
* `carets_mark_span` -- where the carets stand.
* `carets_left_of_span` -- the first line number for which they do not stand under the span.
-/

namespace Rinha

namespace Source

/-! ## Spans on a line -/

/-- The characters of a span that lie on the line that it starts on.  A span without an end has
none, and neither has a span that ends where it starts, or before. -/
def spanOnLine (text : List Char) (start : Int) : Option Int → List Char
  | some stop => firstLine ((text.drop start.toNat).take (stop - start).toNat)
  | none => []

section

variable {text : List Char} {start : Int}

/-- A span on a line is part of what the line has from the start of the span on. -/
theorem spanOnLine_prefix (text : List Char) (start : Int) (stop : Option Int) :
    spanOnLine text start stop <+: firstLine (text.drop start.toNat) := by
  cases stop with
  | none => exact List.nil_prefix
  | some stop =>
    rw [spanOnLine, firstLine, ← List.take_takeWhile]
    exact List.take_prefix ..

theorem length_spanOnLine (text : List Char) (start stop : Int) :
    (spanOnLine text start (some stop)).length =
      min (stop - start).toNat (firstLine (text.drop start.toNat)).length := by
  rw [spanOnLine, firstLine, ← List.take_takeWhile, List.length_take]
  rfl

/-- The line of a position is what it has before the position and what it has from there on. -/
theorem lineText_eq (low : 0 ≤ start) (high : start ≤ text.length) :
    lineText text start = lineEnd (before text start) ++ firstLine (text.drop start.toNat) := by
  rw [lineText, index_toNat low high]
  rfl

theorem column_eq (low : 0 ≤ start) (high : start ≤ text.length) :
    column text start = (lineEnd (before text start)).length + 1 := by
  obtain ⟨_, _, -, -, -, hcolumn⟩ := exists_lines_around low high
  exact hcolumn

end

end Source

namespace Diagnostic

open Source (lines firstLine spanOnLine Place)

/-! ## How many carets there are -/

/-- There is a caret for each character of a span on its first line, and one if there are none. -/
theorem caretCount_eq {text : List Char} {start : Int} (low : 0 ≤ start)
    (high : start ≤ text.length) (stop : Option Int) :
    caretCount (Source.lineText text start).length (Source.column text start) start stop =
      max 1 (spanOnLine text start stop).length := by
  cases stop with
  | none => rfl
  | some stop =>
    rw [Source.length_spanOnLine, Source.lineText_eq low high, Source.column_eq low high,
      List.length_append, caretCount]
    split <;> omega

/-! ## Where the carets stand -/

/-- By how many columns a line number is longer than the four that there is room for, and so by how
many it moves its line to the right. -/
def overhang (line : Nat) : Nat :=
  (toString line).toList.length - 4

/-- Numbers of up to four digits move nothing. -/
theorem overhang_eq_zero_iff (line : Nat) : overhang line = 0 ↔ line < 10000 := by
  have hdigits : (Nat.toDigits 10 line).length ≤ 4 ↔ line < 10 ^ 4 :=
    Nat.length_toDigits_le_iff (by decide) (by decide)
  rw [overhang, Nat.sub_eq_zero_iff_le]
  simpa using hdigits

theorem length_numbered (line : Nat) (content : List Char) :
    (numbered line content).length = 6 + overhang line + content.length := by
  rw [numbered, List.length_append, List.length_append, List.length_leftpad, overhang]
  simp only [List.length_cons, List.length_nil]
  omega

end Diagnostic

open Source (lines firstLine spanOnLine Place)
open Diagnostic (numbered underline overhang)

/-- **Where the carets stand.**  A span is shown in two lines.  The first has the line that the span
starts on, which has a front before the start and a tail from there on, behind its number.  The
second has carets behind blanks: one for each character of the span up to its end or the end of the
line, and a single one if there are none.  The carets stand under these characters, except that they
stand further to the left by the overhang of the line number, and there is none exactly for lines
before line 10000. -/
theorem carets_mark_span {text : List Char} {start : Int} (low : 0 ≤ start)
    (high : start ≤ text.length) (stop : Option Int) :
    ∃ line column front tail blanks,
      Place text start line column (front ++ tail) ∧ column = front.length + 1 ∧
      tail = firstLine (text.drop start.toNat) ∧ spanOnLine text start stop <+: tail ∧
      lines (Diagnostic.context text start stop).toList =
        [numbered line (front ++ tail),
          underline blanks (max 1 (spanOnLine text start stop).length)] ∧
      blanks + overhang line = (numbered line front).length ∧
      (overhang line = 0 ↔ line < 10000) ∧
      (text.length < Limits.maxHeld → Diagnostic.contextWithin text start stop =
        .ok (Diagnostic.context text start stop)) := by
  have hplace := Source.place low high
  have hline := Source.lineText_eq low high
  have hcolumn := Source.column_eq low high
  have hcontext := Diagnostic.lines_context text start stop
  rw [Diagnostic.caretCount_eq low high stop, hline] at hcontext
  rw [hline] at hplace
  refine ⟨_, _, _, _, _, hplace, ?_, rfl, Source.spanOnLine_prefix .., hcontext, ?_,
    Diagnostic.overhang_eq_zero_iff _, ?_⟩
  · omega
  · rw [Diagnostic.length_numbered]
    omega
  · intro held
    exact Diagnostic.contextWithin_of_held low high held stop

/-- A span of one character on the second line: the caret stands under it. -/
theorem carets_mark_span_second_line :
    let text := "let x = 1;\nprint(y)\n".toList
    lines (Diagnostic.context text 17 (some 18)).toList =
      ["   2: print(y)".toList, "            ^".toList] := by
  intro text
  obtain ⟨line, column, front, tail, blanks, hplace, hcolumn, htail, -, hcontext, hblanks, hnumber,
    -⟩ := @carets_mark_span text 17 (by decide) (by decide) (some 18)
  have hsecond : Place text 17 2 7 "print(y)".toList := by
    constructor <;> decide
  obtain ⟨rfl, rfl, hcontent⟩ := hplace.unique hsecond
  have hfront : front.length = 6 := by omega
  rw [hnumber.2 (by decide), Nat.add_zero, Diagnostic.length_numbered, hnumber.2 (by decide),
    hfront] at hblanks
  rw [hcontext, hcontent, hblanks]
  decide

/-- A character behind line feeds: it stands first on the last line. -/
theorem Source.place_behind_newlines (n : Nat) :
    Place (List.replicate n '\n' ++ ['x']) n (n + 1) 1 ['x'] ∧
      spanOnLine (List.replicate n '\n' ++ ['x']) n (some (n + 1)) = ['x'] := by
  have high : (n : Int) ≤ (List.replicate n '\n' ++ ['x']).length := by
    rw [List.length_append, List.length_replicate]
    omega
  have hdrop : (List.replicate n '\n' ++ ['x']).drop n = ['x'] :=
    List.drop_left' (List.length_replicate ..)
  have hbefore : Source.before (List.replicate n '\n' ++ ['x']) n = List.replicate n '\n' := by
    rw [Source.before, Source.index_toNat (Int.natCast_nonneg n) high]
    exact List.take_left' (List.length_replicate ..)
  have hend : Source.lineEnd (List.replicate n '\n') = [] := by
    cases n with
    | zero => rfl
    | succ n => rw [List.replicate_succ', Source.lineEnd_append_newline]
  constructor
  · refine (Source.place_iff (Int.natCast_nonneg n) high).2 ⟨?_, ?_, ?_⟩
    · rw [Source.lineNumber, hbefore, List.count_replicate_self]
    · rw [Source.column_eq (Int.natCast_nonneg n) high, hbefore, hend]
      rfl
    · rw [Source.lineText_eq (Int.natCast_nonneg n) high, hbefore, hend, Int.toNat_natCast, hdrop]
      rfl
  · have hlength : ((n : Int) + 1 - n).toNat = 1 := by omega
    rw [spanOnLine, Int.toNat_natCast, hdrop, hlength]
    rfl

/-- The last line of a text of ten thousand: the caret stands behind six blanks, but the character
that it is for stands first on its line, behind a number that takes up seven columns. -/
theorem carets_left_of_span :
    let text := List.replicate 9999 '\n' ++ ['x']
    Place text 9999 10000 1 ['x'] ∧ spanOnLine text 9999 (some 10000) = ['x'] ∧
    lines (Diagnostic.context text 9999 (some 10000)).toList =
      ["10000: x".toList, "      ^".toList] ∧
    "      ^".toList = underline 6 1 ∧ (numbered 10000 []).length = 7 := by
  intro text
  obtain ⟨hplace, hspan⟩ := Source.place_behind_newlines 9999
  have low : (0 : Int) ≤ 9999 := by decide
  have high : (9999 : Int) ≤ text.length := by
    rw [List.length_append, List.length_replicate]
    decide
  refine ⟨hplace, hspan, ?_, by decide, by decide⟩
  -- The place says what the line is, so the lines before it are never cut.
  obtain ⟨hline, hcolumn, hcontent⟩ := (Source.place_iff low high).1 hplace
  rw [Diagnostic.lines_context, Diagnostic.caretCount_eq low high, ← hline, ← hcolumn, ← hcontent]
  have hcaret : (spanOnLine text 9999 (some 10000)).length = 1 := congrArg List.length hspan
  rw [hcaret]
  decide

end Rinha
