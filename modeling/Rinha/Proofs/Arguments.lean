import Mathlib.Data.List.TakeWhile
import Rinha.CommandLine.Options
import Rinha.Proofs.Texts

/-!
# Arguments for every invocation

Whatever the command can be asked to do can be spelled on its command line: both switches, a depth
that is written in decimal, and after two dashes a script of any name.  Reading the arguments gives
back what they spell.

## Main definitions

* `Text.readInteger?_decimalText` -- an integer is read back from its decimal text.
* `Invocation.spelling` -- arguments that ask for an invocation.
* `Options.parse_spelling`, `Options.exists_parse_iff` -- an invocation is read back from them, so
  every invocation to some depth can be asked for.
-/

namespace Rinha

/-! ## Reading integers back -/

namespace Text

theorem toNat_of_isDigit {c : Char} (h : c.isDigit = true) :
    0x30 ≤ c.toNat ∧ c.toNat < 0x30 + 10 := by
  simp only [Char.isDigit, Bool.and_eq_true, decide_eq_true_eq, ge_iff_le,
    UInt32.le_iff_toNat_le] at h
  exact ⟨h.1, Nat.lt_succ_of_le h.2⟩

theorem digitValue?_of_isDigit {c : Char} (h : c.isDigit = true) :
    digitValue? c = some (c.toNat - '0'.toNat) := by
  obtain ⟨hlow, hhigh⟩ := toNat_of_isDigit h
  simp only [digitValue?, zeroDigits, List.find?_cons, hlow, hhigh, decide_true, Bool.and_self,
    Option.map_some]
  rfl

theorem isBlank_of_isDigit {c : Char} (h : c.isDigit = true) : isBlank c = false := by
  obtain ⟨hlow, hhigh⟩ := toNat_of_isDigit h
  simp only [isBlank, blankRanges, List.any_cons, List.any_nil, Bool.or_false, Bool.or_eq_false_iff,
    Bool.and_eq_false_iff, decide_eq_false_iff_not]
  omega

/-- A text without blanks at its ends is left as it is. -/
theorem trimBlanks_eq_self {text : List Char} (h : ∀ c ∈ text, isBlank c = false) :
    trimBlanks text = text := by
  have hfront : text.dropWhile isBlank = text :=
    List.dropWhile_eq_self_iff.2 fun hl => by simp [h _ (List.getElem_mem hl)]
  have hback : text.reverse.dropWhile isBlank = text.reverse :=
    List.dropWhile_eq_self_iff.2 fun hl => by
      rw [h _ (List.mem_reverse.1 (List.getElem_mem hl))]
      decide
  rw [trimBlanks, hfront, hback, List.reverse_reverse]

/-- Digits are read one by one. -/
theorem readDigits?_of_isDigit {text : List Char} (h : ∀ c ∈ text, c.isDigit = true)
    (done : List Nat) :
    readDigits? done text = some ((text.map fun c => c.toNat - '0'.toNat).reverse ++ done) := by
  induction text generalizing done with
  | nil => rfl
  | cons c rest ih =>
    obtain ⟨hc, hrest⟩ := List.forall_mem_cons.1 h
    rw [readDigits?.eq_def]
    simp [digitValue?_of_isDigit hc, ih hrest]

/-- The digits of a natural number are read back, last first. -/
theorem exists_readDigits?_toDigits (n : Nat) :
    ∃ last digits, readDigits? [] (Nat.toDigits 10 n) = some (last :: digits) ∧
      (last :: digits).length = (Nat.toDigits 10 n).length ∧
      valueOfDigits (last :: digits) = n := by
  have hdigit : ∀ c ∈ Nat.toDigits 10 n, c.isDigit = true := fun c hc =>
    Nat.isDigit_of_mem_toDigits (by decide) (by decide) hc
  have hread := readDigits?_of_isDigit hdigit []
  have hvalue : valueOfDigits ((Nat.toDigits 10 n).map fun c => c.toNat - '0'.toNat).reverse =
      n := by
    rw [valueOfDigits, List.foldr_reverse, List.foldl_map]
    exact Nat.ofDigitChars_ten_toDigits
  have hlength : ((Nat.toDigits 10 n).map fun c => c.toNat - '0'.toNat).reverse.length =
      (Nat.toDigits 10 n).length := by simp
  rw [List.append_nil] at hread
  cases hdigits : ((Nat.toDigits 10 n).map fun c => c.toNat - '0'.toNat).reverse with
  | nil => simp at hdigits
  | cons last digits =>
    rw [hdigits] at hread hvalue hlength
    exact ⟨last, digits, hread, hlength, hvalue⟩

/-- An integer is read back from its decimal text, if it has no more digits than are read. -/
theorem readInteger?_decimalText {maxDigits : Nat} {n : Int} (hpos : 0 < maxDigits)
    (h : n.natAbs < 10 ^ maxDigits) : readInteger? maxDigits (decimalText n) = some n := by
  have hdigit : ∀ c ∈ Nat.toDigits 10 n.natAbs, c.isDigit = true := fun c hc =>
    Nat.isDigit_of_mem_toDigits (by decide) (by decide) hc
  have hblank : ∀ c ∈ Nat.toDigits 10 n.natAbs, isBlank c = false := fun c hc =>
    isBlank_of_isDigit (hdigit c hc)
  obtain ⟨last, digits, hread, hlength, hvalue⟩ := exists_readDigits?_toDigits n.natAbs
  have hshort : (last :: digits).length ≤ maxDigits :=
    hlength.le.trans ((Nat.length_toDigits_le_iff (by decide) hpos).2 h)
  by_cases hneg : n < 0
  · have htrim : trimBlanks (decimalText n).toList = '-' :: Nat.toDigits 10 n.natAbs := by
      rw [toList_decimalText, if_pos hneg]
      exact trimBlanks_eq_self (List.forall_mem_cons.2 ⟨rfl, hblank⟩)
    simp only [readInteger?, htrim, hread, hshort, if_true, hvalue]
    exact congrArg some (show -(n.natAbs : Int) = n by omega)
  · have htrim : trimBlanks (decimalText n).toList = Nat.toDigits 10 n.natAbs := by
      rw [toList_decimalText, if_neg hneg, trimBlanks_eq_self hblank]
    simp only [readInteger?, htrim]
    split
    · next hminus => exact absurd (hdigit '-' (hminus ▸ List.mem_cons_self)) (by decide)
    · next hplus => exact absurd (hdigit '+' (hplus ▸ List.mem_cons_self)) (by decide)
    · simp only [hread, hshort, if_true, hvalue]
      exact congrArg some (show (n.natAbs : Int) = n by omega)

end Text

/-! ## Spelling an invocation -/

/-- Arguments that ask for an invocation. -/
def Invocation.spelling (invocation : Invocation) : List String :=
  (if invocation.decode then ["--decode"] else []) ++
  (if invocation.debug then ["--debug"] else []) ++
  ["--max-depth", decimalText invocation.maxDepth, "--", invocation.script]

namespace Options

theorem classifyAll_cons {text : String} {word : Word} (hdashes : text ≠ "--")
    (h : classify text = .ok word) (rest : List String) :
    classifyAll (text :: rest) = (do return ⟨text, word⟩ :: (← classifyAll rest)) := by
  rw [classifyAll, h]
  · rfl
  · exact hdashes

/-- The decimal text of an integer that is not negative is plain. -/
theorem classify_decimalText {n : Int} (h : 0 ≤ n) :
    decimalText n ≠ "--" ∧ classify (decimalText n) = .ok (.plain (decimalText n)) := by
  have hhead : (decimalText n).toList.head? ≠ some '-' := fun hminus => by
    rw [Text.toList_decimalText, if_neg (Int.not_lt.2 h)] at hminus
    exact Text.notMem_toDigits (by decide) _ (List.mem_of_mem_head? hminus)
  refine ⟨fun hdashes => ?_, by simp [classify, hhead]⟩
  rw [hdashes] at hhead
  exact hhead (by decide)

theorem setDepth_decimalText {n : Int} (h : n.natAbs < 10 ^ digitLimit) (progress : Progress) :
    setDepth (decimalText n) progress = .ok { progress with
      depthLost := false, invocation := { progress.invocation with maxDepth := n } } := by
  rw [setDepth, Text.readInteger?_decimalText (by decide) h]

/-- What the arguments of a spelling are. -/
theorem classifyAll_spelling {invocation : Invocation} (hpos : 1 ≤ invocation.maxDepth) :
    classifyAll invocation.spelling = .ok
      ((if invocation.decode then [⟨"--decode", .option .decode false none⟩] else []) ++
      (if invocation.debug then [⟨"--debug", .option .debug false none⟩] else []) ++
      [⟨"--max-depth", .option .maxDepth false none⟩,
        ⟨decimalText invocation.maxDepth, .plain (decimalText invocation.maxDepth)⟩,
        ⟨"--", .dashes⟩, ⟨invocation.script, .plain invocation.script⟩]) := by
  have hdecode : classify "--decode" = .ok (.option .decode false none) := by decide
  have hdebug : classify "--debug" = .ok (.option .debug false none) := by decide
  have hmaxDepth : classify "--max-depth" = .ok (.option .maxDepth false none) := by decide
  obtain ⟨hdashes, hplain⟩ := classify_decimalText (Int.le_trans (by decide) hpos)
  have hscript : classifyAll ["--", invocation.script] =
      .ok [⟨"--", .dashes⟩, ⟨invocation.script, .plain invocation.script⟩] := rfl
  rw [Invocation.spelling]
  cases invocation.decode <;> cases invocation.debug <;>
    simp [classifyAll_cons _ hdecode, classifyAll_cons _ hdebug,
      classifyAll_cons _ hmaxDepth, classifyAll_cons hdashes hplain, hscript]

/-- An invocation is read back from its spelling. -/
theorem parse_spelling {invocation : Invocation} (hpos : 1 ≤ invocation.maxDepth)
    (h : invocation.maxDepth.natAbs < 10 ^ digitLimit) :
    parse invocation.spelling = .ok invocation := by
  obtain ⟨script, decode, debug, depth⟩ := invocation
  have hdepth : ¬ depth < 1 := Int.not_lt.2 hpos
  rw [parse, classifyAll_spelling hpos]
  cases decode <;> cases debug <;>
    simp [actAll, act, setDepth_decimalText h, hdepth, bind, Except.bind]

/-- The depth of an invocation is at least one. -/
theorem one_le_maxDepth_of_parse {arguments : List String} {invocation : Invocation}
    (h : parse arguments = .ok invocation) : 1 ≤ invocation.maxDepth := by
  unfold parse at h
  repeat' split at h
  all_goals cases h
  omega

/-- The invocations that can be asked for, among those whose depth can be read, are those with a
depth of at least one. -/
theorem exists_parse_iff {invocation : Invocation}
    (h : invocation.maxDepth.natAbs < 10 ^ digitLimit) :
    (∃ arguments, parse arguments = .ok invocation) ↔ 1 ≤ invocation.maxDepth :=
  ⟨fun ⟨_, hparse⟩ => one_le_maxDepth_of_parse hparse,
    fun hpos => ⟨invocation.spelling, parse_spelling hpos h⟩⟩

end Options

end Rinha
