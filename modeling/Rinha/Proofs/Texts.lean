import Mathlib.Tactic.IntervalCases
import Rinha.Decimal
import Rinha.Text.Quoted

/-!
# Texts that can be read back

Joined texts come apart again where a separator starts, if that mark occurs in none of them.
Integers are read back from their decimal texts.  And the characters of a quoted text are read back
one by one, because an escape tells how long it is: its second character says whether code digits
follow, and how many.  So no two lists of texts, no two integers and no two texts are written alike.

## Main definitions

* `append_inj_of_forall`, `joined_inj` -- lists and joined texts come apart in one way.
* `decimalText_inj` -- decimal texts are distinct.
* `Quoted.unescape` -- the first character that stands in a quoted text, and what follows it.
* `Quoted.unescape_escape` -- a character is read back from its escape.
* `quote_injective`, `newline_notMem_quote` -- quoted texts are distinct, and hold no line feed.
-/

namespace Rinha.Text

/-! ## Joined texts -/

/-- A list comes apart in one way where a property that holds up to there ceases to hold. -/
theorem append_inj_of_forall {α : Type} {p : α → Prop} {front front' back back' : List α}
    (hfront : ∀ a ∈ front, p a) (hfront' : ∀ a ∈ front', p a) (hback : ∀ a ∈ back.head?, ¬ p a)
    (hback' : ∀ a ∈ back'.head?, ¬ p a) (h : front ++ back = front' ++ back') :
    front = front' ∧ back = back' := by
  induction front generalizing front' with
  | nil =>
    cases front' with
    | nil => exact ⟨rfl, h⟩
    | cons a rest =>
      rw [List.nil_append, List.cons_append] at h
      exact absurd (hfront' a List.mem_cons_self) (hback a (by simp [h]))
  | cons a rest ih =>
    cases front' with
    | nil =>
      rw [List.nil_append, List.cons_append] at h
      exact absurd (hfront a List.mem_cons_self) (hback' a (by simp [← h]))
    | cons a' rest' =>
      rw [List.cons_append, List.cons_append] at h
      obtain ⟨rfl, hrest⟩ := List.cons.inj h
      obtain ⟨rfl, hback⟩ := ih (fun b hb => hfront b (List.mem_cons_of_mem _ hb))
        (fun b hb => hfront' b (List.mem_cons_of_mem _ hb)) hrest
      exact ⟨rfl, hback⟩

section

variable {c : Char} {separator : List Char}

/-- A joined text is its first text, and then every other text behind a separator. -/
theorem intercalate_cons (text : List Char) (texts : List (List Char)) :
    separator.intercalate (text :: texts) = text ++ texts.flatMap (separator ++ ·) := by
  induction texts generalizing text with
  | nil => simp
  | cons next rest ih => simp [List.intercalate_cons_cons, ih next]

/-- What is in none of the texts, nor in the separator, is not in the joined text. -/
theorem notMem_intercalate {a : Char} {texts : List (List Char)} (hseparator : a ∉ separator)
    (h : ∀ text ∈ texts, a ∉ text) : a ∉ separator.intercalate texts := by
  cases texts with
  | nil => simp
  | cons text rest =>
    simp only [List.forall_mem_cons] at h
    simpa [intercalate_cons, h.1, hseparator] using h.2

/-- The first of several texts ends where the first separator starts. -/
theorem append_flatMap_inj {text text' : List Char} {texts texts' : List (List Char)}
    (h : c ∉ text) (h' : c ∉ text')
    (heq : text ++ texts.flatMap (c :: separator ++ ·) =
      text' ++ texts'.flatMap (c :: separator ++ ·)) :
    text = text' ∧
      texts.flatMap (c :: separator ++ ·) = texts'.flatMap (c :: separator ++ ·) := by
  have hback : ∀ others : List (List Char),
      ∀ a ∈ (others.flatMap (c :: separator ++ ·)).head?, ¬ a ≠ c := by
    intro others
    cases others <;> simp
  exact append_inj_of_forall (fun a ha => ne_of_mem_of_not_mem ha h)
    (fun a ha => ne_of_mem_of_not_mem ha h') (hback texts) (hback texts') heq

/-- Texts that are joined come apart again, if none of them holds the mark that the separator starts
with. -/
theorem intercalate_inj {texts texts' : List (List Char)} (h : ∀ text ∈ texts, c ∉ text)
    (h' : ∀ text ∈ texts', c ∉ text) (hne : texts ≠ []) (hne' : texts' ≠ [])
    (heq : (c :: separator).intercalate texts = (c :: separator).intercalate texts') :
    texts = texts' := by
  obtain ⟨text, rest, rfl⟩ := List.exists_cons_of_ne_nil hne
  obtain ⟨text', rest', rfl⟩ := List.exists_cons_of_ne_nil hne'
  rw [intercalate_cons, intercalate_cons] at heq
  clear hne hne'
  induction rest generalizing text text' rest' with
  | nil =>
    obtain ⟨rfl, hrest⟩ := append_flatMap_inj (h text List.mem_cons_self)
      (h' text' List.mem_cons_self) heq
    cases rest' with
    | nil => rfl
    | cons => simp at hrest
  | cons next rest ih =>
    obtain ⟨rfl, hrest⟩ := append_flatMap_inj (h text List.mem_cons_self)
      (h' text' List.mem_cons_self) heq
    cases rest' with
    | nil => simp at hrest
    | cons next' rest' =>
      rw [List.flatMap_cons, List.flatMap_cons, List.append_assoc, List.append_assoc,
        List.append_cancel_left_eq] at hrest
      rw [ih next (List.forall_mem_cons.1 h).2 next' rest' (List.forall_mem_cons.1 h').2 hrest]

end

/-- Joined strings come apart again in the same way. -/
theorem joined_inj {c : Char} {separator : String} {texts texts' : List String}
    (hseparator : separator.toList.head? = some c) (h : ∀ text ∈ texts, c ∉ text.toList)
    (h' : ∀ text ∈ texts', c ∉ text.toList) (hne : texts ≠ []) (hne' : texts' ≠ [])
    (heq : separator.intercalate texts = separator.intercalate texts') : texts = texts' := by
  obtain ⟨marks, hmarks⟩ := List.head?_eq_some_iff.1 hseparator
  have hchars := congrArg String.toList heq
  rw [String.toList_intercalate, String.toList_intercalate, hmarks] at hchars
  have hlists := intercalate_inj (by simpa using h) (by simpa using h') (by simpa using hne)
    (by simpa using hne') hchars
  exact (List.map_inj_right fun _ _ => String.toList_inj.1).1 hlists

/-! ## Decimal texts -/

theorem toList_decimalText (n : Int) :
    (decimalText n).toList =
      if n < 0 then '-' :: Nat.toDigits 10 n.natAbs else Nat.toDigits 10 n.natAbs := by
  unfold decimalText
  split <;> simp

theorem notMem_toDigits {c : Char} (h : c.isDigit = false) (n : Nat) : c ∉ Nat.toDigits 10 n := by
  intro hmem
  rw [Nat.isDigit_of_mem_toDigits (by decide) (by decide) hmem] at h
  cases h

theorem toDigits_inj {m n : Nat} (h : Nat.toDigits 10 m = Nat.toDigits 10 n) : m = n := by
  rw [← Nat.ofDigitChars_ten_toDigits (n := m), h, Nat.ofDigitChars_ten_toDigits]

theorem newline_notMem_decimalText (n : Int) : '\n' ∉ (decimalText n).toList := by
  rw [toList_decimalText]
  split <;> simp [notMem_toDigits]

/-- No two integers have the same decimal text. -/
theorem decimalText_inj {m n : Int} (h : decimalText m = decimalText n) : m = n := by
  have hminus : ∀ k, '-' ∉ Nat.toDigits 10 k := notMem_toDigits (by decide)
  have hchars := congrArg String.toList h
  rw [toList_decimalText, toList_decimalText] at hchars
  split at hchars <;> split at hchars
  · have habs := toDigits_inj (List.cons.inj hchars).2
    omega
  · exact absurd (hchars ▸ List.mem_cons_self) (hminus n.natAbs)
  · exact absurd (hchars ▸ List.mem_cons_self) (hminus m.natAbs)
  · have habs := toDigits_inj hchars
    omega

/-! ## Quoted texts -/

namespace Quoted

/-! ### Code points -/

/-- The value of a lower-case hexadecimal digit. -/
def hexValue (digit : Char) : Nat :=
  if digit.toNat < 'a'.toNat then digit.toNat - '0'.toNat else digit.toNat - 'a'.toNat + 10

/-- The number that hexadecimal digits stand for, most significant first. -/
def ofHexDigits (digits : List Char) : Nat :=
  digits.foldl (fun n digit => 16 * n + hexValue digit) 0

theorem hexValue_hexDigit {n : Nat} (h : n < 16) : hexValue (hexDigit n) = n := by
  interval_cases n <;> decide

theorem hexDigit_ne_newline {n : Nat} (h : n < 16) : hexDigit n ≠ '\n' := by
  interval_cases n <;> decide

@[simp] theorem length_hexDigits (width n : Nat) : (hexDigits width n).length = width := by
  induction width generalizing n with
  | zero => rfl
  | succ width ih => simp [hexDigits, ih]

/-- A number is read back from digits that it fits in. -/
theorem ofHexDigits_hexDigits {width n : Nat} (h : n < 16 ^ width) :
    ofHexDigits (hexDigits width n) = n := by
  induction width generalizing n with
  | zero =>
    have hzero : n = 0 := by simpa using h
    exact hzero.symm
  | succ width ih =>
    have hdiv : n / 16 < 16 ^ width := Nat.div_lt_of_lt_mul (by rwa [pow_succ, Nat.mul_comm] at h)
    have hfront : (hexDigits width (n / 16)).foldl (fun n digit => 16 * n + hexValue digit) 0 =
        n / 16 := ih hdiv
    rw [hexDigits, ofHexDigits, List.foldl_append, hfront, List.foldl_cons, List.foldl_nil,
      hexValue_hexDigit (Nat.mod_lt n (by decide)), Nat.div_add_mod]

theorem newline_notMem_hexDigits (width n : Nat) : '\n' ∉ hexDigits width n := by
  induction width generalizing n with
  | zero => simp [hexDigits]
  | succ width ih =>
    have hlast := (hexDigit_ne_newline (Nat.mod_lt n (by decide : 0 < 16))).symm
    simp [hexDigits, ih, hlast]

/-! ### Reading characters back -/

/-- The character that a number of hexadecimal digits stands for, and what follows them. -/
def ofCodePoint (width : Nat) (text : List Char) : Char × List Char :=
  (Char.ofNat (ofHexDigits (text.take width)), text.drop width)

/-- The character that an escape stands for, by the character after the backslash, and what follows
the escape. -/
def ofEscape (code : Char) (text : List Char) : Char × List Char :=
  if code = 'n' then ('\n', text)
  else if code = 'r' then ('\r', text)
  else if code = 't' then ('\t', text)
  else if code = 'x' then ofCodePoint 2 text
  else if code = 'u' then ofCodePoint 4 text
  else if code = 'U' then ofCodePoint 8 text
  else (code, text)

/-- The first character that stands in a quoted text, and what follows it. -/
def unescape : List Char → Option (Char × List Char)
  | [] => none
  | c :: text =>
    if c = '\\' then
      match text with
      | [] => none
      | code :: text => some (ofEscape code text)
    else some (c, text)

theorem ofCodePoint_hexDigits (width : Nat) {c : Char} (h : c.toNat < 16 ^ width)
    (text : List Char) : ofCodePoint width (hexDigits width c.toNat ++ text) = (c, text) := by
  have hlength := length_hexDigits width c.toNat
  rw [ofCodePoint, List.take_left' hlength, List.drop_left' hlength, ofHexDigits_hexDigits h,
    Char.ofNat_toNat]

theorem unescape_codePoint (c : Char) (text : List Char) :
    unescape (codePoint c ++ text) = some (c, text) := by
  have hbound : c.toNat < 16 ^ 8 := c.val.toNat_lt
  rw [codePoint]
  split
  · next h => simpa [unescape, ofEscape] using ofCodePoint_hexDigits 2 h text
  · split
    · next h => simpa [unescape, ofEscape] using ofCodePoint_hexDigits 4 h text
    · simpa [unescape, ofEscape] using ofCodePoint_hexDigits 8 hbound text

theorem newline_notMem_codePoint (c : Char) : '\n' ∉ codePoint c := by
  rw [codePoint]
  split
  · simp [newline_notMem_hexDigits]
  · split <;> simp [newline_notMem_hexDigits]

section

variable {mark : Char} (hmark : mark = single ∨ mark = double)
include hmark

/-- A character is read back from its escape, whatever follows. -/
theorem unescape_escape (c : Char) (text : List Char) :
    unescape (escape mark c ++ text) = some (c, text) := by
  unfold escape
  split_ifs with hslash hquote hline hreturn htab hprintable
  · simp_all [unescape, ofEscape]
  · rcases hmark with rfl | rfl <;> simp_all [unescape, ofEscape, single, double]
  · simp_all [unescape, ofEscape]
  · simp_all [unescape, ofEscape]
  · simp_all [unescape, ofEscape]
  · simp_all [unescape]
  · exact unescape_codePoint c text

/-- An escape stands on a single line. -/
theorem newline_notMem_escape (c : Char) : '\n' ∉ escape mark c := by
  have hline : mark ≠ '\n' := by rcases hmark with rfl | rfl <;> decide
  unfold escape
  split_ifs with _ hquote hnewline
  · simp
  · obtain rfl := beq_iff_eq.1 hquote
    simp [hline.symm]
  · simp
  · simp
  · simp
  · have hne : c ≠ '\n' := by simpa using hnewline
    simp [hne.symm]
  · exact newline_notMem_codePoint c

/-- No two texts are escaped alike. -/
theorem flatMap_escape_injective {text text' : List Char}
    (h : text.flatMap (escape mark) = text'.flatMap (escape mark)) : text = text' := by
  have hread := unescape_escape hmark
  induction text generalizing text' with
  | nil =>
    cases text' with
    | nil => rfl
    | cons c' rest' =>
      have hempty := hread c' (rest'.flatMap (escape mark))
      rw [← List.flatMap_cons, ← h] at hempty
      cases hempty
  | cons c rest ih =>
    have hfirst := hread c (rest.flatMap (escape mark))
    rw [← List.flatMap_cons, h] at hfirst
    cases text' with
    | nil => cases hfirst
    | cons c' rest' =>
      rw [List.flatMap_cons, hread c'] at hfirst
      obtain ⟨rfl, hrest⟩ := Prod.mk.inj (Option.some.inj hfirst)
      rw [ih hrest.symm]

end

theorem markFor_eq (text : List Char) : markFor text = single ∨ markFor text = double := by
  unfold markFor
  split
  · exact .inr rfl
  · exact .inl rfl

end Quoted

/-- No two texts are quoted alike: the quoted text starts with the quote that it uses, and the
characters are read back one by one. -/
theorem quote_injective {text text' : String} (h : quote text = quote text') : text = text' := by
  simp only [quote, String.ofList_inj, List.cons_append, List.cons.injEq] at h
  obtain ⟨hmark, hchars⟩ := h
  rw [hmark, List.append_cancel_right_eq] at hchars
  exact String.toList_inj.1 (Quoted.flatMap_escape_injective (Quoted.markFor_eq _) hchars)

/-- A quoted text stands on a single line. -/
theorem newline_notMem_quote (text : String) : '\n' ∉ (quote text).toList := by
  have hmark := Quoted.markFor_eq text.toList
  have hline : '\n' ≠ Quoted.markFor text.toList := by
    rcases hmark with hmark | hmark <;> rw [hmark] <;> decide
  simp [quote, hline, Quoted.newline_notMem_escape hmark]

end Rinha.Text
