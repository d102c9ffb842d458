/-!
# Text held in files

A file holds octets.  Its text is their strict UTF-8 reading, in which the line ends of other
systems (a carriage return, alone or before a line feed) become line feeds.  A file that is not
UTF-8 is refused with the reason that its first bad octet gives.

## Main definitions

* `Utf8.Fault` -- why octets are not UTF-8, with its wording.
* `Utf8.decode` -- the characters that octets stand for.
* `plainLineEnds` -- every line end as a line feed.
* `readText` -- the text of a file.
-/

namespace Rinha.Text

namespace Utf8

/-- Why a sequence of octets is not UTF-8. -/
inductive Fault where
  /-- An octet that starts no character. -/
  | start
  /-- A character broken off by an octet that cannot continue it. -/
  | continuation
  /-- A character broken off by the end of the octets. -/
  | truncated
  deriving DecidableEq, Repr

/-- The wording of a fault. -/
def Fault.message : Fault → String
  | .start => "invalid start byte"
  | .continuation => "invalid continuation byte"
  | .truncated => "unexpected end of data"

/-- The lead of a character of more than one octet: the bits that it gives, the least and the
greatest octet that may follow it, and how many octets come after that one. -/
structure Lead where
  bits : Nat
  low : Nat
  high : Nat
  more : Nat

/-- What a lead octet announces, unless it can lead no character. -/
def lead? (b : Nat) : Option Lead :=
  if 0xC2 ≤ b && b ≤ 0xDF then some ⟨b - 0xC0, 0x80, 0xBF, 0⟩
  else if b == 0xE0 then some ⟨b - 0xE0, 0xA0, 0xBF, 1⟩
  else if b == 0xED then some ⟨b - 0xE0, 0x80, 0x9F, 1⟩
  else if 0xE1 ≤ b && b ≤ 0xEF then some ⟨b - 0xE0, 0x80, 0xBF, 1⟩
  else if b == 0xF0 then some ⟨b - 0xF0, 0x90, 0xBF, 2⟩
  else if 0xF1 ≤ b && b ≤ 0xF3 then some ⟨b - 0xF0, 0x80, 0xBF, 2⟩
  else if b == 0xF4 then some ⟨b - 0xF0, 0x80, 0x8F, 2⟩
  else none

/-- Where the reader stands: between characters, or inside one whose bits so far are known, whose
next octet lies in a given range, and of which `more` octets come after that. -/
inductive State where
  | between
  | inside (bits low high more : Nat)

/-- The characters of a list of octets, after those of `done`, which are kept last first. -/
def decodeFrom : State → List Char → List UInt8 → Except Fault (List Char)
  | .between, done, [] => .ok done.reverse
  | .inside .., _, [] => .error .truncated
  | .between, done, b :: rest =>
    let b := b.toNat
    if b < 0x80 then decodeFrom .between (Char.ofNat b :: done) rest
    else
      match lead? b with
      | some l => decodeFrom (.inside l.bits l.low l.high l.more) done rest
      | none => .error .start
  | .inside bits low high more, done, b :: rest =>
    let b := b.toNat
    if low ≤ b && b ≤ high then
      let bits := 64 * bits + (b - 0x80)
      match more with
      | 0 => decodeFrom .between (Char.ofNat bits :: done) rest
      | more + 1 => decodeFrom (.inside bits 0x80 0xBF more) done rest
    else .error .continuation

/-- The characters that octets stand for in strict UTF-8. -/
def decode (octets : List UInt8) : Except Fault (List Char) :=
  decodeFrom .between [] octets

end Utf8

/-- Every line end as a line feed: a carriage return, and a line feed right after one, become one
line feed. -/
def plainLineEnds (text : List Char) : List Char :=
  go [] text
where
  /-- The line ends after those of `done`, which is kept last first. -/
  go : List Char → List Char → List Char
    | done, [] => done.reverse
    | done, '\r' :: '\n' :: rest => go ('\n' :: done) rest
    | done, '\r' :: rest => go ('\n' :: done) rest
    | done, c :: rest => go (c :: done) rest

/-- The text of a file. -/
def readText (octets : List UInt8) : Except Utf8.Fault String :=
  (Utf8.decode octets).map fun chars => String.ofList (plainLineEnds chars)

end Rinha.Text
