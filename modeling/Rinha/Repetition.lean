import Rinha.Fault
import Rinha.Limits

/-!
# Repetition

Something of a given length can be repeated any number of times, in principle.  A number of times
that no length can have is refused, and so is a result that is longer than everything, or longer
than what the host can hold.  Repeating something fewer than no times is repeating it never, unless
the number is so far below zero that it is refused.

## Main definitions

* `repetitions` -- how often something is to be repeated.
* `repetitions_one` -- a mark can be repeated as often as the host has room for.
-/

namespace Rinha

/-- How often something of the given length is to be repeated: never if the number is negative.  The
fault is that of a result which would be longer than the greatest length. -/
def repetitions (length : Nat) (count : Int) (overflow : Fault) : Except Fault Nat :=
  if count > Limits.maxLength ∨ count < -(Limits.maxLength : Int) - 1 then .error .beyondLength
  else if length * count.toNat > Limits.maxLength then .error overflow
  else if length * count.toNat > Limits.maxHeld then .error .memory
  else .ok (if length = 0 then 0 else count.toNat)

/-- A single mark can be repeated as often as the host has room for. -/
theorem repetitions_one {count : Int} (low : -(Limits.maxLength : Int) - 1 ≤ count)
    (high : count ≤ Limits.maxHeld) (overflow : Fault) :
    repetitions 1 count overflow = .ok count.toNat := by
  have held : Limits.maxHeld = 4294967296 := rfl
  have longest : Limits.maxLength = 9223372036854775807 := rfl
  rw [repetitions, if_neg (by omega), if_neg (by omega), if_neg (by omega)]
  simp

end Rinha
