/-!
# Host limits

Reading, decoding and evaluation are recursive, and a host follows recursion only so far.  How far
is derived from one number, the frames that the host provides: reading a container takes one of
them, decoding or evaluating a node takes two.  A run that is traced cannot use all of them, since
an entry of the trace takes frames of its own while it is written, below those of the nodes whose
evaluation is in progress.

## Main definitions

* `Limits` -- how deeply each kind of recursion may nest.
* `Limits.evaluating` -- how deeply evaluation may nest in a run that is traced or not.
* `Limits.ofFrames` -- the limits of a host with a given number of frames.
* `Limits.freshFrames`, `Limits.framesFor` -- the frames of a host that has not been asked for any,
  and those that it is asked for so that a depth can be reached.
* `Limits.standard` -- the limits of a host that has been asked for the default depth.
* `Limits.maxLength`, `Limits.maxHeld` -- how long a text or a list may be, anywhere and here.
-/

namespace Rinha

/-- How deeply the recursions of the host may nest. -/
structure Limits where
  /-- Containers that may be open at once in a text. -/
  reading : Nat
  /-- Nodes that may be nested in a tree that is decoded. -/
  decoding : Nat
  /-- Nodes whose evaluation may be in progress at once in a run that is not traced. -/
  untraced : Nat
  /-- Nodes whose evaluation may be in progress at once in a run that is traced. -/
  traced : Nat
  deriving DecidableEq, Repr

/-- Nodes whose evaluation may be in progress at once. -/
def Limits.evaluating (limits : Limits) (debug : Bool) : Nat :=
  if debug then limits.traced else limits.untraced

@[simp] theorem Limits.evaluating_true (limits : Limits) : limits.evaluating true = limits.traced :=
  rfl

@[simp] theorem Limits.evaluating_false (limits : Limits) :
    limits.evaluating false = limits.untraced := rfl

/-- The greatest length of a text or a list. -/
def Limits.maxLength : Nat := Nat.pow 2 63 - 1

/-- The greatest length of a text or a list that the host can hold. -/
def Limits.maxHeld : Nat := Nat.pow 2 32

/-- The frames that the host itself takes up. -/
def Limits.reserve : Nat := 12

/-- The frames that it takes to write an entry of a trace. -/
def Limits.logging : Nat := 10

/-- The limits of a host that provides the given number of frames. -/
def Limits.ofFrames (frames : Nat) : Limits where
  reading := frames - reserve
  decoding := (frames - reserve) / 2
  untraced := (frames - reserve) / 2
  traced := (frames - reserve - logging) / 2

/-- The number of frames that a host provides before it is asked for any. -/
def Limits.freshFrames : Nat := 1000

/-- The frames that are asked for with every level of nesting. -/
def Limits.framesPerLevel : Nat := 4

/-- The frames that are asked for beside those for the levels. -/
def Limits.spareFrames : Nat := 1000

/-- The number of frames that a host is asked for, so that evaluation can nest to a given depth. -/
def Limits.framesFor (depth : Int) : Nat :=
  depth.toNat * framesPerLevel + spareFrames

/-- The depth of nesting allowed by default. -/
def defaultMaxDepth : Int := 10000

/-- The limits of a host that has been asked for the default depth. -/
def Limits.standard : Limits := .ofFrames (framesFor defaultMaxDepth)

end Rinha
