import Conductor.Binary64.Basic

/-!
# Durations

A `Duration` is a whole number of nanoseconds below `2 ^ 64` seconds. A number of
seconds becomes a duration by rounding to the nearest nanosecond, unless it is
negative, too large or no number at all.
-/

namespace Conductor

def nanosPerSecond : Nat := 1000000000

/-- The first number of nanoseconds that a duration cannot hold. -/
def Duration.limit : Nat := Nat.pow 2 64 * nanosPerSecond

/-- A span of time in nanoseconds. -/
structure Duration where
  /-- Whole nanoseconds. -/
  nanos : Nat
  deriving DecidableEq, Repr, Inhabited

namespace Duration

/-- No time at all. -/
def zero : Duration := ⟨0⟩

/-- Whether no time passes. -/
def isZero (d : Duration) : Bool :=
  d.nanos = 0

/-- Whole seconds. -/
def seconds (d : Duration) : Nat :=
  d.nanos / nanosPerSecond

/-- Nanoseconds beyond the whole seconds. -/
def subsecNanos (d : Duration) : Nat :=
  d.nanos % nanosPerSecond

/-- A number of seconds, rounded to the nearest nanosecond. Nothing for a
negative number and for one that no duration holds; minus zero is no time. -/
def ofSeconds? (x : Binary64) : Option Duration :=
  if x.isFinite && !x.isBelowZero then
    let n := roundHalfEven (x.scaled * nanosPerSecond) Binary64.unit
    if n < limit then some ⟨n⟩ else none
  else none

end Duration

end Conductor
