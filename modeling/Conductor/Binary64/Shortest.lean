import Conductor.Binary64.Basic

/-!
# Shortest decimal digits

`Binary64.shortest` gives the fewest decimal digits that read back as a number,
and among those the ones nearest to it. A `DecimalLayout` then says where digits
are written positionally and how a power of ten looks; each output format has one
such value of its own.
-/

namespace Conductor

/-- A positive decimal number `digits · 10 ^ exponent` whose last digit is not zero. -/
structure DecimalDigits where
  /-- The digits as a whole number. -/
  digits : Nat
  /-- Power of ten of the last digit. -/
  exponent : Int
  deriving DecidableEq, Repr

namespace DecimalDigits

/-- Drop zeros at the end, at most `n` of them. -/
def dropZeros : Nat → Nat → Int → DecimalDigits
  | 0, d, e => ⟨d, e⟩
  | n + 1, d, e => if d ≠ 0 ∧ d % 10 = 0 then dropZeros n (d / 10) (e + 1) else ⟨d, e⟩

/-- Number of digits. -/
def count (d : DecimalDigits) : Nat :=
  (toString d.digits).length

end DecimalDigits

namespace Binary64

/-- The largest `k` with `10 ^ k ≤ num / den`, looked for downwards from `start`. -/
def decimalOrder (num den : Nat) : Nat → Int → Int
  | 0, k => k
  | n + 1, k =>
      let fits := if k ≥ 0 then den * Nat.pow 10 k.toNat ≤ num else den ≤ num * Nat.pow 10 (-k).toNat
      if fits then k else decimalOrder num den n (k - 1)

/-- `num / den` in units of `10 ^ k`, as a fraction. -/
def inUnits (num den : Nat) (k : Int) : Nat × Nat :=
  if k ≥ 0 then (num, den * Nat.pow 10 k.toNat) else (num * Nat.pow 10 (-k).toNat, den)

/-- The nearer of the two neighbours of the number on the grid of multiples of
`10 ^ k` that read back as `x`. -/
def onGrid? (x : Binary64) (k : Int) : Option DecimalDigits :=
  let (n, d) := inUnits x.scaled unit k
  let low := n / d
  let fits (c : Nat) : Bool := ofDecimal x.isNegative c k = x
  let nearerHigh := d < 2 * (n % d) || (d = 2 * (n % d) && low % 2 = 1)
  if fits low && !(fits (low + 1) && nearerHigh) then some (DecimalDigits.dropZeros 400 low k)
  else if fits (low + 1) then some (DecimalDigits.dropZeros 400 (low + 1) k)
  else none

/-- Try grids of more and more digits, starting with the unit `10 ^ k`. -/
def firstGrid (x : Binary64) : Nat → Int → DecimalDigits
  | 0, k => ⟨(inUnits x.scaled unit k).1 / (inUnits x.scaled unit k).2, k⟩
  | n + 1, k =>
      match onGrid? x k with
      | some d => d
      | none => firstGrid x n (k - 1)

/-- The fewest digits that read back as the number, nearest first. The search for
the first digit starts above it: `0.30103` exceeds the decimal logarithm of two. -/
def shortest (x : Binary64) : DecimalDigits :=
  let above := ((x.scaled.log2 : Int) - 1074 + 1) * 30103 / 100000 + 1
  firstGrid x 1100 (decimalOrder x.scaled unit 700 above)

end Binary64

/-- How a number is written from its digits. -/
structure DecimalLayout where
  /-- The least power of ten of the first digit that is written positionally. -/
  lowest : Option Int
  /-- The first power of ten that is no longer written positionally. -/
  highest : Option Int
  /-- What follows the digits of a whole number. -/
  wholeSuffix : String
  /-- What marks a power of ten that is not negative. -/
  exponentSign : String
  /-- The positive infinity. -/
  infinity : String
  /-- The value that is no number. -/
  undefined : String

namespace DecimalLayout

/-- The digits with a point after `places` of them from the right. -/
def withPoint (digits : String) (places : Nat) : String :=
  let cs := digits.toList
  let cs := List.replicate (places + 1 - cs.length) '0' ++ cs
  let cut := cs.length - places
  String.ofList (cs.take cut ++ '.' :: cs.drop cut)

/-- A positive number. -/
def writePositive (layout : DecimalLayout) (d : DecimalDigits) : String :=
  let digits := toString d.digits
  let order : Int := d.exponent + digits.length - 1
  let positional :=
    layout.lowest.all (· ≤ order) && layout.highest.all (order < ·)
  if positional then
    if d.exponent ≥ 0 then
      digits ++ String.ofList (List.replicate d.exponent.toNat '0') ++ layout.wholeSuffix
    else withPoint digits (-d.exponent).toNat
  else
    let mantissa :=
      if digits.length = 1 then digits else withPoint digits (digits.length - 1)
    mantissa ++ "e" ++ (if order < 0 then "-" else layout.exponentSign) ++ toString order.natAbs

/-- The text of a number. -/
def write (layout : DecimalLayout) (x : Binary64) : String :=
  let sign := if x.isNegative then "-" else ""
  match x with
  | .nan => layout.undefined
  | .infinite _ => sign ++ layout.infinity
  | .finite _ m _ _ =>
      if m = 0 then sign ++ "0" ++ layout.wholeSuffix
      else sign ++ layout.writePositive x.shortest

end DecimalLayout

end Conductor
