/-!
# Double-precision numbers

A `Binary64` is a binary floating-point number with 53 significant bits, an
infinity, or the one value that is no number. A finite number is kept as a
significand and a scale in normal form, so that equal values are equal terms;
its exact value is `significand · 2 ^ scale / 2 ^ 1074`.

Every operation is exact arithmetic on natural numbers followed by one rounding,
`Binary64.ofRatio`, which goes to the nearest number and to the even one of two
equally near ones.
-/

namespace Conductor

/-- Quotient rounded to the nearest whole number, a half going to the even
neighbour. -/
def roundHalfEven (num den : Nat) : Nat :=
  let q := num / den
  let r := num % den
  if 2 * r < den then q
  else if 2 * r = den then (if q % 2 = 0 then q else q + 1)
  else q + 1

/-- Normal form of a finite number: the significand has 53 bits unless the
scale is the smallest. -/
def IsNormal (significand scale : Nat) : Prop :=
  significand < Nat.pow 2 53 ∧ scale ≤ 2045 ∧ (Nat.pow 2 52 ≤ significand ∨ scale = 0)

instance (m s : Nat) : Decidable (IsNormal m s) := by
  unfold IsNormal; infer_instance

/-- A double-precision number. -/
inductive Binary64 where
  /-- No number. -/
  | nan
  /-- One of the two infinities. -/
  | infinite (negative : Bool)
  /-- The number `± significand · 2 ^ scale / 2 ^ 1074`. -/
  | finite (negative : Bool) (significand scale : Nat) (normal : IsNormal significand scale)
  deriving DecidableEq

namespace Binary64

/-- The common denominator of all finite numbers. -/
def unit : Nat := Nat.pow 2 1074

/-- Zero with the given sign. -/
def zero (negative : Bool) : Binary64 :=
  .finite negative 0 0 (by decide)

instance : Inhabited Binary64 := ⟨zero false⟩

/-- The finite number with this significand and scale, brought into normal form
when the significand has just outgrown its 53 bits; infinite when it is too large. -/
def ofParts (negative : Bool) (significand scale : Nat) : Binary64 :=
  let carried := significand = Nat.pow 2 53
  let m := if carried then Nat.pow 2 52 else significand
  let s := if carried then scale + 1 else scale
  if h : IsNormal m s then .finite negative m s h else .infinite negative

/-- The number nearest to `num / den`, ties to the even significand. -/
def ofRatio (negative : Bool) (num den : Nat) : Binary64 :=
  let n := num * unit
  let q := n / den
  let scale := if q < Nat.pow 2 53 then 0 else q.log2 - 52
  ofParts negative (roundHalfEven n (den * Nat.pow 2 scale)) scale

/-- The number nearest to a natural number. -/
def ofNat (n : Nat) : Binary64 :=
  ofRatio false n 1

/-- The number nearest to a whole number. -/
def ofInt (n : Int) : Binary64 :=
  ofRatio (n < 0) n.natAbs 1

/-- The number nearest to `digits · 10 ^ exponent`. Exponents far outside the
range of the finite numbers give zero and infinity at once. -/
def ofDecimal (negative : Bool) (digits : Nat) (exponent : Int) : Binary64 :=
  if digits = 0 then zero negative
  else if exponent > 400 then .infinite negative
  else if exponent + (digits.log2 : Int) < -1200 then zero negative
  else if exponent ≥ 0 then ofRatio negative (digits * Nat.pow 10 exponent.toNat) 1
  else ofRatio negative digits (Nat.pow 10 (-exponent).toNat)

/-- Numerator of the absolute value over `unit`; zero where there is none. -/
def scaled : Binary64 → Nat
  | .finite _ m s _ => m * Nat.pow 2 s
  | _ => 0

/-- Whether the sign is a minus, as on `-0`. -/
def isNegative : Binary64 → Bool
  | .nan => false
  | .infinite n => n
  | .finite n _ _ _ => n

/-- Whether the number is neither infinite nor undefined. -/
def isFinite : Binary64 → Bool
  | .finite .. => true
  | _ => false

/-- Whether the number is finite or infinite and above zero. -/
def isPositive : Binary64 → Bool
  | .nan => false
  | .infinite n => !n
  | .finite n m _ _ => !n && m ≠ 0

/-- Whether the number is below zero. Neither zero is. -/
def isBelowZero : Binary64 → Bool
  | .nan => false
  | .infinite n => n
  | .finite n m _ _ => n && m ≠ 0

/-- Whether the number is one of the two zeros. -/
def isZero : Binary64 → Bool
  | .finite _ m _ _ => m = 0
  | _ => false

/-- Whether the number is above a natural number. -/
def exceeds : Binary64 → Nat → Bool
  | .nan, _ => false
  | .infinite n, _ => !n
  | .finite n m s _, k => !n && k * unit < m * Nat.pow 2 s

/-- The opposite number. -/
def neg : Binary64 → Binary64
  | .nan => .nan
  | .infinite n => .infinite (!n)
  | .finite n m s h => .finite (!n) m s h

/-- Product of two finite numbers with the sign of the first, rounded. -/
def scaleUp (a b : Binary64) : Binary64 :=
  ofRatio a.isNegative (a.scaled * b.scaled) (unit * unit)

/-- Quotient of two finite numbers with the sign of the first, rounded. -/
def scaleDown (a b : Binary64) : Binary64 :=
  ofRatio a.isNegative a.scaled b.scaled

/-- Whether two numbers compare equal: the zeros do, and the value that is no
number equals nothing. -/
def same : Binary64 → Binary64 → Bool
  | .nan, _ => false
  | _, .nan => false
  | .finite n m s _, .finite n' m' s' _ =>
      (m = 0 && m' = 0) || (n = n' && m = m' && s = s')
  | .infinite n, .infinite n' => n = n'
  | _, _ => false

end Binary64

end Conductor
