import Conductor.Binary64.Basic

/-!
# Reading numbers

`Binary64.read?` accepts a sign, then either one of the words `inf`, `infinity`
and `nan` in any case, or decimal digits with at most one point, at least one
digit on either side of it, and an optional power of ten. The value is the double
nearest to the number written.
-/

namespace Conductor

/-- Value of a decimal digit. -/
def digitValue (c : Char) : Nat :=
  c.toNat - '0'.toNat

/-- The number that a run of decimal digits spells, continuing from `acc`. -/
def digitsValue (acc : Nat) (ds : List Char) : Nat :=
  ds.foldl (fun n d => 10 * n + digitValue d) acc

/-- A sign, and what follows it. -/
def takeSign : List Char → Bool × List Char
  | '-' :: r => (true, r)
  | '+' :: r => (false, r)
  | r => (false, r)

/-- The leading decimal digits, and what follows them. -/
def takeDigits (cs : List Char) : List Char × List Char :=
  (cs.takeWhile Char.isDigit, cs.dropWhile Char.isDigit)

/-- A power of ten as in `e-7`, spelled out to the end of the text. -/
def readExponent? : List Char → Option Int
  | [] => some 0
  | c :: r =>
      if c = 'e' ∨ c = 'E' then
        let (negative, r) := takeSign r
        let (ds, r) := takeDigits r
        if ds.isEmpty || !r.isEmpty then none
        else
          let n : Int := digitsValue 0 ds
          some (if negative then -n else n)
      else none

namespace Binary64

/-- Digits, a point, digits and a power of ten. -/
def readUnsigned? (negative : Bool) (cs : List Char) : Option Binary64 :=
  let (whole, r) := takeDigits cs
  let (places, r) := match r with
    | '.' :: r => takeDigits r
    | r => ([], r)
  if whole.isEmpty && places.isEmpty then none
  else (readExponent? r).map fun e =>
    ofDecimal negative (digitsValue (digitsValue 0 whole) places) (e - places.length)

/-- The number that the whole text spells. -/
def read? (s : String) : Option Binary64 :=
  let (negative, cs) := takeSign s.toList
  let word := String.ofList (cs.map Char.toLower)
  if word = "inf" ∨ word = "infinity" then some (.infinite negative)
  else if word = "nan" then some .nan
  else readUnsigned? negative cs

end Binary64

end Conductor
