import Conductor.Json.Basic
import Conductor.Binary64.Reader

/-!
# Reading JSON text

A whole number stays one while it fits 64 bits. Any other number is read as the
leading digits that fit 64 bits, rounded to a double, and then multiplied or
divided by a power of ten and rounded again.
-/

namespace Conductor.Json

/-- Largest whole number that is kept exactly. -/
def maxWhole : Nat := Nat.pow 2 64 - 1

/-- Scale a double by `10 ^ exponent`, at most `10 ^ 308` at a time. Nothing when
the result is too large. -/
def scaleByTen : Nat → Binary64 → Int → Option Binary64
  | 0, _, _ => none
  | n + 1, x, e =>
      if e.natAbs ≤ 308 then
        let power := Binary64.ofDecimal false 1 e.natAbs
        let y := if e ≥ 0 then x.scaleUp power else x.scaleDown power
        if y.isFinite then some y else none
      else if x.isZero then some x
      else if e > 0 then none
      else scaleByTen n (x.scaleDown (Binary64.ofDecimal false 1 308)) (e + 308)

/-- The digits of a number as far as they fit: the value so far, and how many
digits were left out. -/
def takeSignificand : Nat → Nat → List Char → Nat × Nat × List Char
  | m, skipped, [] => (m, skipped, [])
  | m, skipped, c :: r =>
      if c.isDigit then
        if skipped = 0 ∧ 10 * m + digitValue c ≤ maxWhole then
          takeSignificand (10 * m + digitValue c) 0 r
        else takeSignificand m (skipped + 1) r
      else (m, skipped, c :: r)

/-- Digits after the point: the value so far, how many were taken, and the rest. -/
def takePlaces : Bool → Nat → Nat → List Char → Nat × Nat × List Char
  | _, m, n, [] => (m, n, [])
  | full, m, n, c :: r =>
      if c.isDigit then
        if !full && 10 * m + digitValue c ≤ maxWhole then
          takePlaces false (10 * m + digitValue c) (n + 1) r
        else takePlaces true m n r
      else (m, n, c :: r)

/-- An optional power of ten after a number. -/
def takeExponent : List Char → Option (Int × List Char)
  | [] => some (0, [])
  | c :: r =>
      if c = 'e' ∨ c = 'E' then
        let (negative, r) := takeSign r
        let (ds, r) := takeDigits r
        if ds.isEmpty then none
        else
          let n : Int := digitsValue 0 ds
          some (if negative then -n else n, r)
      else some (0, c :: r)

/-- A number, its sign already taken. -/
def takeNumber (negative : Bool) (cs : List Char) : Option (Json × List Char) :=
  let (digits, _) := takeDigits cs
  if digits.isEmpty || (digits.length > 1 && digits.head? = some '0') then none
  else
    let (m, skipped, r) := takeSignificand 0 0 cs
    match r with
    | '.' :: r =>
        if (takeDigits r).1.isEmpty then none
        else do
          let (m, places, r) := takePlaces false m 0 r
          let (e, r) ← takeExponent r
          let x ← scaleByTen 40 (Binary64.ofRatio negative m 1) (skipped - places + e)
          pure (.float x, r)
    | c :: r =>
        if c = 'e' ∨ c = 'E' then do
          let (e, r) ← takeExponent (c :: r)
          let x ← scaleByTen 40 (Binary64.ofRatio negative m 1) (skipped + e)
          pure (.float x, r)
        else whole m skipped (c :: r)
    | [] => whole m skipped []
where
  /-- A number without a point and without a power of ten. -/
  whole (m skipped : Nat) (r : List Char) : Option (Json × List Char) :=
    if skipped > 0 then do
      let x ← scaleByTen 40 (Binary64.ofRatio negative m 1) skipped
      pure (.float x, r)
    else if !negative then some (.int m, r)
    else if 0 < m ∧ m ≤ Nat.pow 2 63 then some (.int (-m), r)
    else some (.float (Binary64.ofRatio true m 1), r)

/-- Value of a hexadecimal digit. -/
def hexValue? (c : Char) : Option Nat :=
  if c.isDigit then some (digitValue c)
  else if 'a' ≤ c ∧ c ≤ 'f' then some (c.toNat - 'a'.toNat + 10)
  else if 'A' ≤ c ∧ c ≤ 'F' then some (c.toNat - 'A'.toNat + 10)
  else none

/-- The number that a run of hexadecimal digits spells. -/
def hexNumber? (cs : List Char) : Option Nat :=
  cs.foldl (fun n c => do pure (16 * (← n) + (← hexValue? c))) (some 0)

/-- The rest of a text in quotes. -/
def takeText : List Char → List Char → Option (String × List Char)
  | _, [] => none
  | acc, '"' :: r => some (String.ofList acc.reverse, r)
  | acc, '\\' :: 'u' :: a :: b :: c :: d :: r => do
      let n ← hexNumber? [a, b, c, d]
      if 0xD800 ≤ n ∧ n < 0xDC00 then
        match r with
        | '\\' :: 'u' :: a' :: b' :: c' :: d' :: r' => do
            let m ← hexNumber? [a', b', c', d']
            if 0xDC00 ≤ m ∧ m < 0xE000 then
              takeText (Char.ofNat (0x10000 + (n - 0xD800) * 0x400 + (m - 0xDC00)) :: acc) r'
            else none
        | _ => none
      else if 0xDC00 ≤ n ∧ n < 0xE000 then none
      else takeText (Char.ofNat n :: acc) r
  | acc, '\\' :: c :: r =>
      match c with
      | '"' => takeText ('"' :: acc) r
      | '\\' => takeText ('\\' :: acc) r
      | '/' => takeText ('/' :: acc) r
      | 'b' => takeText ('\x08' :: acc) r
      | 'f' => takeText ('\x0c' :: acc) r
      | 'n' => takeText ('\n' :: acc) r
      | 'r' => takeText ('\r' :: acc) r
      | 't' => takeText ('\t' :: acc) r
      | _ => none
  | acc, c :: r => if c.toNat < 0x20 then none else takeText (c :: acc) r

/-- The blanks that may stand between the parts of a value. -/
def skipBlanks (cs : List Char) : List Char :=
  cs.dropWhile fun c => c = ' ' || c = '\n' || c = '\t' || c = '\r'

mutual

/-- A value at the start of the characters; the first argument bounds how many
steps the reading may take. -/
def takeValue : Nat → List Char → Option (Json × List Char)
  | 0, _ => none
  | n + 1, cs =>
      match skipBlanks cs with
      | 'n' :: 'u' :: 'l' :: 'l' :: r => some (.null, r)
      | 't' :: 'r' :: 'u' :: 'e' :: r => some (.bool true, r)
      | 'f' :: 'a' :: 'l' :: 's' :: 'e' :: r => some (.bool false, r)
      | '"' :: r => (takeText [] r).map fun p => (.str p.1, p.2)
      | '[' :: r =>
          match skipBlanks r with
          | ']' :: r => some (.arr [], r)
          | r => (takeItems n r).map fun p => (.arr p.1, p.2)
      | '\x7b' :: r =>
          match skipBlanks r with
          | '\x7d' :: r => some (.obj [], r)
          | r => (takeFields n r).map fun p => (object p.1, p.2)
      | '-' :: r => takeNumber true r
      | r => takeNumber false r

/-- The items of an array that has at least one. -/
def takeItems : Nat → List Char → Option (List Json × List Char)
  | 0, _ => none
  | n + 1, cs => do
      let (v, r) ← takeValue n cs
      match skipBlanks r with
      | ',' :: r => do
          let (vs, r) ← takeItems n r
          pure (v :: vs, r)
      | ']' :: r => pure ([v], r)
      | _ => none

/-- The fields of an object that has at least one. -/
def takeFields : Nat → List Char → Option (List (String × Json) × List Char)
  | 0, _ => none
  | n + 1, cs => do
      match skipBlanks cs with
      | '"' :: r => do
          let (name, r) ← takeText [] r
          match skipBlanks r with
          | ':' :: r => do
              let (v, r) ← takeValue n r
              match skipBlanks r with
              | ',' :: r => do
                  let (fs, r) ← takeFields n r
                  pure ((name, v) :: fs, r)
              | '\x7d' :: r => pure ([(name, v)], r)
              | _ => none
          | _ => none
      | _ => none

end

/-- The value that the whole text spells. -/
def read? (s : String) : Option Json := do
  let cs := s.toList
  let (v, r) ← takeValue (2 * cs.length + 2) cs
  if (skipBlanks r).isEmpty then pure v else none

end Conductor.Json
