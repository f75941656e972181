import Conductor.Binary64.Reader
import Conductor.Shell.Script

/-!
# Arithmetic of the shell

Expressions over whole numbers with the usual precedences. A name stands for the
number that its value spells, and for zero when it spells none.
-/

namespace Conductor.Shell.Arithmetic

/-- A token of an expression. -/
inductive Item where
  | number (n : Int)
  | operator (text : String)
  deriving DecidableEq, Repr

/-- The operators, longest first. -/
def operators : List String :=
  ["||", "&&", "==", "!=", "<=", ">=", "<<", ">>", "<", ">", "+", "-", "*", "/", "%", "!", "(",
    ")", "&", "|", "^", "~"]

/-- The number that a text spells, blanks aside. -/
def numberOf (s : String) : Int :=
  let cs := s.toList.filter fun c => c ≠ ' ' && c ≠ '\t' && c ≠ '\n'
  let (negative, r) := takeSign cs
  let n : Int := digitsValue 0 (takeDigits r).1
  if negative then -n else n

/-- The items of an expression. The first argument bounds their number. -/
def items? (value : String → String) : Nat → List Char → Option (List Item)
  | 0, _ => none
  | _, [] => some []
  | n + 1, c :: r =>
      if c = ' ' ∨ c = '\t' ∨ c = '\n' then items? value n r
      else if c.isDigit then
        let (ds, rest) := takeDigits (c :: r)
        (items? value n rest).map (.number (digitsValue 0 ds) :: ·)
      else if c = '$' then items? value n r
      else if isParameterStart c then
        let name := String.ofList (c :: r.takeWhile isParameterChar)
        (items? value n (r.dropWhile isParameterChar)).map (.number (numberOf (value name)) :: ·)
      else
        match operators.find? fun o => o.toList.isPrefixOf (c :: r) with
        | some o => (items? value n ((c :: r).drop o.length)).map (.operator o :: ·)
        | none => none

/-- How strongly an operator between two numbers binds. -/
def strength : String → Option Nat
  | "||" => some 1
  | "&&" => some 2
  | "|" => some 3
  | "^" => some 4
  | "&" => some 5
  | "==" => some 6
  | "!=" => some 6
  | "<" => some 7
  | ">" => some 7
  | "<=" => some 7
  | ">=" => some 7
  | "<<" => some 8
  | ">>" => some 8
  | "+" => some 9
  | "-" => some 9
  | "*" => some 10
  | "/" => some 10
  | "%" => some 10
  | _ => none

def ofBool (b : Bool) : Int :=
  if b then 1 else 0

/-- The result of an operator between two numbers; nothing for a division by zero. -/
def result? (o : String) (a b : Int) : Option Int :=
  match o with
  | "||" => some (ofBool (a ≠ 0 || b ≠ 0))
  | "&&" => some (ofBool (a ≠ 0 && b ≠ 0))
  | "==" => some (ofBool (a = b))
  | "!=" => some (ofBool (a ≠ b))
  | "<" => some (ofBool (a < b))
  | ">" => some (ofBool (b < a))
  | "<=" => some (ofBool (a ≤ b))
  | ">=" => some (ofBool (b ≤ a))
  | "+" => some (a + b)
  | "-" => some (a - b)
  | "*" => some (a * b)
  | "/" => if b = 0 then none else some (Int.tdiv a b)
  | "%" => if b = 0 then none else some (Int.tmod a b)
  | "<<" => some (a * Nat.pow 2 b.toNat)
  | ">>" => some (Int.fdiv a (Nat.pow 2 b.toNat))
  | "&" => some (Int.ofNat (a.toNat &&& b.toNat))
  | "|" => some (Int.ofNat (a.toNat ||| b.toNat))
  | "^" => some (Int.ofNat (a.toNat ^^^ b.toNat))
  | _ => none

mutual

/-- A number, a bracket or a signed operand. The first argument bounds the number of steps. -/
def operand : Nat → List Item → Option (Int × List Item)
  | 0, _ => none
  | _ + 1, .number x :: r => some (x, r)
  | n + 1, .operator "(" :: r => do
      let (x, r) ← operand n r
      let (x, r) ← joined n 1 x r
      match r with
      | .operator ")" :: r => some (x, r)
      | _ => none
  | n + 1, .operator "-" :: r => do
      let (x, r) ← operand n r
      some (-x, r)
  | n + 1, .operator "+" :: r => operand n r
  | n + 1, .operator "!" :: r => do
      let (x, r) ← operand n r
      some (ofBool (x = 0), r)
  | n + 1, .operator "~" :: r => do
      let (x, r) ← operand n r
      some (-x - 1, r)
  | _, _ => none

/-- What operators of at least the given strength make of a number. -/
def joined : Nat → Nat → Int → List Item → Option (Int × List Item)
  | 0, _, _, _ => none
  | n + 1, least, x, .operator o :: r =>
      match strength o with
      | none => some (x, .operator o :: r)
      | some k =>
          if k < least then some (x, .operator o :: r)
          else do
            let (y, r) ← operand n r
            let (y, r) ← joined n (k + 1) y r
            joined n least (← result? o x y) r
  | _, _, x, r => some (x, r)

end

/-- The number that an expression comes to. -/
def evaluate? (value : String → String) (expression : String) : Option Int := do
  let cs := expression.toList
  let is ← items? value (cs.length + 1) cs
  if is.isEmpty then some 0
  else
    let fuel := 4 * is.length + 4
    let (x, r) ← operand fuel is
    let (x, r) ← joined fuel 1 x r
    if r.isEmpty then some x else none

end Conductor.Shell.Arithmetic
