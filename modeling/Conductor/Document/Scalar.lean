import Conductor.Document.Basic
import Conductor.Json.Reader
import Conductor.Text.Blank

/-!
# Values on one line

A value on one line is a text without quotes, a text in quotes, a list in brackets or a
record in braces. A text without quotes ends before a colon that a blank follows, before
a remark, and within brackets and braces also before a comma or a bracket.
-/

namespace Conductor.Document

/-- Characters that structure lists and records. -/
def isFlowMark (c : Char) : Bool :=
  c = ',' || c = '[' || c = ']' || c = '\x7b' || c = '\x7d'

/-- Whether a text without quotes may begin here. -/
def startsPlain (inFlow : Bool) : List Char → Bool
  | [] => false
  | c :: r =>
      if c = '-' then !startsBlank r
      else if c = '?' || c = ':' then !inFlow && !startsBlank r
      else !(isSpace c || isFlowMark c || c = '#' || c = '&' || c = '*' || c = '!' || c = '|' ||
        c = '>' || c = '\'' || c = '"' || c = '%' || c = '@' || c = '\x60')

/-- The characters of a text without quotes with the blanks behind it, and the rest.
Within brackets a colon must not touch a comma or a bracket. -/
def spanPlain (inFlow : Bool) (before : Char) : List Char → Option (List Char × List Char)
  | [] => some ([], [])
  | c :: r =>
      if c = ':' && startsBlank r then some ([], c :: r)
      else if inFlow && c = ':' && r.head?.any (fun d => isFlowMark d || d = '?') then none
      else if inFlow && isFlowMark c then some ([], c :: r)
      else if c = '#' && isSpace before then some ([], c :: r)
      else (spanPlain inFlow c r).map fun p => (c :: p.1, p.2)

/-- The characters without the blanks they end with. -/
def dropSpaces (cs : List Char) : List Char :=
  (cs.reverse.dropWhile isSpace).reverse

/-- A text without quotes. -/
def takePlain (inFlow : Bool) (cs : List Char) : Option (DocumentValue × List Char) :=
  if startsPlain inFlow cs then
    (spanPlain inFlow 'x' cs).map fun p => (.plain (String.ofList (dropSpaces p.1)), p.2)
  else none

/-- The rest of a text in single quotes; a quote inside is written twice. -/
def takeSingle (acc : List Char) : List Char → Option (DocumentValue × List Char)
  | [] => none
  | '\'' :: '\'' :: r => takeSingle ('\'' :: acc) r
  | '\'' :: r => some (.quoted (String.ofList acc.reverse), r)
  | c :: r => takeSingle (c :: acc) r

/-- What the character after a backslash stands for. -/
def escaped? (c : Char) : Option Char :=
  match c with
  | '0' => some '\x00'
  | 'a' => some '\x07'
  | 'b' => some '\x08'
  | 't' => some '\t'
  | '\t' => some '\t'
  | 'n' => some '\n'
  | 'v' => some '\x0b'
  | 'f' => some '\x0c'
  | 'r' => some '\r'
  | 'e' => some '\x1b'
  | ' ' => some ' '
  | '"' => some '"'
  | '/' => some '/'
  | '\\' => some '\\'
  | 'N' => some '\u0085'
  | '_' => some '\u00a0'
  | 'L' => some '\u2028'
  | 'P' => some '\u2029'
  | _ => none

/-- How many hexadecimal digits follow the character after a backslash. -/
def escapeDigits? (c : Char) : Option Nat :=
  match c with
  | 'x' => some 2
  | 'u' => some 4
  | 'U' => some 8
  | _ => none

/-- The character with a number; nothing when there is none. -/
def charOf? (n : Nat) : Option Char :=
  if n < 0xD800 ∨ (0xE000 ≤ n ∧ n < 0x110000) then some (Char.ofNat n) else none

/-- The rest of a text in double quotes; the first argument counts characters of an
escape that are still to be passed over. -/
def takeDouble : Nat → List Char → List Char → Option (DocumentValue × List Char)
  | _, _, [] => none
  | k + 1, acc, _ :: r => takeDouble k acc r
  | 0, acc, '"' :: r => some (.quoted (String.ofList acc.reverse), r)
  | 0, _, ['\\'] => none
  | 0, acc, '\\' :: c :: r =>
      match escapeDigits? c with
      | some n => do
          let digits := r.take n
          if digits.length < n then none
          let d ← charOf? (← Json.hexNumber? digits)
          takeDouble n (d :: acc) r
      | none => do
          let d ← escaped? c
          takeDouble 0 (d :: acc) r
  | 0, acc, c :: r => takeDouble 0 (c :: acc) r

/-- The characters after blanks. -/
def skipSpaces (cs : List Char) : List Char :=
  cs.dropWhile isSpace

mutual

/-- A value; the first argument bounds how many values may be nested and follow each
other in it. -/
def takeValue : Nat → Bool → List Char → Option (DocumentValue × List Char)
  | 0, _, _ => none
  | n + 1, inFlow, cs =>
      match cs with
      | '\x7b' :: r => (takeFields n (skipSpaces r)).map fun p => (.record p.1, p.2)
      | '[' :: r => (takeItems n (skipSpaces r)).map fun p => (.list p.1, p.2)
      | '"' :: r => takeDouble 0 [] r
      | '\'' :: r => takeSingle [] r
      | cs => takePlain inFlow cs

/-- A value after a colon, where it may be missing. -/
def takeFieldValue : Nat → List Char → Option (DocumentValue × List Char)
  | 0, _ => none
  | n + 1, cs =>
      if cs.head?.any fun c => c = ',' || c = '\x7d' || c = ']' then some (.plain "", cs)
      else takeValue n true cs

/-- The fields of a record up to its closing brace. A name may stand without a value. -/
def takeFields : Nat → List Char → Option (List (DocumentValue × DocumentValue) × List Char)
  | 0, _ => none
  | n + 1, cs =>
      match cs with
      | '\x7d' :: r => some ([], r)
      | cs => do
          let (name, r) ← if cs.head? = some ':' then some (.plain "", cs) else takeValue n true cs
          let (value, r) ← match skipSpaces r with
            | ':' :: r => takeFieldValue n (skipSpaces r)
            | r => some (.plain "", r)
          match skipSpaces r with
          | ',' :: r => do
              let (fields, r) ← takeFields n (skipSpaces r)
              some ((name, value) :: fields, r)
          | '\x7d' :: r => some ([(name, value)], r)
          | _ => none

/-- The items of a list up to its closing bracket. An item may be a single field. -/
def takeItems : Nat → List Char → Option (List DocumentValue × List Char)
  | 0, _ => none
  | n + 1, cs =>
      match cs with
      | ']' :: r => some ([], r)
      | cs => do
          let (value, r) ← takeValue n true cs
          let (item, r) ← match skipSpaces r with
            | ':' :: r => (takeFieldValue n (skipSpaces r)).map fun p => (.record [(value, p.1)], p.2)
            | r => some (value, r)
          match skipSpaces r with
          | ',' :: r => do
              let (items, r) ← takeItems n (skipSpaces r)
              some (item :: items, r)
          | ']' :: r => some ([item], r)
          | _ => none

end

/-- The value that a line goes on with; nothing more may follow it on the line. -/
def lineValue? (cs : List Char) : Option DocumentValue :=
  if isDone cs then some (.plain "")
  else do
    let (v, r) ← takeValue (2 * cs.length + 2) false (skipSpaces cs)
    if isDone r then some v else none

end Conductor.Document
