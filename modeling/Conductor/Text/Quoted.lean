import Conductor.Text.Shown
import Conductor.Text.Split

/-!
# Quoted texts in messages

Messages show a text between quotes, with line ends, quotes, backslashes and
characters that are not shown as themselves written as escapes.
-/

namespace Conductor.Text

/-- The hexadecimal digits of a number, lower case. -/
def hexText (n : Nat) : String :=
  String.ofList (Nat.toDigits 16 n)

/-- A character between quotes. -/
def quotedChar (c : Char) : String :=
  if c = '"' then "\\\""
  else if c = '\\' then "\\\\"
  else if c = '\n' then "\\n"
  else if c = '\r' then "\\r"
  else if c = '\t' then "\\t"
  else if c.toNat = 0 then "\\0"
  else if isShown c then String.singleton c
  else "\\u\x7b" ++ hexText c.toNat ++ "\x7d"

/-- A text between quotes. -/
def quoted (s : String) : String :=
  "\"" ++ String.join (s.toList.map quotedChar) ++ "\""

/-- A list of texts between brackets. -/
def quotedList (ss : List String) : String :=
  "[" ++ joinWith ", " (ss.map quoted) ++ "]"

/-- A text that may be missing. -/
def quotedOption : Option String → String
  | none => "None"
  | some s => "Some(" ++ quoted s ++ ")"

end Conductor.Text
