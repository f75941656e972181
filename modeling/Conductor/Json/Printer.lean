import Conductor.Json.Basic
import Conductor.Binary64.Shortest
import Conductor.Text.Split

/-!
# JSON text

The compact text has no blanks; the indented one has each field and each item on
a line of its own. Both write the same characters for texts and numbers.
-/

namespace Conductor.Json

/-- A double in JSON always shows a point or a power of ten. -/
def numberLayout : DecimalLayout where
  lowest := some (-5)
  highest := some 16
  wholeSuffix := ".0"
  exponentSign := "+"
  infinity := "null"
  undefined := "null"

/-- Two hexadecimal digits. -/
def hexByte (n : Nat) : String :=
  String.ofList [Nat.digitChar (n / 16 % 16), Nat.digitChar (n % 16)]

/-- A character inside quotes. -/
def escapeChar (c : Char) : String :=
  if c = '"' then "\\\""
  else if c = '\\' then "\\\\"
  else if c = '\n' then "\\n"
  else if c = '\r' then "\\r"
  else if c = '\t' then "\\t"
  else if c.toNat = 8 then "\\b"
  else if c.toNat = 12 then "\\f"
  else if c.toNat < 0x20 then "\\u00" ++ hexByte c.toNat
  else String.singleton c

/-- A text in quotes. -/
def quote (s : String) : String :=
  "\"" ++ String.join (s.toList.map escapeChar) ++ "\""

/-- A number that JSON has no spelling for is written as null. -/
def writeFloat (x : Binary64) : String :=
  if x.isFinite then numberLayout.write x else "null"

mutual

/-- The compact text of a value. -/
def compact : Json → String
  | .null => "null"
  | .bool b => if b then "true" else "false"
  | .int n => toString n
  | .float x => writeFloat x
  | .str s => quote s
  | .arr items => "[" ++ Text.joinWith "," (compactItems items) ++ "]"
  | .obj fields => "\x7b" ++ Text.joinWith "," (compactFields fields) ++ "\x7d"

def compactItems : List Json → List String
  | [] => []
  | v :: r => compact v :: compactItems r

def compactFields : List (String × Json) → List String
  | [] => []
  | (n, v) :: r => (quote n ++ ":" ++ compact v) :: compactFields r

end

/-- Blanks at the start of a line, two for each level. -/
def indent (depth : Nat) : String :=
  String.ofList (List.replicate (2 * depth) ' ')

mutual

/-- The indented text of a value that stands at the given level. -/
def indented (depth : Nat) : Json → String
  | .null => "null"
  | .bool b => if b then "true" else "false"
  | .int n => toString n
  | .float x => writeFloat x
  | .str s => quote s
  | .arr [] => "[]"
  | .arr (v :: r) =>
      "[\n" ++ Text.joinWith ",\n" (indentedItems (depth + 1) (v :: r)) ++ "\n" ++ indent depth ++ "]"
  | .obj [] => "\x7b\x7d"
  | .obj (f :: r) =>
      "\x7b\n" ++ Text.joinWith ",\n" (indentedFields (depth + 1) (f :: r)) ++ "\n" ++
        indent depth ++ "\x7d"

def indentedItems (depth : Nat) : List Json → List String
  | [] => []
  | v :: r => (indent depth ++ indented depth v) :: indentedItems depth r

def indentedFields (depth : Nat) : List (String × Json) → List String
  | [] => []
  | (n, v) :: r =>
      (indent depth ++ quote n ++ ": " ++ indented depth v) :: indentedFields depth r

end

end Conductor.Json
