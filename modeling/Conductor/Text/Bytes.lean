/-!
# Texts as bytes

Programs write bytes. A text is encoded in UTF-8; bytes that are not UTF-8 are either
refused or shown with replacement characters, one for each piece that could have been
the beginning of a character.
-/

namespace Conductor.Text

/-- The bytes of a text. -/
def encode (s : String) : List UInt8 :=
  s.toUTF8.toList

/-- The text that bytes spell; nothing when they are not UTF-8. -/
def decode? (bs : List UInt8) : Option String :=
  String.fromUTF8? ⟨bs.toArray⟩

/-- Whether a byte continues a character. -/
def isContinuation (b : UInt8) : Bool :=
  0x80 ≤ b && b < 0xC0

/-- How many bytes a character has that begins with this byte, and the bounds of its
second byte. -/
def leadInfo? (b : UInt8) : Option (Nat × UInt8 × UInt8) :=
  if b < 0x80 then some (1, 0x80, 0xBF)
  else if 0xC2 ≤ b && b ≤ 0xDF then some (2, 0x80, 0xBF)
  else if b = 0xE0 then some (3, 0xA0, 0xBF)
  else if b = 0xED then some (3, 0x80, 0x9F)
  else if 0xE1 ≤ b && b ≤ 0xEF then some (3, 0x80, 0xBF)
  else if b = 0xF0 then some (4, 0x90, 0xBF)
  else if 0xF1 ≤ b && b ≤ 0xF3 then some (4, 0x80, 0xBF)
  else if b = 0xF4 then some (4, 0x80, 0x8F)
  else none

/-- The number of bytes at the start that may belong to one character of `n` bytes. -/
def validLength (n : Nat) (low high : UInt8) : List UInt8 → Nat
  | [] => 0
  | _ :: r =>
      match r with
      | [] => 1
      | second :: more =>
          if n ≥ 2 && low ≤ second && second ≤ high then
            2 + ((more.take (n - 2)).takeWhile isContinuation).length
          else 1

/-- The text that bytes spell, with replacement characters for what is not UTF-8. The
first argument bounds the number of pieces. -/
def decodePieces : Nat → List UInt8 → String
  | 0, _ => ""
  | _, [] => ""
  | k + 1, b :: r =>
      match leadInfo? b with
      | none => "\uFFFD" ++ decodePieces k r
      | some (n, low, high) =>
          let len := if n = 1 then 1 else validLength n low high (b :: r)
          let piece :=
            if len = n then (decode? ((b :: r).take n)).getD "\uFFFD" else "\uFFFD"
          piece ++ decodePieces k ((b :: r).drop len)

/-- The text that bytes spell, with replacement characters for what is not UTF-8. -/
def decodeLossy (bs : List UInt8) : String :=
  (decode? bs).getD (decodePieces bs.length bs)

end Conductor.Text
