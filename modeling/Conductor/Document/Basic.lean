/-!
# Documents

A document is text in which a person writes down named values, one to a line or all of
them in braces. Here are the values of a document and the lines that its text is made
of. A line is told from the others by its own characters alone.
-/

namespace Conductor

inductive DocumentValue where
  /-- Text without quotes; the empty text stands where nothing is written. -/
  | plain (text : String)
  | quoted (text : String)
  | list (items : List DocumentValue)
  | record (fields : List (DocumentValue × DocumentValue))
  /-- A value that is spread over lines of its own, which nobody reads. -/
  | spread

namespace DocumentValue

/-- The text of a value that is only a text. -/
def asWord? : DocumentValue → Option String
  | .plain s => some s
  | .quoted s => some s
  | _ => none

/-- A truth value is one of six words without quotes. -/
def asBool? : DocumentValue → Option Bool
  | .plain s =>
      if s = "true" ∨ s = "True" ∨ s = "TRUE" then some true
      else if s = "false" ∨ s = "False" ∨ s = "FALSE" then some false
      else none
  | _ => none

end DocumentValue

namespace Document

/-- Blanks within a line. -/
def isSpace (c : Char) : Bool :=
  c = ' ' || c = '\t'

/-- Characters that end a line. -/
def isBreak (c : Char) : Bool :=
  c = '\n' || c = '\r' || c = '\u0085' || c = '\u2028' || c = '\u2029'

/-- Characters that a document may hold: no controls, no marks of byte order, no
characters that are none. -/
def isAllowed (c : Char) : Bool :=
  let n := c.toNat
  n = 9 || n = 10 || n = 13 || (0x20 ≤ n && n ≤ 0x7E) || n = 0x85 || (0xA0 ≤ n && n ≤ 0xD7FF) ||
    (0xE000 ≤ n && n ≤ 0xFFFD && n ≠ 0xFEFF) || 0x10000 ≤ n

/-- The characters between the ends of lines. A carriage return and the line feed behind
it end one line. -/
def breakLines : List Char → List (List Char)
  | [] => [[]]
  | '\r' :: '\n' :: r => [] :: breakLines r
  | c :: r =>
      if isBreak c then [] :: breakLines r
      else
        match breakLines r with
        | [] => [[c]]
        | l :: ls => (c :: l) :: ls

/-- Whether nothing more is said on a line: a remark does not count. -/
def isDone (cs : List Char) : Bool :=
  (cs.dropWhile isSpace).head?.all (· = '#')

/-- Whether a word ends before these characters. -/
def startsBlank (cs : List Char) : Bool :=
  cs.head?.all isSpace

/-- What a line of a document is. -/
inductive Line where
  /-- Nothing, or a remark. -/
  | empty
  /-- Three dashes, and what follows them. -/
  | start (rest : List Char)
  /-- Three points, and what follows them. -/
  | stop (rest : List Char)
  /-- The column of the first character that is not a blank, and the characters from it on. -/
  | content (column : Nat) (text : List Char)
  /-- A line whose content is moved by a tab. -/
  | tabbed
  deriving DecidableEq, Repr

/-- The kind of a line whose characters from the given column on are given. -/
def Line.atColumn (column : Nat) : List Char → Line
  | [] => .empty
  | '#' :: _ => .empty
  | '\t' :: _ => .tabbed
  | '-' :: '-' :: '-' :: r =>
      if column = 0 && startsBlank r then .start r else .content column ('-' :: '-' :: '-' :: r)
  | '.' :: '.' :: '.' :: r =>
      if column = 0 && startsBlank r then .stop r else .content column ('.' :: '.' :: '.' :: r)
  | cs => .content column cs

/-- The kind of a line. -/
def Line.ofChars (cs : List Char) : Line :=
  .atColumn (cs.takeWhile (· = ' ')).length (cs.dropWhile (· = ' '))

@[simp] theorem Line.ofChars_nil : Line.ofChars [] = .empty := rfl

/-- A remark says nothing, however far it is moved to the right. -/
theorem Line.ofChars_remark (n : Nat) (r : List Char) :
    Line.ofChars (List.replicate n ' ' ++ '#' :: r) = .empty := by
  have h : (List.replicate n ' ' ++ '#' :: r).dropWhile (· = ' ') = '#' :: r := by
    induction n with
    | zero => simp
    | succ n ih => simp [List.replicate_succ]
  simp [Line.ofChars, h, Line.atColumn]

/-- A line of blanks says nothing. -/
theorem Line.ofChars_blanks (n : Nat) : Line.ofChars (List.replicate n ' ') = .empty := by
  have h : (List.replicate n ' ').dropWhile (· = ' ') = [] := by
    induction n with
    | zero => rfl
    | succ n ih => simp [List.replicate_succ]
  simp [Line.ofChars, h, Line.atColumn]

/-- A line feed ends a line. -/
theorem breakLines_append {cs : List Char} (h : ∀ c ∈ cs, isBreak c = false) (r : List Char) :
    breakLines (cs ++ '\n' :: r) = cs :: breakLines r := by
  induction cs with
  | nil => simp [breakLines, isBreak]
  | cons c s ih =>
      have hc : isBreak c = false := h c (by simp)
      have hs := ih fun d hd => h d (by simp [hd])
      rw [List.cons_append, breakLines]
      · simp [hc, hs]
      · intro t ht _
        simp [ht, isBreak] at hc

end Document

end Conductor
