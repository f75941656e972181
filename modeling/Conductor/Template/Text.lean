import Conductor.Template.Basic

/-!
# The written form of templates

In the written form `$name` and `${name}` stand for variables and `$$` for a dollar
sign; everything else stands for itself. Inside braces a name may also hold points
and hyphens. A dollar sign that begins neither a name nor a pair stands for itself.

Reading is done in two steps: `scan` cuts the characters into pieces and `gather`
joins neighbouring literal characters into one fragment.
-/

namespace Conductor

/-- A letter or the underscore, of ASCII. -/
def isNameStart (c : Char) : Bool :=
  c.isAlpha || c = '_'

/-- A character after the first of a name. -/
def isNameChar (c : Char) : Bool :=
  c.isAlphanum || c = '_'

/-- A character after the first of a name in braces. -/
def isBracedNameChar (c : Char) : Bool :=
  isNameChar c || c = '.' || c = '-'

/-- A name that may stand in braces. -/
def IsVariableName (n : String) : Prop :=
  ∃ c r, n.toList = c :: r ∧ isNameStart c = true ∧ ∀ d ∈ r, isBracedNameChar d = true

namespace Template

/-- A literal character or a reference to a variable. -/
inductive Piece where
  | char (c : Char)
  | reference (name : List Char)
  deriving DecidableEq, Repr

/-- What a dollar sign begins, given the characters after it. -/
def afterDollar? : List Char → Option (Piece × List Char)
  | '$' :: r => some (.char '$', r)
  | '\x7b' :: c :: r =>
      if isNameStart c then
        match r.dropWhile isBracedNameChar with
        | '\x7d' :: rest => some (.reference (c :: r.takeWhile isBracedNameChar), rest)
        | _ => none
      else none
  | c :: r =>
      if isNameStart c then
        some (.reference (c :: r.takeWhile isNameChar), r.dropWhile isNameChar)
      else none
  | [] => none

theorem length_dropWhile_le (p : Char → Bool) (cs : List Char) :
    (cs.dropWhile p).length ≤ cs.length :=
  (List.dropWhile_sublist p).length_le

/-- What follows a reference is shorter than what follows its dollar sign. -/
theorem length_of_afterDollar? {cs rest : List Char} {p : Piece}
    (h : afterDollar? cs = some (p, rest)) : rest.length < cs.length := by
  unfold afterDollar? at h
  split at h
  · simp only [Option.some.injEq, Prod.mk.injEq] at h
    simp [← h.2]
  · rename_i c r
    split at h
    · split at h
      · rename_i rest' hr
        simp only [Option.some.injEq, Prod.mk.injEq] at h
        have := length_dropWhile_le isBracedNameChar r
        rw [hr, h.2] at this
        simp only [List.length_cons] at this ⊢
        omega
      · simp at h
    · simp at h
  · rename_i c r _ _
    split at h
    · simp only [Option.some.injEq, Prod.mk.injEq] at h
      have := length_dropWhile_le isNameChar r
      simp only [← h.2, List.length_cons]
      omega
    · simp at h
  · simp at h

/-- The pieces of a text. -/
def scan : List Char → List Piece
  | [] => []
  | c :: r =>
      if c = '$' then
        match _found : afterDollar? r with
        | some (p, rest) => p :: scan rest
        | none => .char '$' :: scan r
      else .char c :: scan r
  termination_by cs => cs.length
  decreasing_by
    · have := length_of_afterDollar? _found
      simp only [List.length_cons]
      omega
    · simp
    · simp

/-- A fragment of literal text, left out when there is none. -/
def flush (literal : List Char) : Template :=
  if literal.isEmpty then [] else [.text (String.ofList literal)]

/-- The fragments of the pieces; `literal` holds the literal characters before them. -/
def gather (literal : List Char) : List Piece → Template
  | [] => flush literal
  | .char c :: r => gather (literal ++ [c]) r
  | .reference n :: r => flush literal ++ .var (String.ofList n) :: gather [] r

/-- The template that a text spells. The empty text spells one empty fragment. -/
def parse (s : String) : Template :=
  match gather [] (scan s.toList) with
  | [] => [.text ""]
  | t => t

/-- Literal text in the written form, each dollar sign doubled. -/
def escapeDollars (s : String) : String :=
  String.ofList (s.toList.flatMap fun c => if c = '$' then ['$', '$'] else [c])

end Template

mutual

/-- The written form of a fragment. -/
def Fragment.display : Fragment → String
  | .text t => Template.escapeDollars t
  | .var n => "$\x7b" ++ n ++ "\x7d"
  | .varOr n d => "$\x7b" ++ n ++ ":-" ++ Template.display d ++ "\x7d"
  | .env n => "$(env " ++ n ++ ")"
  | .envOr n _ => "$(env " ++ n ++ ")"
  | .command line => "$(command " ++ Template.display line ++ ")"
  | .concat parts => Template.display parts

/-- The written form of a template. -/
def Template.display : List Fragment → String
  | [] => ""
  | f :: r => Fragment.display f ++ Template.display r

end

end Conductor
