import Conductor.Error
import Conductor.Text.Blank

/-!
# Templates

A template is a list of fragments: literal text, a variable, an environment
variable, the output of a shell command, or templates inside templates. It is
resolved to one text, fragment by fragment, when the action that holds it is
activated; the first fragment that cannot be resolved decides the error.

A template reads its surroundings only through the three questions of
`Surroundings`.
-/

namespace Conductor

/-- A part of a template. -/
inductive Fragment where
  /-- Literal text. -/
  | text (content : String)
  /-- The value of a variable, which must be set. -/
  | var (name : String)
  /-- The value of a variable, or what the default resolves to when it is not set. -/
  | varOr (name : String) (default : List Fragment)
  /-- An environment variable, which must be set. -/
  | env (name : String)
  /-- An environment variable, or what the default resolves to when it is not set. -/
  | envOr (name : String) (default : List Fragment)
  /-- What a shell command prints, without the blanks at the end. -/
  | command (line : List Fragment)
  /-- A template inside a template. -/
  | concat (parts : List Fragment)
  deriving Inhabited

/-- A list of fragments that is resolved to one text. -/
abbrev Template := List Fragment

/-- How a shell command ended. -/
inductive CommandEnd where
  | exited (code : Nat)
  | killed (signal : Nat) (name : String)
  deriving DecidableEq, Repr

namespace CommandEnd

/-- The wording of the operating system's process status. -/
def text : CommandEnd → String
  | .exited c => s!"exit status: {c}"
  | .killed n name => s!"signal: {n} ({name})"

end CommandEnd

/-- What came of a shell command. -/
inductive CommandOutcome where
  /-- It could not be started. -/
  | notStarted (reason : String)
  /-- It ran to its end. -/
  | ended (how : CommandEnd) (stdout stderr : String)
  deriving DecidableEq, Repr

/-- What a template may ask of the place where it is resolved. -/
structure Surroundings where
  /-- The text of a variable that is set. -/
  lookup : String → Option String
  /-- The value of an environment variable that is set. -/
  env : String → Option String
  /-- The outcome of a shell command. -/
  command : String → CommandOutcome

namespace CommandOutcome

/-- What a shell command contributes to a template. -/
def resolve (line : String) : CommandOutcome → Except Unresolved String
  | .notStarted reason => .error (.commandNotStarted line reason)
  | .ended (.exited 0) out _ => .ok (Text.trimRight out)
  | .ended how _ err => .error (.commandFailed line how.text (Text.trim err))

end CommandOutcome

mutual

/-- The text of a fragment. -/
def Fragment.resolve (s : Surroundings) : Fragment → Except Unresolved String
  | .text t => .ok t
  | .var n =>
      match s.lookup n with
      | some v => .ok v
      | none => .error (.variableUnset n)
  | .varOr n d =>
      match s.lookup n with
      | some v => .ok v
      | none => Template.resolve s d
  | .env n =>
      match s.env n with
      | some v => .ok v
      | none => .error (.environmentUnset n)
  | .envOr n d =>
      match s.env n with
      | some v => .ok v
      | none => Template.resolve s d
  | .command line =>
      match Template.resolve s line with
      | .ok l => (s.command l).resolve l
      | .error e => .error e
  | .concat parts => Template.resolve s parts

/-- The text of a template: the texts of its fragments in order. -/
def Template.resolve (s : Surroundings) : List Fragment → Except Unresolved String
  | [] => .ok ""
  | f :: r =>
      match Fragment.resolve s f with
      | .error e => .error e
      | .ok a =>
          match Template.resolve s r with
          | .error e => .error e
          | .ok b => .ok (a ++ b)

end

namespace Template

/-- A template that resolves to exactly this text. -/
def literal (text : String) : Template :=
  [.text text]

/-- The texts of several templates; the first that cannot be resolved decides. -/
def resolveAll (s : Surroundings) : List Template → Except Unresolved (List String)
  | [] => .ok []
  | t :: r =>
      match Template.resolve s t with
      | .error e => .error e
      | .ok a =>
          match resolveAll s r with
          | .error e => .error e
          | .ok b => .ok (a :: b)

@[simp] theorem resolve_nil (s : Surroundings) : Template.resolve s [] = .ok "" := by
  simp [Template.resolve]

@[simp] theorem resolve_literal (s : Surroundings) (text : String) :
    Template.resolve s (literal text) = .ok text := by
  simp [literal, Template.resolve, Fragment.resolve]

end Template

end Conductor
