import Conductor.Text.Quoted

/-!
# Errors

Everything that can go wrong during a launch, each with the cause it carries.
`LaunchError.kind` is the stable tag under which the journal files an error and
`LaunchError.message` its text.
-/

namespace Conductor

/-- A refusal by the operating system. -/
inductive SystemFault where
  | notFound
  | permissionDenied
  | notADirectory
  | isADirectory
  | alreadyExists
  /-- A text was asked for and the bytes are not UTF-8. -/
  | notText
  /-- A fault that is known only by its text. -/
  | other (text : String)
  deriving DecidableEq, Repr

namespace SystemFault

/-- The wording of the operating system, with its number. -/
def message : SystemFault → String
  | .notFound => "No such file or directory (os error 2)"
  | .permissionDenied => "Permission denied (os error 13)"
  | .alreadyExists => "File exists (os error 17)"
  | .notADirectory => "Not a directory (os error 20)"
  | .isADirectory => "Is a directory (os error 21)"
  | .notText => "stream did not contain valid UTF-8"
  | .other text => text

end SystemFault

/-- Why a template could not be turned into text. -/
inductive Unresolved where
  | variableUnset (name : String)
  | environmentUnset (name : String)
  /-- A shell command that could not even be started. -/
  | commandNotStarted (line reason : String)
  /-- A shell command that ended without success. -/
  | commandFailed (line outcome complaint : String)
  /-- The text of a timer's period does not spell a number. -/
  | periodNotNumber (text : String)
  /-- The text of a timer's period spells a number that no duration holds. -/
  | periodOutOfRange (text : String)
  | other (text : String)
  deriving DecidableEq, Repr

namespace Unresolved

def message : Unresolved → String
  | .variableUnset n => s!"variable '{n}' is not set"
  | .environmentUnset n => s!"environment variable '{n}' is not set"
  | .commandNotStarted line reason => s!"command '{line}' failed to start: {reason}"
  | .commandFailed line outcome complaint =>
      s!"command '{line}' exited with {outcome}: {complaint}"
  | .periodNotNumber t => s!"timer period '{t}' is not a number"
  | .periodOutOfRange t => s!"timer period '{t}' must be a non-negative number of seconds"
  | .other t => t

end Unresolved

/-- Why a condition has no truth value. -/
inductive Undecided where
  /-- A template inside the condition could not be resolved. -/
  | unresolved (cause : Unresolved)
  | notBoolean (text : String)
  | other (text : String)
  deriving DecidableEq, Repr

namespace Undecided

def message : Undecided → String
  | .unresolved c => "substitution failed: " ++ c.message
  | .notBoolean t =>
      s!"'{t}' is not a boolean (expected true/false, 1/0, yes/no, on/off)"
  | .other t => t

end Undecided

/-- Anything that can go wrong during a launch. -/
inductive LaunchError where
  | duplicateArgument (name : String) (existing requested : Option String)
  | undeclaredVariable (name : String)
  | invalidArgument (name value : String) (choices : List String)
  | substitution (cause : Unresolved)
  | condition (cause : Undecided)
  | spawn (process reason : String)
  | supervision (text : String)
  | handler (handler reason : String)
  | includeFailed (source reason : String)
  | childFailed (child reason : String)
  | malformedArgument (text : String)
  | config (text : String)
  | system (fault : SystemFault)
  /-- A configuration document that could not be read or written. -/
  | document (text : String)
  deriving DecidableEq, Repr

namespace LaunchError

/-- The stable tag of an error. -/
def kind : LaunchError → String
  | .duplicateArgument .. => "duplicate_argument"
  | .undeclaredVariable _ => "undeclared_variable"
  | .invalidArgument .. => "invalid_argument_value"
  | .substitution _ => "substitution_resolution"
  | .condition _ => "condition_evaluation"
  | .spawn .. => "process_spawn"
  | .supervision _ => "process_supervision"
  | .handler .. => "handler"
  | .includeFailed .. => "include_failed"
  | .childFailed .. => "child_failed"
  | .malformedArgument _ => "malformed_argument"
  | .config _ => "config"
  | .system _ => "io"
  | .document _ => "yaml"

/-- The text of an error. -/
def message : LaunchError → String
  | .duplicateArgument n old new =>
      s!"argument '{n}' already declared with default {Text.quotedOption old}, " ++
        s!"redeclared with {Text.quotedOption new}"
  | .undeclaredVariable n => s!"undeclared variable: {n}"
  | .invalidArgument n v choices =>
      s!"invalid value '{v}' for argument '{n}': expected one of {Text.quotedList choices}"
  | .substitution c => "substitution failed: " ++ c.message
  | .condition c => "condition evaluation failed: " ++ c.message
  | .spawn p r => s!"failed to spawn process '{p}': {r}"
  | .supervision t => "process supervision error: " ++ t
  | .handler h r => s!"event handler '{h}' failed: {r}"
  | .includeFailed s r => s!"include '{s}' failed: {r}"
  | .childFailed c r => s!"child '{c}' failed: {r}"
  | .malformedArgument a => s!"malformed launch argument '{a}': expected name:=value"
  | .config t => "invalid config: " ++ t
  | .system f => f.message
  | .document t => t

end LaunchError

end Conductor
