import Conductor.Error
import Conductor.Text.Blank
import Conductor.Text.Split

/-!
# Launch arguments

A description declares the arguments it takes; the launcher passes values for them
as `name:=value` or `name=value`.
-/

namespace Conductor

/-- A declared argument. -/
structure Argument where
  name : String
  default : Option String := none
  description : Option String := none
  /-- The values allowed; none means any. -/
  choices : List String := []
  deriving DecidableEq, Repr, Inhabited

namespace Argument

/-- Whether the argument may have this value. -/
def allows (a : Argument) (value : String) : Bool :=
  a.choices.isEmpty || a.choices.contains value

end Argument

/-- Values passed to a launch, in order. -/
abbrev LaunchArguments := List (String × String)

namespace LaunchArguments

/-- The name and the value that a written argument gives. -/
def split? (text : String) : Option (String × String) :=
  match (Text.splitOnce ":=" text).or (Text.splitOnce "=" text) with
  | none => none
  | some (name, value) =>
      let name := Text.trim name
      if name.isEmpty then none else some (name, value)

/-- The arguments with `name` passed last, in place of an earlier value. -/
def pass (args : LaunchArguments) (name value : String) : LaunchArguments :=
  args.filter (·.1 ≠ name) ++ [(name, value)]

/-- Read written arguments after those already read. The first one that gives no name
and value is the error. -/
def readAfter (args : LaunchArguments) : List String → Except LaunchError LaunchArguments
  | [] => .ok args
  | text :: r =>
      match split? text with
      | none => .error (.malformedArgument text)
      | some (name, value) => readAfter (args.pass name value) r

/-- The arguments that the written ones pass; of one name the last counts. -/
def read (texts : List String) : Except LaunchError LaunchArguments :=
  readAfter [] texts

end LaunchArguments

end Conductor
