import Conductor.Process.Path
import Conductor.Process.Status
import Conductor.Table
import Conductor.Error

/-!
# Descriptions of processes

A `ProcessSpec` says which program to run with which arguments, where, with which
environment and what becomes of its output. All templates have been resolved.
-/

namespace Conductor

/-- A process to be started. -/
structure ProcessSpec where
  /-- Shown in logs and events. -/
  name : String
  program : String
  arguments : List String
  /-- The directory to run in. -/
  directory : Option String := none
  /-- When given, the environment instead of the one inherited. -/
  replacement : Option (Table String String) := none
  /-- Variables set on top, later ones over earlier ones. -/
  additions : List (String × String) := []
  /-- Variables taken away before the additions. -/
  removals : List String := []
  output : OutputMode := .log

namespace ProcessSpec

/-- The program with its arguments. -/
def commandLine (p : ProcessSpec) : List String :=
  p.program :: p.arguments

/-- The process that a command line asks for; nothing for the empty one. -/
def ofCommandLine? (name : String) : List String → Option ProcessSpec
  | [] => none
  | program :: arguments => some { name, program, arguments }

/-- The process that runs a line of shell commands. -/
def ofShellLine (name line : String) : ProcessSpec :=
  { name, program := "sh", arguments := ["-c", line] }

/-- The environment handed to the process by a launcher with this environment. -/
def environment (p : ProcessSpec) (inherited : Table String String) : Table String String :=
  let start := p.replacement.getD inherited
  let less := p.removals.foldl (fun t n => t.erase n) start
  p.additions.foldl (fun t e => t.insert e.1 e.2) less

/-- Whether a program is given as a path and not as a bare name. -/
def isPath (program : String) : Bool :=
  program.toList.contains '/'

/-- The path under which a program is asked for: a path is taken from the directory
to run in, a bare name is looked up with `find?`. -/
def locate? (find? : String → Option String) (program : String) (directory : Option String) :
    Option String :=
  if isPath program then
    match directory with
    | some dir => some (Path.join dir program)
    | none => some program
  else find? program

/-- The file that the operating system is asked to execute, seen from the launcher's
directory `base`: the process enters its directory before the path is looked up. -/
def executable? (find? : String → Option String) (base : String) (p : ProcessSpec) :
    Option String :=
  (locate? find? p.program p.directory).map fun path =>
    Path.join (Path.join base (p.directory.getD "")) path

end ProcessSpec

/-- Why a supervisor could not do what it was asked to. -/
inductive SupervisorError where
  | executableNotFound (program : String)
  | spawn (program : String) (fault : SystemFault)
  | emptyCommand
  | unknownProcess (id : ProcessId)
  | signal (pid : Nat) (signal : Signal) (fault : SystemFault)
  deriving DecidableEq, Repr

namespace SupervisorError

/-- The stable tag of an error. -/
def kind : SupervisorError → String
  | .executableNotFound _ => "executable_not_found"
  | .spawn .. => "spawn"
  | .emptyCommand => "empty_command"
  | .unknownProcess _ => "unknown_process"
  | .signal .. => "signal"

/-- The text of an error. -/
def message : SupervisorError → String
  | .executableNotFound p => s!"executable not found: {p}"
  | .spawn p fault => s!"failed to spawn '{p}': {fault.message}"
  | .emptyCommand => "empty command line"
  | .unknownProcess id => s!"unknown process: {id.number}"
  | .signal pid s fault =>
      s!"failed to deliver signal {s.number} to pid {pid}: {fault.message}"

end SupervisorError

end Conductor
