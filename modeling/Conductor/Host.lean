import Conductor.Process.Spec
import Conductor.Template.Basic

/-!
# The machine a launch runs on

A launch sees the machine through the questions of `Host`: the environment the
launcher was given, shell commands, files, and the starting and signalling of
processes. Every answer is a function of the question, so a launch is a function
of its host and of the messages that reach it.
-/

namespace Conductor

/-- Why a process did not start. -/
inductive StartFault where
  /-- No program of this name was found. -/
  | notFound
  /-- The operating system refused. -/
  | refused (fault : SystemFault)
  deriving DecidableEq, Repr

/-- The machine a launch runs on. -/
structure Host where
  /-- The launcher's own environment. -/
  environment : Table String String
  /-- What comes of a line of shell commands. -/
  command : String → CommandOutcome
  /-- The text of a file. -/
  readFile : String → Except SystemFault String
  /-- Start a process; gives the number the operating system chose. -/
  start : ProcessId → ProcessSpec → Except StartFault Nat
  /-- Send a signal to a process; false when it has already ended. -/
  signal : ProcessId → Signal → Except SystemFault Bool

namespace Host

/-- A machine without environment, programs and files. -/
def bare : Host where
  environment := .empty
  command _ := .notStarted SystemFault.notFound.message
  readFile _ := .error .notFound
  start _ _ := .error .notFound
  signal _ _ := .ok false

instance : Inhabited Host := ⟨bare⟩

end Host

end Conductor
