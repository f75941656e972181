import Conductor.Json.Basic

/-!
# How processes are named and how they end

A process has a number of its own that is never used again, writes lines to two
streams, and ends with a code or by a signal.
-/

namespace Conductor

/-- The number of a process within one supervisor. -/
structure ProcessId where
  number : Nat
  deriving DecidableEq, Repr, Inhabited

namespace ProcessId

def text (p : ProcessId) : String :=
  "proc-" ++ toString p.number

end ProcessId

/-- One of the two streams a process writes to. -/
inductive OutputStream where
  | stdout
  | stderr
  deriving DecidableEq, Repr

namespace OutputStream

def name : OutputStream → String
  | .stdout => "stdout"
  | .stderr => "stderr"

def ofName? (s : String) : Option OutputStream :=
  if s = "stdout" then some .stdout
  else if s = "stderr" then some .stderr
  else none

@[simp] theorem ofName?_name (s : OutputStream) : ofName? s.name = some s := by
  cases s <;> decide

end OutputStream

/-- Where the lines of a process go. -/
inductive OutputMode where
  /-- To the program's own log. -/
  | log
  /-- To the program's own output, each line after the name of the process. -/
  | screen
  /-- Into the report. -/
  | capture
  /-- Nowhere; the process does not even get pipes. -/
  | discard
  deriving DecidableEq, Repr, Inhabited

namespace OutputMode

def name : OutputMode → String
  | .log => "log"
  | .screen => "screen"
  | .capture => "capture"
  | .discard => "discard"

def ofName? (s : String) : Option OutputMode :=
  if s = "log" then some .log
  else if s = "screen" then some .screen
  else if s = "capture" then some .capture
  else if s = "discard" then some .discard
  else none

@[simp] theorem ofName?_name (m : OutputMode) : ofName? m.name = some m := by
  cases m <;> decide

end OutputMode

/-- What a supervisor sends to a process. -/
inductive Signal where
  /-- A request to end. -/
  | terminate
  /-- An end that cannot be refused. -/
  | kill
  deriving DecidableEq, Repr

namespace Signal

def number : Signal → Nat
  | .terminate => 15
  | .kill => 9

end Signal

/-- How a process ended. -/
structure ExitStatus where
  code : Option Int
  signal : Option Int
  deriving DecidableEq, Repr, Inhabited

namespace ExitStatus

/-- The end by returning a code. -/
def ofCode (n : Int) : ExitStatus :=
  ⟨some n, none⟩

/-- The end by a signal. -/
def ofSignal (n : Int) : ExitStatus :=
  ⟨none, some n⟩

/-- Success is the code zero. -/
def success (s : ExitStatus) : Bool :=
  s.code = some 0

/-- The text shown for an end. -/
def text (s : ExitStatus) : String :=
  match s.code, s.signal with
  | some c, _ => "exit code " ++ toString c
  | none, some n => "signal " ++ toString n
  | none, none => "unknown status"

end ExitStatus

end Conductor
