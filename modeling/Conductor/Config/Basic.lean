import Conductor.Binary64.Shortest
import Conductor.Context
import Conductor.Duration
import Conductor.Process.Status

/-!
# Configuration of a launch

A configuration says how long processes may take to end, what the first failure does,
who wins when handlers write the same variable, and where output goes.
-/

namespace Conductor

/-- What a failure does to the rest of the launch. -/
inductive FailurePolicy where
  /-- The launch goes on. -/
  | goOn
  /-- The first failure shuts the launch down. -/
  | failFast
  deriving DecidableEq, Repr, Inhabited

namespace FailurePolicy

def name : FailurePolicy → String
  | .goOn => "continue"
  | .failFast => "fail_fast"

def ofName? (s : String) : Option FailurePolicy :=
  if s = "continue" then some .goOn
  else if s = "fail_fast" then some .failFast
  else none

@[simp] theorem ofName?_name (p : FailurePolicy) : ofName? p.name = some p := by
  cases p <;> decide

end FailurePolicy

/-- The configuration of a launch. -/
structure Config where
  /-- Seconds between the request to end and the kill. -/
  graceSeconds : Binary64
  failurePolicy : FailurePolicy
  writePolicy : WritePolicy
  allowRedeclare : Bool
  /-- Whether an interrupt from the keyboard shuts the launch down. -/
  handleSignals : Bool
  /-- Where the output of a process goes whose action does not say. -/
  defaultOutput : OutputMode
  deriving DecidableEq

namespace Config

/-- What holds where nothing is said. -/
def standard : Config where
  graceSeconds := Binary64.ofNat 5
  failurePolicy := .goOn
  writePolicy := .lastWins
  allowRedeclare := false
  handleSignals := true
  defaultOutput := .log

instance : Inhabited Config := ⟨standard⟩

/-- The grace period. A number that is negative or not finite means none at all; a
number of seconds beyond what a duration holds has no grace period. -/
def grace? (c : Config) : Option Duration :=
  if c.graceSeconds.isFinite && c.graceSeconds.isPositive then Duration.ofSeconds? c.graceSeconds
  else some .zero

/-- The seconds that a point in time can count. -/
def lastSecond : Nat := Nat.pow 2 63

/-- When the grace period of a shutdown ends that begins now; nothing when there is no
such point in time. -/
def deadline? (c : Config) (now : Duration) : Option Duration :=
  match c.grace? with
  | none => none
  | some grace =>
      let due : Duration := ⟨now.nanos + grace.nanos⟩
      if due.seconds < lastSecond then some due else none

/-- Numbers in messages are written without a power of ten. -/
def plainLayout : DecimalLayout where
  lowest := none
  highest := none
  wholeSuffix := ""
  exponentSign := ""
  infinity := "inf"
  undefined := "NaN"

/-- How bad a finding is. -/
inductive Level where
  | warning
  | error
  deriving DecidableEq, Repr

namespace Level

def name : Level → String
  | .warning => "warning"
  | .error => "error"

end Level

/-- What is wrong or odd about a configuration. -/
inductive Finding where
  /-- The grace period is negative or not finite. -/
  | badGrace (seconds : Binary64)
  | noGrace
  | longGrace (seconds : Binary64)
  | signalsOff
  deriving DecidableEq

namespace Finding

def level : Finding → Level
  | .badGrace _ => .error
  | _ => .warning

def message : Finding → String
  | .badGrace x => "grace_period_secs must be a non-negative number, got " ++ plainLayout.write x
  | .noGrace => "grace_period_secs is 0: processes are killed without a chance to exit"
  | .longGrace x => "grace_period_secs=" ++ plainLayout.write x ++ " (>300 is unusual)"
  | .signalsOff => "handle_signals is off: Ctrl-C will not shut child processes down"

end Finding

/-- What there is to say about the grace period. -/
def checkGrace (x : Binary64) : List Finding :=
  if !x.isFinite || x.isBelowZero then [.badGrace x]
  else if x.isZero then [.noGrace]
  else if x.exceeds 300 then [.longGrace x]
  else []

/-- Everything that is wrong or odd about a configuration. -/
def check (c : Config) : List Finding :=
  checkGrace c.graceSeconds ++ if c.handleSignals then [] else [.signalsOff]

end Config

end Conductor
