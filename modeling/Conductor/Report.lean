import Conductor.Launch.Run

/-!
# Reports

The report of a launch that has ended: the journal, and those parts of the history
that matter to whoever started it.
-/

namespace Conductor

inductive TimelineEntry where
  /-- An event was dispatched. -/
  | event (name : String) (process : Option String)
  /-- A log action wrote a line. -/
  | line (text : String)
  deriving DecidableEq, Repr

/-- A failure that was reported. -/
structure ReportedError where
  kind : String
  message : String
  deriving DecidableEq, Repr

/-- The lines kept of a process. -/
structure CapturedOutput where
  process : String
  pid : Nat
  lines : List OutputLine
  deriving DecidableEq, Repr

/-- What is left of a launch when it has ended. -/
structure Report where
  records : List Record
  timeline : List TimelineEntry
  errors : List ReportedError
  shutdownReason : Option String
  fatal : Option String
  forced : Bool
  unusedArguments : List String
  signalsSent : Nat
  captured : List CapturedOutput
  deriving DecidableEq

namespace Occurrence

/-- The place of an occurrence in the timeline. -/
def timelineEntry? : Occurrence → Option TimelineEntry
  | .line _ text => some (.line text)
  | .dispatched e => some (.event e.name (e.process?.map (·.name)))
  | _ => none

def error? : Occurrence → Option ReportedError
  | .failed kind message => some ⟨kind, message⟩
  | _ => none

/-- The lines of a process that wrote some. -/
def captured? : Occurrence → Option CapturedOutput
  | .released h => if h.captured.isEmpty then none else some ⟨h.name, h.pid, h.captured⟩
  | _ => none

end Occurrence

namespace Launch

/-- Everything that happened, oldest first. -/
def occurrences (l : Launch) : List Occurrence :=
  l.history.reverse

def timeline (l : Launch) : List TimelineEntry :=
  l.occurrences.filterMap Occurrence.timelineEntry?

def errors (l : Launch) : List ReportedError :=
  l.occurrences.filterMap Occurrence.error?

def captured (l : Launch) : List CapturedOutput :=
  l.occurrences.filterMap Occurrence.captured?

/-- The report of a launch that has ended; timers still pending are cancelled. -/
def finish (l : Launch) : Report :=
  let l := l.cancelTimers "launch finished" l.timers.keys
  { records := l.journal.records.toList
    timeline := l.timeline
    errors := l.errors
    shutdownReason := l.shutdown.map (·.reason)
    fatal := l.fatal
    forced := l.forced
    unusedArguments := l.context.unused
    signalsSent := l.supervisor.signalsSent
    captured := l.captured }

end Launch

namespace Report

/-- One for a launch that failed fast or had to kill, else zero. -/
def exitCode (r : Report) : Nat :=
  if r.fatal.isSome || r.forced then 1 else 0

/-- The lines that log actions wrote. -/
def logLines (r : Report) : List String :=
  r.timeline.filterMap fun | .line t => some t | _ => none

/-- The names of the events that were dispatched. -/
def eventNames (r : Report) : List String :=
  r.timeline.filterMap fun | .event n _ => some n | _ => none

/-- The records of actions of a kind. -/
def recordsOf (r : Report) (kind : String) : List Record :=
  r.records.filter (·.kind = kind)

def recordsFor (r : Report) (a : ActionId) : List Record :=
  r.records.filter (·.action = a)

/-- The records of failed activations. -/
def failures (r : Report) : List Record :=
  r.records.filter (·.stage.failure?.isSome)

/-- The lines kept of all processes of a name. -/
def capturedLines (r : Report) (process : String) : List String :=
  (r.captured.filter (·.process = process)).flatMap fun c => c.lines.map (·.2)

/-- Place in the timeline of the first entry that satisfies a test. -/
def position? (r : Report) (p : TimelineEntry → Bool) : Option Nat :=
  r.timeline.findIdx? p

end Report

end Conductor
