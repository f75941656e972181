import Conductor.Config.Basic
import Conductor.Handler.Registry
import Conductor.Journal
import Conductor.Supervisor

/-!
# The state of a launch

A launch is one value: the context, the registry of handlers, the supervisor, the
journal, the pending timers and what is known of the shutdown. Whatever happens is
also put on its history; the timeline, the errors and the captured output that a
launch reports are parts of that history.

The operations of this module are the only ones that change a launch; activation,
dispatch and the handling of messages are put together from them.
-/

namespace Conductor

/-- What reaches a launch from the background. -/
inductive Message where
  | notice (n : Notice)
  | timerFired (id : Nat)
  | interrupt
  /-- The grace period of the shutdown is over. -/
  | graceElapsed
  deriving DecidableEq, Repr

/-- What set off the activation of a body. -/
inductive BodyCause where
  | handler (id : Nat)
  | timer (id : Nat)
  | respawn (process : ProcessId)
  deriving DecidableEq, Repr

/-- What a launch keeps of a process until its end has been dispatched. -/
structure RunningProcess where
  /-- The record of its activation. -/
  record : Nat
  info : ProcessInfo
  action : Action
  /-- The bindings when it was started. -/
  scope : Scope

/-- Actions that are activated later. -/
structure Timer where
  /-- The record of a timer action; the wait before a respawn has none. -/
  record : Option Nat
  actions : List Action
  /-- The bindings when the timer was scheduled. -/
  scope : Scope
  cancelOnShutdown : Bool
  due : Duration

/-- How an activation came out. -/
inductive Outcome where
  | completed
  | running
  | skipped
  | failed (escalates : Bool) (reason : String)
  deriving DecidableEq, Repr

/-- Something that happened during a launch. -/
inductive Occurrence where
  /-- A message came from the background. -/
  | received (message : Message)
  /-- The activation of an action began, under the number of its record. -/
  | entered (record : Nat) (action : Action)
  /-- The activation of a record is over. -/
  | left (record : Nat) (outcome : Outcome)
  /-- A log action wrote a line. -/
  | line (level : LogLevel) (text : String)
  | emitted (event : Event)
  | dispatched (event : Event)
  /-- All handlers that an event has were asked. -/
  | turnEnded (event : Event)
  /-- A request for a shutdown came when one had begun. -/
  | ignored (event : Event)
  | failed (kind message : String)
  | started (id : ProcessId) (spec : ProcessSpec)
  /-- What is needed when a process ends was kept; what is to follow its end stands in the
  registry under the number `handler`, if anything is. -/
  | kept (process : RunningProcess) (handler : Option Nat)
  /-- The handlers of a name were removed. -/
  | unregistered (name : String)
  | scheduled (id : Nat) (timer : Timer)
  | fired (timer : Nat)
  | cancelled (timer : Nat)
  | signalled (id : ProcessId) (signal : Signal)
  /-- A function asked for an interrupt, which is still to arrive. -/
  | interrupted
  /-- A process was released with the lines kept for the report. -/
  | released (handle : ProcessHandle)
  | began (cause : BodyCause) (actions : List Action) (scope : Option Scope)
  | shutdownBegan (reason : String)

/-- A shutdown that has begun. -/
structure Shutdown where
  reason : String
  /-- When the processes that are left are killed. -/
  deadline : Duration
  deriving DecidableEq, Repr

/-- The state of a launch. -/
structure Launch where
  config : Config
  /-- The time of the message being handled. -/
  now : Duration
  context : Context
  registry : Registry
  supervisor : Supervisor
  journal : Journal
  processes : Table Nat RunningProcess
  /-- Number of attempts to start a process, for names. -/
  attempts : Nat
  timers : Table Nat Timer
  nextTimer : Nat
  /-- The timers scheduled inside each group being activated, innermost group first. -/
  groupTimers : List (List Nat)
  shutdown : Option Shutdown
  /-- The failure that a fail-fast launch stopped for. -/
  fatal : Option String
  /-- Whether processes had to be killed. -/
  forced : Bool
  /-- Everything that happened, latest first. -/
  history : List Occurrence

/-- How far a deed is done when it has been performed. -/
inductive Step where
  | done
  /-- It goes on in the background. -/
  | running
  deriving DecidableEq, Repr

namespace Launch

/-- A launch on a machine before anything is activated. -/
def start (config : Config) (host : Host) (args : LaunchArguments) : Launch where
  config := config
  now := .zero
  context :=
    { Context.start host with
      allowRedeclare := config.allowRedeclare
      writePolicy := config.writePolicy }.passAll args
  registry := .empty
  supervisor := .start
  journal := .empty
  processes := .empty
  attempts := 0
  timers := .empty
  nextTimer := 1
  groupTimers := []
  shutdown := none
  fatal := none
  forced := false
  history := []

/-! ## History, journal and events -/

/-- Put something on the history. -/
def happen (l : Launch) (o : Occurrence) : Launch :=
  { l with history := o :: l.history }

/-- Open a record; gives its number. -/
def enter (l : Launch) (a : Action) : Nat × Launch :=
  let (seq, journal) := l.journal.enter a
  (seq, { l with journal }.happen (.entered seq a))

def advance (l : Launch) (seq : Nat) (stage : Stage) : Launch :=
  { l with journal := l.journal.advance seq stage }

def note (l : Launch) (seq : Nat) (text : String) : Launch :=
  { l with journal := l.journal.note seq text }

/-- Record actions that are not even looked at. -/
def skipAll (l : Launch) (as : List Action) (why : String) : Launch :=
  { l with journal := as.foldl (fun j a => j.skip a why) l.journal }

/-- Queue an event. -/
def emit (l : Launch) (e : Event) : Launch :=
  { l with context := l.context.emit e }.happen (.emitted e)

/-- A function asks for an interrupt. It reaches the launch later, as a message. -/
def interrupt (l : Launch) : Launch :=
  l.happen .interrupted

/-! ## Shutdown and failures -/

/-- Ask for a shutdown; false when one was asked for before. -/
def requestShutdown (l : Launch) (reason : String) (dueToSignal : Bool) : Bool × Launch :=
  if l.context.shuttingDown then (false, l)
  else
    (true,
      { l with context := { l.context with shuttingDown := true } }.emit
        (.shutdownRequested reason dueToSignal))

/-- Under the fail-fast policy the first failure is fatal and shuts the launch down. -/
def onFailure (l : Launch) (reason : String) : Launch :=
  if l.config.failurePolicy = .failFast ∧ l.fatal = none then
    ({ l with fatal := some reason }.requestShutdown ("fail-fast: " ++ reason) false).2
  else l

/-- Report an error that belongs to no record. -/
def report (l : Launch) (e : LaunchError) : Launch :=
  (l.happen (.failed e.kind e.message)).onFailure e.message

/-- Report the error of an activation and close its record. -/
def fail (l : Launch) (seq : Nat) (d : Deed) (e : LaunchError) : Launch × Outcome :=
  (((l.happen (.failed e.kind e.message)).advance seq (.failed e.message)).onFailure e.message,
    .failed d.escalates e.message)

/-! ## Scopes of groups and bodies -/

/-- Do something under a further scope, which is left afterwards. -/
def under {α : Type} (l : Launch) (scope : Scope) (f : Launch → Launch × α) : Launch × α :=
  let depth := l.context.depth
  let (l, a) := f { l with context := l.context.push scope }
  ({ l with context := l.context.restore depth }, a)

/-! ## Timers -/

/-- Schedule actions; the innermost group being activated owns the timer. -/
def schedule (l : Launch) (delay : Duration) (actions : List Action) (scope : Scope)
    (record : Option Nat) (cancelOnShutdown : Bool) : Launch :=
  let id := l.nextTimer
  let timer : Timer := ⟨record, actions, scope, cancelOnShutdown, ⟨l.now.nanos + delay.nanos⟩⟩
  { l with
    nextTimer := id + 1
    timers := l.timers.insert id timer
    groupTimers :=
      match l.groupTimers with
      | [] => []
      | own :: outer => (own ++ [id]) :: outer }.happen (.scheduled id timer)

/-- Take a pending timer away; its record is completed and says why. -/
def cancelTimer (l : Launch) (why : String) (id : Nat) : Launch :=
  match l.timers.get? id with
  | none => l
  | some t =>
      let l := { l with timers := l.timers.erase id }.happen (.cancelled id)
      match t.record with
      | none => l
      | some seq => (l.note seq why).advance seq .completed

def cancelTimers (l : Launch) (why : String) (ids : List Nat) : Launch :=
  ids.foldl (fun l id => l.cancelTimer why id) l

/-- Begin a group: it owns the timers scheduled from now on. -/
def beginGroup (l : Launch) : Launch :=
  { l with groupTimers := [] :: l.groupTimers }

/-- End a group. When it went well its timers go to the group around it; when it failed
they are cancelled. -/
def endGroup (l : Launch) (failure : Option LaunchError) : Launch :=
  match l.groupTimers with
  | [] => l
  | own :: outer =>
      match failure with
      | none =>
          { l with
            groupTimers :=
              match outer with
              | [] => []
              | next :: rest => (next ++ own) :: rest }
      | some _ => { l with groupTimers := outer }.cancelTimers "owning group failed" own

/-! ## Processes -/

/-- Start a process; it may fail. -/
def startProcess (l : Launch) (spec : ProcessSpec) :
    Except SupervisorError ProcessHandle × Launch :=
  match l.supervisor.spawn l.context.host spec with
  | (.ok h, supervisor) => (.ok h, { l with supervisor }.happen (.started h.id spec))
  | (.error e, supervisor) => (.error e, { l with supervisor })

/-- Keep what is needed when the process ends. -/
def keepProcess (l : Launch) (p : RunningProcess) (handler : Option Nat) : Launch :=
  { l with processes := l.processes.insert p.info.id.number p }.happen (.kept p handler)

/-- Give up a process whose end has been dispatched. Its handle stays while it is alive. -/
def releaseProcess (l : Launch) (id : ProcessId) : Launch :=
  let l := { l with processes := l.processes.erase id.number }
  match l.supervisor.release? id with
  | none => l
  | some (h, supervisor) => { l with supervisor }.happen (.released h)

/-- Send a signal to a process; what goes wrong is reported. -/
def sendSignal (l : Launch) (signal : Signal) (id : ProcessId) : Launch :=
  match l.supervisor.send l.context.host id signal with
  | (.ok true, supervisor) => { l with supervisor }.happen (.signalled id signal)
  | (.ok false, supervisor) => { l with supervisor }
  | (.error e, supervisor) => { l with supervisor }.report (.supervision e.message)

/-- Send a signal to every living process. -/
def signalLive (l : Launch) (signal : Signal) : Launch :=
  l.supervisor.live.foldl (fun l id => l.sendSignal signal id) l

/-- Kill the processes that are left, if any. -/
def killRemaining (l : Launch) : Launch :=
  if l.supervisor.live.isEmpty then l else { l with forced := true }.signalLive .kill

end Launch

end Conductor
