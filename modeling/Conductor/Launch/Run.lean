import Conductor.Launch.Dispatch

/-!
# Running a launch

Everything that happens in the background reaches a launch as messages: notices of
processes, timers that fire, interrupts, and the end of the grace period. Between two
messages all waiting events are dispatched. A launch ends when nothing is left to wait
for, when the grace period is over, or when it is interrupted during a shutdown.
-/

namespace Conductor

/-- A message, and the time and the surroundings in which it arrives. -/
structure Arrival where
  time : Duration
  host : Host
  message : Message

/-- Where a launch stands between two messages. -/
inductive Standing where
  /-- It waits for a message. -/
  | waiting (l : Launch)
  | ended (l : Launch)

namespace Standing

def launch : Standing → Launch
  | .waiting l => l
  | .ended l => l

end Standing

namespace Launch

/-- Whether nothing is left to wait for. During a shutdown only the timers that outlive
it count. -/
def isIdle (l : Launch) : Bool :=
  l.context.pending.isEmpty && l.supervisor.live.isEmpty &&
    match l.shutdown with
    | none => l.timers.isEmpty
    | some _ => l.timers.values.all (·.cancelOnShutdown)

/-- Report why the manner of the end of a process is not known, if it is not. -/
def reportFault (l : Launch) (name : String) (fault : Option String) : Launch :=
  match fault with
  | none => l
  | some text => l.report (.supervision (name ++ ": " ++ text))

/-- A process has ended: close its record and tell the handlers. -/
def processEnded (l : Launch) (p : RunningProcess) (status : ExitStatus)
    (fault : Option String) : Launch :=
  (((l.reportFault p.info.name fault).note p.record status.text).advance p.record .completed).emit
    (.processExited p.info status)

/-- Take a notice in. -/
def onNotice (l : Launch) (n : Notice) : Launch :=
  match l.supervisor.absorb? n with
  | none => l
  | some supervisor =>
      let l := { l with supervisor }
      match l.processes.get? n.process.number with
      | none => l
      | some p =>
          match n with
          | .output _ stream line => l.emit (.processOutput p.info stream line)
          | .exited _ status fault => l.processEnded p status fault

/-- Take a timer away whose time has come; the event of a timer action is queued. -/
def elapse (l : Launch) (id : Nat) (t : Timer) : Launch :=
  let l := { l with timers := l.timers.erase id }.happen (.fired id)
  match t.record with
  | none => l
  | some seq => (l.advance seq .completed).emit (.timerElapsed id)

/-- Let a timer fire: its event is queued and its body activated. A timer that is not
pending does nothing. -/
def fireTimer (l : Launch) (id : Nat) : Launch :=
  match l.timers.get? id with
  | none => l
  | some t => activateBody (.timer id) t.actions (some t.scope) (l.elapse id t)

/-- Handle a message. The end of a grace period means nothing before the shutdown. -/
def handle (l : Launch) : Message → Standing
  | .notice n => .waiting (l.onNotice n)
  | .timerFired id => .waiting (l.fireTimer id)
  | .interrupt =>
      if l.context.shuttingDown then .ended l.killRemaining
      else .waiting (l.requestShutdown "interrupted" true).2
  | .graceElapsed =>
      if l.shutdown.isSome then .ended l.killRemaining else .waiting l

/-- Dispatch what waits and see whether the launch goes on. -/
def settleEvents (fuel : Nat) (l : Launch) : Except Halt Standing :=
  match drain fuel l with
  | .error h => .error h
  | .ok l => .ok (if l.isIdle then .ended l else .waiting l)

/-- A message arrives. -/
def arrive (l : Launch) (a : Arrival) : Launch :=
  { l with now := a.time, context := { l.context with host := a.host } }.happen
    (.received a.message)

/-- Handle a message where and when it arrives. -/
def receive (l : Launch) (a : Arrival) : Standing :=
  (l.arrive a).handle a.message

def run (fuel : Nat) : List Arrival → Launch → Except Halt Standing
  | as, l =>
      match settleEvents fuel l with
      | .error h => .error h
      | .ok (.ended l) => .ok (.ended l)
      | .ok (.waiting l) =>
          match as with
          | [] => .ok (.waiting l)
          | a :: as =>
              match l.receive a with
              | .ended l => .ok (.ended l)
              | .waiting l => run fuel as l

/-- A launch whose description has been activated. -/
def begin (config : Config) (host : Host) (args : LaunchArguments) (description : List Action) :
    Launch :=
  activateAll description (.start config host args)

end Launch

end Conductor
