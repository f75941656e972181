import Conductor.Launch.Activation

/-!
# Dispatch

Events are dispatched one at a time in the order in which they were queued. The
handlers that match an event are found first, then their bodies are activated in the
order of registration, all before the next event is taken. After its handlers a
request for a shutdown begins the shutdown and the end of a process releases it.

A request that comes when a shutdown has begun is ignored.
-/

namespace Conductor

/-- Why a launch came to no regular end. -/
inductive Halt where
  /-- The end of the grace period lies beyond every point in time; the lines are those
  shown so far. -/
  | noDeadline (shown : List OutputLine)
  /-- The bound on the number of steps was reached. -/
  | exhausted
  deriving DecidableEq, Repr

namespace Launch

/-- Activate what a handler has yielded, or report its failure. -/
def activateResponse (id : Nat) (r : Response) (l : Launch) : Launch :=
  match r.yield with
  | .actions as => activateBody (.handler id) as r.scope l
  | .interrupt => activateBody (.handler id) [] r.scope l.interrupt
  | .failure e => l.report (.handler r.handler e.message)

/-- Let a handler answer an event, as the given writer of the turn. -/
def answer (e : Event) (l : Launch) (writer id : Nat) : Launch :=
  match l.registry.respond id e l.context with
  | none => l
  | some (r, registry) =>
      activateResponse id r { l with registry, context := l.context.setWriter writer }

/-- Let handlers answer an event one after the other, from the given writer on. -/
def answerAll (e : Event) : Nat → List Nat → Launch → Launch
  | _, [], l => l
  | writer, id :: rest, l => answerAll e (writer + 1) rest (l.answer e writer id)

/-- Begin the turn of an event: every handler sees it. Gives the handlers that answer. -/
def openTurn (e : Event) (l : Launch) : List Nat × Launch :=
  let (ids, registry) := l.registry.matching e
  (ids, { l with registry, context := l.context.beginTurn e })

/-- End the turn of an event. -/
def closeTurn (e : Event) (l : Launch) : Launch :=
  { l with context := l.context.endTurn }.happen (.turnEnded e)

/-- The turn of the handlers of an event. -/
def turn (e : Event) (l : Launch) : Launch :=
  let (ids, l) := l.openTurn e
  (answerAll e 0 ids l).closeTurn e

/-- The timers that a shutdown cancels. -/
def cancelledByShutdown (l : Launch) : List Nat :=
  (l.timers.filter fun _ t => t.cancelOnShutdown).keys

/-- Begin the shutdown: cancel timers and ask the living processes to end. -/
def beginShutdown (l : Launch) (reason : String) : Except Halt Launch :=
  let l := { l with context := { l.context with shuttingDown := true } }
  match l.config.deadline? l.now with
  | none => .error (.noDeadline l.supervisor.shown)
  | some deadline =>
      let l := { l with shutdown := some ⟨reason, deadline⟩ }.happen (.shutdownBegan reason)
      let l := l.cancelTimers "cancelled by shutdown" l.cancelledByShutdown
      .ok (l.signalLive .terminate)

/-- Start the process of an action again, now or after its delay. -/
def respawn (l : Launch) (p : RunningProcess) : Launch :=
  match p.action.deed with
  | .execute process _ =>
      match process.respawn with
      | none => l
      | some seconds =>
          if l.context.shuttingDown then l
          else
            let delay := (Duration.ofSeconds? seconds).getD .zero
            if delay.isZero then
              activateBody (.respawn p.info.id) [p.action] (some p.scope) l
            else l.schedule delay [p.action] p.scope none true
  | _ => l

/-- Release a process whose end has been dispatched, and start it again if it asks for it. -/
def finishProcess (l : Launch) (id : ProcessId) : Launch :=
  match l.processes.get? id.number with
  | none => l
  | some p => (l.releaseProcess id).respawn p

/-- What follows the handlers of an event. -/
def afterTurn (l : Launch) : Event → Except Halt Launch
  | .shutdownRequested reason _ => l.beginShutdown reason
  | .processExited p _ => .ok (l.finishProcess p.id)
  | _ => .ok l

def dispatch (l : Launch) (e : Event) : Except Halt Launch :=
  if e.isShutdownRequest && l.shutdown.isSome then .ok (l.happen (.ignored e))
  else ((l.happen (.dispatched e)).turn e).afterTurn e

/-- Dispatch the waiting events until none is left; the first argument bounds their number. -/
def drain : Nat → Launch → Except Halt Launch
  | n, l =>
      match l.context.next? with
      | none => .ok l
      | some (e, context) =>
          match n with
          | 0 => .error .exhausted
          | n + 1 =>
              match dispatch { l with context } e with
              | .error h => .error h
              | .ok l => drain n l

end Launch

end Conductor
