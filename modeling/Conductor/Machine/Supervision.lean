import Conductor.Machine.Simulation

/-!
# Supervision in virtual time

A supervisor on a machine, without a launch around it. Its owner starts and signals
processes, lets time pass, and takes in what happens to the processes only when it waits
for one of them to end.
-/

namespace Conductor

/-- A supervisor and the processes of its machine. -/
structure Supervision where
  supervisor : Supervisor
  processes : Processes
  /-- The notices taken in while waiting, latest first. -/
  taken : List Notice

namespace Supervision

/-- Nothing has been started yet. -/
def start (m : Machine) : Supervision :=
  ⟨.start, .start m, []⟩

/-- Start a process. -/
def spawn (s : Supervision) (spec : ProcessSpec) :
    Except SupervisorError ProcessHandle × Supervision :=
  match s.supervisor.spawn s.processes.host spec with
  | (.ok h, supervisor) =>
      (.ok h, { s with supervisor, processes := s.processes.add h.id spec })
  | (.error e, supervisor) => (.error e, { s with supervisor })

def send (s : Supervision) (id : ProcessId) (signal : Signal) :
    Except SupervisorError Bool × Supervision :=
  match s.supervisor.send s.processes.host id signal with
  | (.ok true, supervisor) =>
      (.ok true, { s with supervisor, processes := s.processes.signal id signal })
  | (r, supervisor) => (r, { s with supervisor })

/-- Let time pass; nothing is taken in. -/
def sleep (s : Supervision) (nanos : Nat) : Supervision :=
  { s with processes := { s.processes with now := s.processes.now + nanos } }

/-- Take a notice in; says whether its process is known. -/
def observe (s : Supervision) (n : Notice) : Bool × Supervision :=
  match s.supervisor.absorb? n with
  | some supervisor => (true, { s with supervisor })
  | none => (false, s)

/-- Give up the handle of a process that has ended. -/
def release (s : Supervision) (id : ProcessId) : Option (ProcessHandle × Supervision) :=
  (s.supervisor.release? id).map fun r => (r.1, { s with supervisor := r.2 })

/-- Let the next thing happen to a process and take it in. -/
def step? (s : Supervision) : Option Supervision :=
  s.processes.next?.map fun (t, p, n) =>
    let processes := { s.processes with now := max s.processes.now t }.deliver p
    { (s.observe n).2 with processes, taken := n :: s.taken }

/-- The lines of a process that were taken in, oldest first. -/
def linesOf (s : Supervision) (id : ProcessId) : List OutputLine :=
  s.taken.reverse.filterMap fun
    | .output i stream line => if i = id then some (stream, line) else none
    | .exited .. => none

/-- How a process ended, as far as was taken in. -/
def statusOf (s : Supervision) (id : ProcessId) : Option ExitStatus :=
  s.taken.findSome? fun
    | .exited i status _ => if i = id then some status else none
    | .output .. => none

/-- Take in what happens until a process has ended. The first argument bounds the number
of notices. -/
def waitWithin : Nat → Supervision → ProcessId → Supervision
  | 0, s, _ => s
  | k + 1, s, id =>
      if (s.statusOf id).isSome then s
      else
        match s.step? with
        | some s => waitWithin k s id
        | none => s

/-- Take in what happens until a process has ended. -/
def wait (s : Supervision) (id : ProcessId) : Supervision :=
  waitWithin Simulation.messageBound s id

end Supervision

end Conductor
