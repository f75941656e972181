import Conductor.Host

/-!
# The supervisor of processes

The supervisor starts processes, keeps a handle for each until it is released, and
signals them. What happens to a process in the background reaches the supervisor as
notices. Each process is asked to end at most once and killed at most once, and is
signalled no more once its end is known.
-/

namespace Conductor

abbrev OutputLine := OutputStream × String

/-- What is known of a process that was started. -/
structure ProcessHandle where
  id : ProcessId
  name : String
  pid : Nat
  command : List String
  output : OutputMode
  /-- How the process ended; nothing while it is alive. -/
  status : Option ExitStatus := none
  terminateSent : Bool := false
  killSent : Bool := false
  /-- The lines kept for the report, oldest first. -/
  captured : List OutputLine := []
  deriving DecidableEq, Repr

namespace ProcessHandle

def isAlive (h : ProcessHandle) : Bool :=
  h.status.isNone

/-- Whether a signal was sent before. -/
def wasSent (h : ProcessHandle) : Signal → Bool
  | .terminate => h.terminateSent
  | .kill => h.killSent

/-- Note that a signal was sent. -/
def markSent (h : ProcessHandle) : Signal → ProcessHandle
  | .terminate => { h with terminateSent := true }
  | .kill => { h with killSent := true }

end ProcessHandle

/-- What happened to a process in the background. -/
inductive Notice where
  | output (id : ProcessId) (stream : OutputStream) (line : String)
  /-- The process ended; `fault` tells why the manner of its end is not known. -/
  | exited (id : ProcessId) (status : ExitStatus) (fault : Option String)
  deriving DecidableEq, Repr

namespace Notice

def process : Notice → ProcessId
  | .output id _ _ => id
  | .exited id _ _ => id

end Notice

/-- The processes that were started and not yet released. -/
structure Supervisor where
  /-- The number of the next process. -/
  nextId : Nat
  handles : Table Nat ProcessHandle
  /-- Number of signals that were delivered. -/
  signalsSent : Nat
  /-- The lines shown on the program's own output, latest first. -/
  shown : List OutputLine

namespace Supervisor

/-- The supervisor of no process. -/
def start : Supervisor :=
  ⟨1, .empty, 0, []⟩

instance : Inhabited Supervisor := ⟨start⟩

def find? (s : Supervisor) (id : ProcessId) : Option ProcessHandle :=
  s.handles.get? id.number

/-- The processes that are alive, in the order of their start. -/
def live (s : Supervisor) : List ProcessId :=
  (s.handles.values.filter (·.isAlive)).map (·.id)

/-- Put a handle in place of the one with its number. -/
def update (s : Supervisor) (h : ProcessHandle) : Supervisor :=
  { s with handles := s.handles.insert h.id.number h }

/-- Start a process. The number is used up even when that fails. -/
def spawn (host : Host) (s : Supervisor) (spec : ProcessSpec) :
    Except SupervisorError ProcessHandle × Supervisor :=
  let id : ProcessId := ⟨s.nextId⟩
  let s := { s with nextId := s.nextId + 1 }
  match host.start id spec with
  | .error .notFound => (.error (.executableNotFound spec.program), s)
  | .error (.refused fault) => (.error (.spawn spec.program fault), s)
  | .ok pid =>
      let h : ProcessHandle :=
        { id, name := spec.name, pid, command := spec.commandLine, output := spec.output }
      (.ok h, s.update h)

/-- A line of output on the screen, after the name of the process. -/
def screenLine (h : ProcessHandle) (line : String) : String :=
  "[" ++ h.name ++ "] " ++ line

/-- Take a notice in; nothing when no process of its number is known. -/
def absorb? (s : Supervisor) (n : Notice) : Option Supervisor :=
  match s.find? n.process with
  | none => none
  | some h =>
      match n with
      | .exited _ status _ => some (s.update { h with status := some status })
      | .output _ stream line =>
          match h.output with
          | .capture => some (s.update { h with captured := h.captured ++ [(stream, line)] })
          | .screen => some { s with shown := (stream, screenLine h line) :: s.shown }
          | .log => some s
          | .discard => some s

/-- Give up the handle of a process that has ended. -/
def release? (s : Supervisor) (id : ProcessId) : Option (ProcessHandle × Supervisor) :=
  match s.find? id with
  | none => none
  | some h =>
      if h.isAlive then none else some (h, { s with handles := s.handles.erase id.number })

/-- Send a signal to a living process that has not been sent it before; says whether it
was delivered. -/
def send (host : Host) (s : Supervisor) (id : ProcessId) (signal : Signal) :
    Except SupervisorError Bool × Supervisor :=
  match s.find? id with
  | none => (.error (.unknownProcess id), s)
  | some h =>
      if !h.isAlive || h.wasSent signal then (.ok false, s)
      else
        let s := s.update (h.markSent signal)
        match host.signal id signal with
        | .error fault => (.error (.signal h.pid signal fault), s)
        | .ok false => (.ok false, s)
        | .ok true => (.ok true, { s with signalsSent := s.signalsSent + 1 })

@[simp] theorem find?_update (s : Supervisor) (h : ProcessHandle) (id : ProcessId) :
    (s.update h).find? id = if id.number = h.id.number then some h else s.find? id := by
  simp [update, find?]

@[simp] theorem nextId_update (s : Supervisor) (h : ProcessHandle) :
    (s.update h).nextId = s.nextId := rfl

theorem nextId_of_absorb? {s t : Supervisor} {n : Notice} (h : s.absorb? n = some t) :
    t.nextId = s.nextId := by
  unfold absorb? at h
  split at h
  · cases h
  · split at h
    · cases h; rfl
    · split at h <;> (cases h; rfl)

end Supervisor

end Conductor
