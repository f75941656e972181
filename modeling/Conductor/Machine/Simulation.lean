import Conductor.Launch.Run
import Conductor.Machine.Basic

/-!
# Launches in virtual time

A launch on a machine is played in virtual time: handling a message takes no time, and
when the launch waits, the clock goes to the next thing that happens. Of things that
happen at one time, timers come first, in the order in which they were scheduled, then
the end of the grace period, then what processes do.
-/

namespace Conductor

structure MachineProcess where
  id : ProcessId
  spec : ProcessSpec
  started : Nat
  /-- The signals it was sent, with their times. -/
  signals : List (Nat × Nat)
  /-- When it ends, as far as is known. -/
  ends : Option Nat
  /-- The notices still to be delivered. -/
  notices : List (Nat × Notice)
  /-- How many have been delivered. -/
  delivered : Nat

namespace MachineProcess

/-- Work the run out anew. What has been delivered stays delivered. -/
def replay (p : MachineProcess) (m : Machine) : MachineProcess :=
  let t := m.trace p.spec p.started p.signals
  { p with
    ends := t.ending.map (·.1)
    notices := (noticesOf p.id p.spec.output t).drop p.delivered }

/-- Whether the process has ended before a time. -/
def isGone (p : MachineProcess) (now : Nat) : Bool :=
  p.ends.any (· < now)

end MachineProcess

/-- The processes of a machine and the time. -/
structure Processes where
  machine : Machine
  now : Nat
  table : Table Nat MachineProcess

namespace Processes

def start (m : Machine) : Processes :=
  ⟨m, 0, .empty⟩

/-- The machine as it is seen now. -/
def host (ps : Processes) : Host :=
  ps.machine.host fun id => (ps.table.get? id.number).any (·.isGone ps.now)

/-- A process has started. -/
def add (ps : Processes) (id : ProcessId) (spec : ProcessSpec) : Processes :=
  let p : MachineProcess := ⟨id, spec, ps.now, [], none, [], 0⟩
  { ps with table := ps.table.insert id.number (p.replay ps.machine) }

/-- A process has been sent a signal. -/
def signal (ps : Processes) (id : ProcessId) (s : Signal) : Processes :=
  match ps.table.get? id.number with
  | none => ps
  | some p =>
      let p := { p with signals := p.signals ++ [(ps.now, s.number)] }
      { ps with table := ps.table.insert id.number (p.replay ps.machine) }

/-- The earliest notice still to be delivered, and the process it comes from. -/
def next? (ps : Processes) : Option (Nat × MachineProcess × Notice) :=
  ps.table.values.foldl
    (fun best p =>
      match p.notices, best with
      | [], _ => best
      | (t, n) :: _, none => some (t, p, n)
      | (t, n) :: _, some (t', _) => if t < t' then some (t, p, n) else best)
    none

/-- Take the next notice of a process as delivered. -/
def deliver (ps : Processes) (p : MachineProcess) : Processes :=
  let p := { p with notices := p.notices.drop 1, delivered := p.delivered + 1 }
  { ps with table := ps.table.insert p.id.number p }

end Processes

/-- A launch being played. -/
structure Simulation where
  processes : Processes
  launch : Launch
  /-- How much of the history has been taken in. -/
  seen : Nat
  /-- Messages that have arrived, oldest first. -/
  queue : List Message

namespace Simulation

/-- The bound on the events between two messages. -/
def eventBound : Nat := 100000

/-- The bound on the messages of a launch. -/
def messageBound : Nat := 1000000

/-- What the machine does about something that happened to the launch. -/
def follow (ps : Processes) : Occurrence → Processes
  | .started id spec => ps.add id spec
  | .signalled id signal => ps.signal id signal
  | _ => ps

/-- The message that something that happened to the launch sends to it. -/
def echo? (c : Config) : Occurrence → Option Message
  | .interrupted => if c.handleSignals then some .interrupt else none
  | _ => none

/-- Go on with a launch, taking in what has happened to it since. -/
def withLaunch (s : Simulation) (l : Launch) : Simulation :=
  let fresh := (l.history.take (l.history.length - s.seen)).reverse
  { processes := fresh.foldl follow s.processes
    launch := l
    seen := l.history.length
    queue := s.queue ++ fresh.filterMap (echo? l.config) }

/-- The pending timers that are due at a time, the earliest first; of those due together
the one scheduled first. -/
def dueTimers (s : Simulation) (time : Nat) : List Nat :=
  let due := s.launch.timers.entries.filter fun e => e.2.due.nanos ≤ time
  (due.mergeSort fun a b => a.2.due.nanos ≤ b.2.due.nanos).map (·.1)

/-- When the next timer is due. -/
def timerTime? (s : Simulation) : Option Nat :=
  (s.launch.timers.values.map (·.due.nanos)).min?

/-- The clock at a later time. -/
def atTime (s : Simulation) (time : Nat) : Simulation :=
  { s with processes := { s.processes with now := max s.processes.now time } }

/-- Whether a time comes no later than another one, if there is that; what is past is now. -/
def comesFirst (s : Simulation) (time : Nat) (other : Option Nat) : Bool :=
  other.all fun o => max s.processes.now time ≤ max s.processes.now o

/-- What happens next among the end of the grace period and the notices of processes. -/
def awaitOther? (s : Simulation) : Option Simulation :=
  match s.launch.shutdown, s.processes.next? with
  | none, none => none
  | some shutdown, none => some { s.atTime shutdown.deadline.nanos with queue := [.graceElapsed] }
  | none, some (t, p, n) => some (delivered t p n)
  | some shutdown, some (t, p, n) =>
      if s.comesFirst shutdown.deadline.nanos (some t) then
        some { s.atTime shutdown.deadline.nanos with queue := [.graceElapsed] }
      else some (delivered t p n)
where
  delivered (t : Nat) (p : MachineProcess) (n : Notice) : Simulation :=
    { s.atTime t with
      processes := (s.atTime t).processes.deliver p
      queue := [.notice n] }

/-- Let the next thing happen; nothing when nothing ever will. -/
def await? (s : Simulation) : Option Simulation :=
  match s.timerTime? with
  | none => s.awaitOther?
  | some t =>
      if s.comesFirst t (s.launch.shutdown.map (·.deadline.nanos)) &&
          s.comesFirst t (s.processes.next?.map (·.1)) then
        let s := s.atTime t
        some { s with queue := (s.dueTimers s.processes.now).map .timerFired }
      else s.awaitOther?

/-- The next message and the simulation without it; when none has arrived, time passes
until one does. -/
def next? (s : Simulation) : Option (Message × Simulation) :=
  match s.queue with
  | m :: rest => some (m, { s with queue := rest })
  | [] =>
      match s.await? with
      | none => none
      | some s =>
          match s.queue with
          | [] => none
          | m :: rest => some (m, { s with queue := rest })

/-- A message as it arrives now. -/
def arrival (s : Simulation) (m : Message) : Arrival :=
  ⟨⟨s.processes.now⟩, s.processes.host, m⟩

/-- Play a launch to its end. The first argument bounds the number of messages. -/
def play : Nat → Simulation → Except Halt Launch
  | 0, _ => .error .exhausted
  | n + 1, s =>
      match s.launch.settleEvents eventBound with
      | .error h => .error h
      | .ok (.ended l) => .ok l
      | .ok (.waiting l) =>
          match (s.withLaunch l).next? with
          | none => .error .exhausted
          | some (m, s) =>
              match s.launch.receive (s.arrival m) with
              | .ended l => .ok l
              | .waiting l => play n (s.withLaunch l)

@[simp] theorem launch_withLaunch (s : Simulation) (l : Launch) : (s.withLaunch l).launch = l := rfl

@[simp] theorem launch_atTime (s : Simulation) (t : Nat) : (s.atTime t).launch = s.launch := rfl

theorem launch_of_awaitOther? {s t : Simulation} (h : s.awaitOther? = some t) :
    t.launch = s.launch := by
  unfold awaitOther? at h
  split at h
  · cases h
  · cases h; rfl
  · cases h; rfl
  · split at h <;> (cases h; rfl)

theorem launch_of_await? {s t : Simulation} (h : s.await? = some t) : t.launch = s.launch := by
  unfold await? at h
  split at h
  · exact launch_of_awaitOther? h
  · split at h
    · cases h; rfl
    · exact launch_of_awaitOther? h

/-- Waiting for a message leaves the launch as it is. -/
theorem launch_of_next? {s t : Simulation} {m : Message} (h : s.next? = some (m, t)) :
    t.launch = s.launch := by
  unfold next? at h
  split at h
  · cases h; rfl
  · split at h
    · cases h
    · rename_i u hu
      split at h
      · cases h
      · cases h; exact (launch_of_await? hu :)

/-- Playing a launch is running it on the messages that the machine makes arrive. -/
theorem exists_run_of_play {n : Nat} {s : Simulation} {l : Launch} (h : s.play n = .ok l) :
    ∃ as, s.launch.run eventBound as = .ok (.ended l) := by
  induction n generalizing s with
  | zero => cases h
  | succ n ih =>
    unfold play at h
    split at h
    · cases h
    · rename_i l' hl
      cases h
      exact ⟨[], by rw [Launch.run, hl]⟩
    · rename_i l' hl
      split at h
      · cases h
      · rename_i m t ht
        have ht := launch_of_next? ht
        simp only [launch_withLaunch] at ht
        rw [ht] at h
        split at h
        · rename_i l'' hr
          cases h
          exact ⟨[t.arrival m], by rw [Launch.run, hl]; simp only [hr]⟩
        · rename_i l'' hr
          obtain ⟨as, has⟩ := ih h
          exact ⟨t.arrival m :: as, by rw [Launch.run, hl]; simpa only [hr, launch_withLaunch] using has⟩

end Simulation

namespace Machine

/-- Run a description on a machine. -/
def conduct (m : Machine) (config : Config) (args : LaunchArguments) (description : List Action) :
    Except Halt Launch :=
  let processes := Processes.start m
  let launch := Launch.begin config processes.host args description
  Simulation.play Simulation.messageBound
    (Simulation.withLaunch ⟨processes, launch, 0, []⟩ launch)

end Machine

end Conductor
