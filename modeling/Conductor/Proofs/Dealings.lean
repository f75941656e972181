import Conductor.Proofs.Launch.Tale

/-!
# Dealings with a supervisor

A supervisor is called to start processes, to take notices in, to send signals and to give
handles up, in any order and about any process. `Supervisor.dealings` lists the calls together
with the supervisor they were made of, and what was started, heard, sent and given up is read off
that list. A signal counts as sent when it is passed on to the machine, whatever comes of it
(`Supervisor.passes_iff_send_ne`).
-/

namespace Conductor

theorem ProcessId.number_inj {i j : ProcessId} : i.number = j.number ↔ i = j :=
  ⟨ProcessId.ext, congrArg _⟩

namespace ProcessHandle

variable {h : ProcessHandle}

@[simp] theorem output_hear (h : ProcessHandle) (n : Notice) : (h.hear n).output = h.output := by
  unfold hear
  split
  · rfl
  · split <;> rfl

@[simp] theorem wasSent_hear (h : ProcessHandle) (n : Notice) (signal : Signal) :
    (h.hear n).wasSent signal = h.wasSent signal := by
  unfold hear
  split
  · cases signal <;> rfl
  · split <;> cases signal <;> rfl

/-- A process is alive as long as no notice tells its end. -/
theorem isAlive_hear_eq (h : ProcessHandle) (n : Notice) :
    (h.hear n).isAlive = (h.isAlive && !n.isExit) := by
  cases n with
  | exited id status fault => exact (Bool.and_false _).symm
  | output id stream line =>
      unfold hear
      dsimp only
      split <;> exact (Bool.and_true _).symm

/-- A handle that keeps lines keeps those that notices bring. -/
theorem captured_hear (hout : h.output = .capture) (n : Notice) :
    (h.hear n).captured = h.captured ++ n.line?.toList := by
  cases n with
  | exited id status fault => exact (List.append_nil _).symm
  | output id stream line => rw [hear_of_capture hout]; rfl

@[simp] theorem isAlive_markSent (h : ProcessHandle) (signal : Signal) :
    (h.markSent signal).isAlive = h.isAlive := by
  unfold isAlive
  rw [status_markSent]

@[simp] theorem output_markSent (h : ProcessHandle) (signal : Signal) :
    (h.markSent signal).output = h.output := by
  cases signal <;> rfl

@[simp] theorem captured_markSent (h : ProcessHandle) (signal : Signal) :
    (h.markSent signal).captured = h.captured := by
  cases signal <;> rfl

theorem wasSent_markSent_iff (h : ProcessHandle) (signal other : Signal) :
    (h.markSent signal).wasSent other = true ↔ other = signal ∨ h.wasSent other = true := by
  cases signal <;> cases other <;> simp [markSent, wasSent]

end ProcessHandle

namespace Supervisor

variable {s : Supervisor}

/-! ## What reaches the machine -/

/-- Whether a signal would be passed on to the machine. -/
def passes (s : Supervisor) (id : ProcessId) (signal : Signal) : Bool :=
  (s.find? id).any fun h => h.isAlive && !h.wasSent signal

theorem passes_eq_true_iff {id : ProcessId} {signal : Signal} :
    s.passes id signal = true ↔
      ∃ h, s.find? id = some h ∧ h.isAlive = true ∧ h.wasSent signal = false := by
  simp [passes, Option.any_eq_true]

/-- A signal that is not passed on leaves everything as it is. -/
theorem send_of_not_passes (host : Host) {id : ProcessId} {signal : Signal}
    (hp : s.passes id signal = false) :
    s.send host id signal =
      (if (s.find? id).isSome then .ok false else .error (.unknownProcess id), s) := by
  unfold passes at hp
  unfold send
  cases hf : s.find? id with
  | none => rfl
  | some h =>
      rw [hf, Option.any_some, Bool.and_eq_false_iff, Bool.not_eq_false'] at hp
      have hno : (!h.isAlive || h.wasSent signal) = true := by
        rw [Bool.or_eq_true, Bool.not_eq_true']
        exact hp
      dsimp only
      rw [if_pos hno]
      rfl

/-- A signal that is passed on is noted first; then it is delivered or not, as the machine
says. -/
theorem send_of_find? (host : Host) {id : ProcessId} {signal : Signal} {h : ProcessHandle}
    (hf : s.find? id = some h) (ha : h.isAlive = true) (hs : h.wasSent signal = false) :
    s.send host id signal =
      ((host.signal id signal).mapError (.signal h.pid signal ·),
        { s.update (h.markSent signal) with
          signalsSent :=
            s.signalsSent + if (host.signal id signal).toOption = some true then 1 else 0 }) := by
  have hyes : (!h.isAlive || h.wasSent signal) = false := by rw [ha, hs]; rfl
  unfold send
  rw [hf]
  dsimp only
  rw [hyes]
  cases host.signal id signal with
  | error fault => rfl
  | ok delivered => cases delivered <;> rfl

/-- A signal is passed on exactly when its outcome depends on the machine. -/
theorem passes_iff_send_ne {id : ProcessId} {signal : Signal} :
    s.passes id signal = true ↔
      ∃ host host', s.send host id signal ≠ s.send host' id signal := by
  constructor
  · intro hp
    obtain ⟨h, hf, ha, hs⟩ := passes_eq_true_iff.mp hp
    refine ⟨{ Host.bare with signal := fun _ _ => .ok true },
      { Host.bare with signal := fun _ _ => .ok false }, fun heq => ?_⟩
    rw [send_of_find? _ hf ha hs, send_of_find? _ hf ha hs] at heq
    cases congrArg Prod.fst heq
  · rintro ⟨host, host', hne⟩
    cases hp : s.passes id signal with
    | true => rfl
    | false =>
        exact absurd ((send_of_not_passes host hp).trans (send_of_not_passes host' hp).symm) hne

theorem signalsSent_of_absorb? {s t : Supervisor} {n : Notice} (h : s.absorb? n = some t) :
    t.signalsSent = s.signalsSent := by
  rcases s.absorb?_cases n with ⟨-, hn⟩ | ⟨g, -, ⟨_, _, _, -, hn⟩ | ⟨_, _, _, -, ⟨_, hn⟩ | ⟨_, hn⟩⟩⟩
  all_goals rw [hn] at h; cases h
  all_goals rfl

/-! ## Calls and what is told by them -/

/-- A call on a supervisor, with the machine as it is at that time. -/
inductive Call where
  | spawn (host : Host) (spec : ProcessSpec)
  | observe (n : Notice)
  | send (host : Host) (id : ProcessId) (signal : Signal)
  | release (id : ProcessId)

inductive Answer where
  | spawned (outcome : Except SupervisorError ProcessHandle)
  /-- Whether the process is known. -/
  | observed (known : Bool)
  | sent (outcome : Except SupervisorError Bool)
  | released (handle : Option ProcessHandle)

def call (s : Supervisor) : Call → Answer × Supervisor
  | .spawn host spec => (.spawned (s.spawn host spec).1, (s.spawn host spec).2)
  | .observe n => (.observed (s.absorb? n).isSome, (s.absorb? n).getD s)
  | .send host id signal => (.sent (s.send host id signal).1, (s.send host id signal).2)
  | .release id => (.released ((s.release? id).map (·.1)), ((s.release? id).map (·.2)).getD s)

/-- A call, and the supervisor it was made of. -/
structure Dealing where
  before : Supervisor
  call : Call

namespace Dealing

def answer (d : Dealing) : Answer :=
  (d.before.call d.call).1

def isSpawn (d : Dealing) : Bool :=
  match d.call with
  | .spawn .. => true
  | _ => false

/-- The handle of the process that was started. -/
def started? (d : Dealing) : Option ProcessHandle :=
  match d.answer with
  | .spawned (.ok h) => some h
  | _ => none

/-- The notice that was taken in. -/
def heard? (d : Dealing) : Option Notice :=
  match d.call, d.answer with
  | .observe n, .observed true => some n
  | _, _ => none

/-- The signal that was passed on to the machine. -/
def sent? (d : Dealing) : Option (ProcessId × Signal) :=
  match d.call with
  | .send _ id signal => if d.before.passes id signal then some (id, signal) else none
  | _ => none

/-- Whether a signal was delivered. -/
def delivers (d : Dealing) : Bool :=
  match d.answer with
  | .sent (.ok true) => true
  | _ => false

/-- Whether the machine was asked to deliver a signal, and did. -/
def reaches (d : Dealing) : Bool :=
  match d.call with
  | .send host id signal =>
      d.before.passes id signal && decide ((host.signal id signal).toOption = some true)
  | _ => false

/-- A signal was delivered exactly when the machine was asked to deliver it, and did. -/
theorem delivers_eq_reaches (d : Dealing) : d.delivers = d.reaches := by
  obtain ⟨s, c⟩ := d
  cases c with
  | spawn host spec => rfl
  | observe n => rfl
  | release id => rfl
  | send host id signal =>
      cases hp : s.passes id signal with
      | false =>
          have heq := send_of_not_passes host hp
          simp only [delivers, reaches, answer, Supervisor.call, heq, hp, Bool.false_and]
          cases s.find? id <;> rfl
      | true =>
          obtain ⟨h, hf, ha, hwas⟩ := passes_eq_true_iff.mp hp
          have heq := send_of_find? host hf ha hwas
          simp only [delivers, reaches, answer, Supervisor.call, heq, hp, Bool.true_and]
          cases host.signal id signal with
          | error fault => rfl
          | ok delivered => cases delivered <;> rfl

/-- The handle that was given up. -/
def released? (d : Dealing) : Option ProcessHandle :=
  match d.answer with
  | .released h => h
  | _ => none

end Dealing

/-- The supervisor after these calls, the latest first. -/
def after : List Call → Supervisor
  | [] => start
  | c :: earlier => ((after earlier).call c).2

/-- The dealings that these calls are, the latest first. -/
def dealings : List Call → List Dealing
  | [] => []
  | c :: earlier => ⟨after earlier, c⟩ :: dealings earlier

/-- How often a process was to be started. -/
def attempts (ds : List Dealing) : Nat :=
  ds.countP (·.isSpawn)

/-- The handles of the processes that were started, as they were then, oldest first. -/
def started (ds : List Dealing) : List ProcessHandle :=
  (ds.filterMap (·.started?)).reverse

/-- The notices of a process that were taken in, oldest first. -/
def heard (id : ProcessId) (ds : List Dealing) : List Notice :=
  ((ds.filterMap (·.heard?)).filter (·.process = id)).reverse

/-- Whether the end of a process was told. -/
def ended (id : ProcessId) (ds : List Dealing) : Bool :=
  (heard id ds).any (·.isExit)

/-- The lines of a process that were told, oldest first. -/
def lines (id : ProcessId) (ds : List Dealing) : List OutputLine :=
  (heard id ds).filterMap (·.line?)

/-- The signals that were passed on to the machine, and to which processes. -/
def sent (ds : List Dealing) : List (ProcessId × Signal) :=
  ds.filterMap (·.sent?)

/-- How many signals were delivered. -/
def delivered (ds : List Dealing) : Nat :=
  ds.countP (·.delivers)

/-- How often the machine was asked to deliver a signal, and did. -/
def reached (ds : List Dealing) : Nat :=
  ds.countP (·.reaches)

theorem delivered_eq_reached (ds : List Dealing) : delivered ds = reached ds :=
  List.countP_congr fun d _ => by rw [d.delivers_eq_reaches]

/-- Whether the handle of a process was given up. -/
def gaveUp (id : ProcessId) (ds : List Dealing) : Bool :=
  ds.any fun d => d.released?.any (·.id = id)

section Cons

variable (d : Dealing) (ds : List Dealing)

theorem started_cons : started (d :: ds) = started ds ++ d.started?.toList := by
  unfold started
  rw [List.filterMap_cons]
  cases d.started? with
  | none => exact (List.append_nil _).symm
  | some h => exact List.reverse_cons

theorem heard_cons (id : ProcessId) :
    heard id (d :: ds) = heard id ds ++ (d.heard?.filter (·.process = id)).toList := by
  unfold heard
  rw [List.filterMap_cons]
  cases d.heard? with
  | none => exact (List.append_nil _).symm
  | some n =>
      dsimp only
      rw [List.filter_cons, Option.filter_some]
      split
      · exact List.reverse_cons
      · exact (List.append_nil _).symm

theorem sent_cons : sent (d :: ds) = d.sent?.toList ++ sent ds := by
  unfold sent
  rw [List.filterMap_cons]
  cases d.sent? <;> rfl

theorem gaveUp_cons (id : ProcessId) :
    gaveUp id (d :: ds) = (d.released?.any (·.id = id) || gaveUp id ds) := rfl

theorem attempts_cons : attempts (d :: ds) = attempts ds + if d.isSpawn then 1 else 0 :=
  List.countP_cons

theorem delivered_cons : delivered (d :: ds) = delivered ds + if d.delivers then 1 else 0 :=
  List.countP_cons

variable {d}

theorem started_cons_of_none (h : d.started? = none) : started (d :: ds) = started ds := by
  rw [started_cons, h]
  exact List.append_nil _

theorem heard_cons_of_none (h : d.heard? = none) (id : ProcessId) :
    heard id (d :: ds) = heard id ds := by
  rw [heard_cons, h]
  exact List.append_nil _

theorem sent_cons_of_none (h : d.sent? = none) : sent (d :: ds) = sent ds := by
  rw [sent_cons, h]
  rfl

theorem gaveUp_cons_of_none (h : d.released? = none) (id : ProcessId) :
    gaveUp id (d :: ds) = gaveUp id ds := by
  rw [gaveUp_cons, h]
  rfl

theorem delivered_cons_of_not (h : d.delivers = false) : delivered (d :: ds) = delivered ds := by
  rw [delivered_cons, h]
  rfl

end Cons

end Supervisor

end Conductor
