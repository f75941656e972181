import Conductor.Proofs.Launch.Loop

/-!
# The life of a process

What a launch knows of one process stands in four places: the handle of the supervisor, the
table of what is kept of running processes, the queue of events, and the history. `Life`
collects it. Every move of the launch is a step in the life of each process (`Move.life`), and
there are few such steps (`LifeStep`), so what holds of all lives is proved on these, without
the other processes, the handlers, the timers and the shutdown.
-/

namespace Conductor

namespace Event

/-- Whether the event reports the end of the process. -/
def isEndOf (id : ProcessId) : Event → Bool
  | .processExited q _ => q.id = id
  | _ => false

end Event

namespace Occurrence

/-- Whether the process was started. -/
def starts (id : ProcessId) : Occurrence → Bool
  | .started i _ => i = id
  | _ => false

/-- Whether the supervisor was told that the process has ended. -/
def tellsEndOf (id : ProcessId) : Occurrence → Bool
  | .received (.notice (.exited i _ _)) => i = id
  | _ => false

/-- Whether all handlers of an event that reports the end of the process were asked. -/
def settlesEndOf (id : ProcessId) : Occurrence → Bool
  | .turnEnded e => e.isEndOf id
  | _ => false

/-- What was kept of the process when it was started, and the number of the handler that
follows its end. -/
def keptOf? (id : ProcessId) : Occurrence → Option (RunningProcess × Option Nat)
  | .kept r w => if r.info.id = id then some (r, w) else none
  | _ => none

end Occurrence

namespace Launch

/-- Whether the process was started. -/
def hasStarted (l : Launch) (id : ProcessId) : Bool :=
  l.history.any (·.starts id)

/-- What happened since the process was started, latest first. -/
def since (l : Launch) (id : ProcessId) : List Occurrence :=
  l.history.takeWhile fun o => !o.starts id

/-- Whether the message that the process has ended was handled since its start. -/
def endSeen (l : Launch) (id : ProcessId) : Bool :=
  (l.since id).any (·.tellsEndOf id)

/-- Whether an event that reports the end of the process has had its turn since its start. -/
def endSettled (l : Launch) (id : ProcessId) : Bool :=
  (l.since id).any (·.settlesEndOf id)

/-- The events in flight that report the end of the process: the one that has its turn, then
those that wait. -/
def endsInFlight (l : Launch) (id : ProcessId) : List Event :=
  (l.context.current.toList ++ l.context.pending).filter (·.isEndOf id)

end Launch

/-- What a launch knows of one process. -/
@[ext] structure Life where
  /-- Whether the number of the process is still to be given. -/
  fresh : Bool
  started : Bool
  kept : List (RunningProcess × Option Nat)
  entry : Option RunningProcess
  handle : Option ProcessHandle
  inFlight : List Event
  seen : Bool
  settled : Bool

/-- The life of a process as a launch knows it. -/
def Launch.life (l : Launch) (id : ProcessId) : Life where
  fresh := decide (l.supervisor.nextId ≤ id.number)
  started := l.hasStarted id
  kept := l.history.filterMap (·.keptOf? id)
  entry := l.processes.get? id.number
  handle := l.supervisor.find? id
  inFlight := l.endsInFlight id
  seen := l.endSeen id
  settled := l.endSettled id

/-- One step in the life of a process. -/
inductive LifeStep (p : Deed → Prop) (id : ProcessId) (v : Life) : Life → Prop where
  | stay : LifeStep p id v v
  /-- The number was given, and no process could be started under it. -/
  | refuse (hf : v.fresh = true) : LifeStep p id v { v with fresh := false }
  | start (r : RunningProcess) (w : Option Nat) (h : ProcessHandle) (hf : v.fresh = true)
      (hr : r.info.id = id) (hh : h.id = id) (ha : h.isAlive = true) :
      LifeStep p id v
        { v with
          fresh := false
          started := true
          kept := (r, w) :: v.kept
          entry := some r
          handle := some h
          seen := false
          settled := false }
  /-- The handle is marked, or a line is kept on it. -/
  | touch (h h' : ProcessHandle) (hv : v.handle = some h) (hs : h'.status = h.status)
      (hid : h'.id = h.id) : LifeStep p id v { v with handle := some h' }
  /-- A deed emits an event that reports the end of the process. -/
  | emit (e : Event) (he : e.isEndOf id = true) (hp : p (.emit e)) :
      LifeStep p id v { v with inFlight := v.inFlight ++ [e] }
  /-- The turn of such an event ends when nothing is kept of the process. -/
  | close (e : Event) (rest : List Event) (hv : v.inFlight = e :: rest) (hn : v.entry = none) :
      LifeStep p id v { v with inFlight := rest, settled := true }
  /-- The turn of such an event ends, and the process is given up. -/
  | release (e : Event) (rest : List Event) (r : RunningProcess) (hv : v.inFlight = e :: rest)
      (hr : v.entry = some r) :
      LifeStep p id v
        { v with
          entry := none
          handle := v.handle.filter (·.isAlive)
          inFlight := rest
          settled := true }
  /-- The supervisor is told of the end of a process without a handle. -/
  | unknown (hv : v.handle = none) : LifeStep p id v { v with seen := true }
  /-- The supervisor is told of the end of a process of which nothing is kept. -/
  | unkept (h : ProcessHandle) (status : ExitStatus) (hv : v.handle = some h)
      (hn : v.entry = none) :
      LifeStep p id v { v with handle := some { h with status := some status }, seen := true }
  /-- The supervisor is told of the end of a process, which is passed on as an event. -/
  | exit (h : ProcessHandle) (r : RunningProcess) (status : ExitStatus)
      (hv : v.handle = some h) (hr : v.entry = some r) (hq : v.inFlight = []) :
      LifeStep p id v
        { v with
          handle := some { h with status := some status }
          inFlight := [.processExited r.info status]
          seen := true }

/-- Steps in the life of a process. -/
abbrev LifeSteps (p : Deed → Prop) (id : ProcessId) : Life → Life → Prop :=
  Relation.ReflTransGen (LifeStep p id)

theorem ProcessId.ext {i j : ProcessId} (h : i.number = j.number) : i = j := by
  cases i
  cases j
  exact congrArg ProcessId.mk h

variable {p : Deed → Prop} {l m : Launch} {id : ProcessId}

namespace Launch

/-- An event that is queued matters to the process whose end it reports only. -/
theorem life_emit (l : Launch) (e : Event) (id : ProcessId) :
    (l.emit e).life id =
      if e.isEndOf id then { l.life id with inFlight := (l.life id).inFlight ++ [e] }
      else l.life id := by
  have hflight : (l.emit e).endsInFlight id =
      l.endsInFlight id ++ [e].filter (·.isEndOf id) := by
    unfold endsInFlight
    rw [← List.filter_append, List.append_assoc]
    rfl
  show { l.life id with inFlight := (l.emit e).endsInFlight id } = _
  rw [hflight]
  by_cases he : e.isEndOf id = true
  · rw [if_pos he, List.filter_cons_of_pos he]
    rfl
  · rw [if_neg he, List.filter_cons_of_neg he, List.filter_nil, List.append_nil]
    rfl

theorem life_emit_of_not {e : Event} (he : e.isEndOf id = false) (l : Launch) :
    (l.emit e).life id = l.life id := by
  rw [life_emit, he]
  rfl

/-- The other processes see nothing of a number that is given to a process. -/
theorem fresh_succ {n : Nat} (h : id ≠ ⟨n⟩) :
    decide (n + 1 ≤ id.number) = decide (n ≤ id.number) := by
  have hne : id.number ≠ n := by
    rintro rfl
    exact h rfl
  rw [decide_eq_decide]
  omega

/-- A start matters to the process that is started only. -/
theorem life_attend {h : ProcessHandle} (hid : h.id = ⟨l.supervisor.nextId⟩)
    (ha : h.isAlive = true) (spec : ProcessSpec) (seq : Nat) (a : Action) (onExit : List Action)
    (id : ProcessId) :
    LifeStep p id (l.life id)
      (((l.withStarted h spec).attend seq a onExit spec.name h).life id) := by
  obtain ⟨r, -, hinfo, -, -, heq⟩ := (l.withStarted h spec).attend_eq seq a onExit spec.name h
  have hrid : r.info.id = h.id := by rw [hinfo]
  have hnum : l.supervisor.nextId = h.id.number := by rw [hid]
  have hflight : ((l.withStarted h spec).attend seq a onExit spec.name h).endsInFlight id =
      l.endsInFlight id := by
    rw [heq]
    exact congrArg Life.inFlight (life_emit_of_not (e := .processStarted r.info) rfl
      (l.withStarted h spec))
  by_cases hsame : id = h.id
  · subst hsame
    -- Part by part the new life is the one that `start` gives.
    have hfresh : (l.life h.id).fresh = true := by
      rw [hid]
      exact decide_eq_true (Nat.le_refl _)
    have hstart : LifeStep p h.id (l.life h.id) _ := .start r
      (if onExit.isEmpty then none else some l.registry.nextId) h hfresh hrid rfl ha
    refine Eq.mp (congrArg _ (Life.ext ?_ ?_ ?_ ?_ ?_ ?_ ?_ ?_)) hstart
    · rw [heq]
      refine (decide_eq_false ?_).symm
      show ¬ l.supervisor.nextId + 1 ≤ h.id.number
      omega
    · rw [heq]
      simp [life, hasStarted, withStarted, Occurrence.starts]
    · rw [heq]
      simp [life, Occurrence.keptOf?, hrid, withStarted]
    · rw [heq]
      simp [life, withStarted]
    · rw [heq]
      simp [life, withStarted, Supervisor.find?, hnum]
    · exact hflight.symm
    · rw [heq]
      simp [life, endSeen, since, withStarted, Occurrence.starts, Occurrence.tellsEndOf]
    · rw [heq]
      simp [life, endSettled, since, withStarted, Occurrence.starts, Occurrence.settlesEndOf]
  · have hne : id.number ≠ h.id.number := fun hn => hsame (ProcessId.ext hn)
    -- Another process has no part under this number.
    have hothers : ((l.withStarted h spec).attend seq a onExit spec.name h).life id =
        l.life id := by
      refine Life.ext ?_ ?_ ?_ ?_ ?_ ?_ ?_ ?_
      · rw [heq]
        exact fresh_succ (hid ▸ hsame)
      · rw [heq]
        simp [life, hasStarted, withStarted, Occurrence.starts, Ne.symm hsame]
      · rw [heq]
        simp [life, Occurrence.keptOf?, hrid, withStarted, Ne.symm hsame]
      · rw [heq]
        simp [life, withStarted, hne]
      · rw [heq]
        simp [life, withStarted, Supervisor.find?, hnum, hne]
      · exact hflight
      · rw [heq]
        simp [life, endSeen, since, withStarted, Occurrence.starts, Occurrence.tellsEndOf,
          Ne.symm hsame]
      · rw [heq]
        simp [life, endSettled, since, withStarted, Occurrence.starts, Occurrence.settlesEndOf,
          Ne.symm hsame]
    rw [hothers]
    exact .stay

end Launch

/-- **An effect is a step in the life of every process.** -/
theorem Effect.life (h : Effect p l m) (hl : l.supervisor.Keyed) (id : ProcessId) :
    LifeStep p id (l.life id) (m.life id) := by
  have hstay : ∀ {n : Launch}, n.life id = l.life id → LifeStep p id (l.life id) (n.life id) := by
    intro n hn
    rw [hn]
    exact .stay
  cases h with
  | emit e he =>
      rw [Launch.life_emit]
      split
      · rename_i hid
        exact .emit e hid he
      · exact .stay
  | request reason due hf => exact hstay (Launch.life_emit_of_not rfl l)
  | failFast e _ _ _ => exact hstay (Launch.life_emit_of_not rfl l)
  | refuse =>
      -- The number is given and no process stands behind it.
      show LifeStep p id _ { l.life id with fresh := decide (l.supervisor.nextId + 1 ≤ id.number) }
      by_cases hid : id = ⟨l.supervisor.nextId⟩
      · subst hid
        rw [decide_eq_false (Nat.not_succ_le_self _)]
        exact .refuse (decide_eq_true (Nat.le_refl _))
      · rw [Launch.fresh_succ hid]
        exact .stay
  | spawn spec seq a t onExit h hid hh hf hd ha _ =>
      refine Launch.life_attend hid ?_ spec seq a onExit id
      rw [ProcessHandle.isAlive, hh.1]
      rfl
  | mark i h signal sent hf ha hw =>
      have hi : h.id = i := hl i.number h hf
      have hlife : ∀ m' : Launch, m' =
          { l with
            supervisor := { l.supervisor.update (h.markSent signal) with signalsSent := sent } } →
          m'.life id = { l.life id with
            handle := if id.number = i.number then some (h.markSent signal)
              else l.supervisor.find? id } := by
        rintro _ rfl
        rw [← hi, ← h.id_markSent signal, ← Supervisor.find?_update]
        rfl
      rw [hlife _ rfl]
      split
      · rename_i heq
        obtain rfl : id = i := ProcessId.ext heq
        exact .touch h _ hf (h.status_markSent signal) (h.id_markSent signal)
      · exact .stay
  | _ => exact hstay rfl

theorem Effects.life (h : Effects p l m) (hl : l.Sound p) (id : ProcessId) :
    LifeSteps p id (l.life id) (m.life id) := by
  induction h with
  | refl => exact .refl
  | tail hbefore hlast ih => exact ih.tail (hlast.life (hl.effects hbefore).supervisor id)

namespace Launch

/-- The end of the turn of an event that does not report the end of the process. -/
theorem life_closeTurn_of_not {e : Event} (hc : l.context.current = some e)
    (he : e.isEndOf id = false) : (l.closeTurn e).life id = l.life id := by
  have hflight : (l.closeTurn e).endsInFlight id = l.endsInFlight id := by
    unfold endsInFlight
    rw [hc, Option.toList_some, List.singleton_append, List.filter_cons_of_neg (by simp [he])]
    rfl
  have hsettled : (l.closeTurn e).endSettled id = l.endSettled id := by
    show ((Occurrence.turnEnded e :: l.since id).any (·.settlesEndOf id)) = _
    rw [List.any_cons]
    show (e.isEndOf id || _) = _
    rw [he, Bool.false_or]
    rfl
  exact Life.ext rfl rfl rfl rfl rfl hflight rfl hsettled

/-- The end of the turn of an event that reports the end of the process. -/
theorem life_closeTurn {e : Event} (hc : l.context.current = some e)
    (he : e.isEndOf id = true) :
    ∃ rest, l.endsInFlight id = e :: rest ∧
      (l.closeTurn e).life id = { l.life id with inFlight := rest, settled := true } := by
  refine ⟨l.context.pending.filter (·.isEndOf id), ?_, ?_⟩
  · unfold endsInFlight
    rw [hc, Option.toList_some, List.singleton_append, List.filter_cons_of_pos he]
  · have hsettled : (l.closeTurn e).endSettled id = true := by
      show ((Occurrence.turnEnded e :: l.since id).any (·.settlesEndOf id)) = _
      rw [List.any_cons]
      show (e.isEndOf id || _) = _
      rw [he, Bool.true_or]
    exact Life.ext rfl rfl rfl rfl rfl rfl rfl hsettled

/-- The process that is given up loses what was kept of it, and its handle if it has ended. -/
theorem life_releaseProcess (l : Launch) (id : ProcessId) :
    (l.releaseProcess id).life id =
      { l.life id with entry := none, handle := (l.life id).handle.filter (·.isAlive) } := by
  have hentry : (l.processes.erase id.number).get? id.number = none := by simp
  rcases l.releaseProcess_cases id with ⟨ha, h⟩ | ⟨g, hf, ha, h⟩
  · rw [h]
    refine Life.ext rfl rfl rfl hentry ?_ rfl rfl rfl
    show l.supervisor.find? id = (l.supervisor.find? id).filter (·.isAlive)
    cases hf : l.supervisor.find? id with
    | none => rfl
    | some g => rw [Option.filter_some, if_pos (ha g hf)]
  · rw [h]
    refine Life.ext rfl rfl rfl hentry ?_ rfl rfl rfl
    show (l.supervisor.handles.erase id.number).get? id.number =
      (l.supervisor.find? id).filter (·.isAlive)
    rw [hf, Option.filter_some, ha]
    simp

theorem life_releaseProcess_of_ne {i : ProcessId} (hne : id ≠ i) (l : Launch) :
    (l.releaseProcess i).life id = l.life id := by
  have hnum : id.number ≠ i.number := fun hn => hne (ProcessId.ext hn)
  have hentry : (l.processes.erase i.number).get? id.number = l.processes.get? id.number := by
    simp [hnum]
  have hhandle : (l.supervisor.handles.erase i.number).get? id.number = l.supervisor.find? id := by
    simp [hnum, Supervisor.find?]
  rcases l.releaseProcess_cases i with ⟨-, h⟩ | ⟨_, -, -, h⟩
  · rw [h]
    exact Life.ext rfl rfl rfl hentry rfl rfl rfl rfl
  · rw [h]
    exact Life.ext rfl rfl rfl hentry hhandle rfl rfl rfl

/-- A message that arrives is noted. -/
theorem life_arrive (l : Launch) (a : Arrival) (id : ProcessId) :
    (l.arrive a).life id =
      { l.life id with
        seen := (Occurrence.received a.message).tellsEndOf id || (l.life id).seen } := rfl

/-- A new handle under the number of a process is seen by that process only. -/
theorem life_update (l : Launch) (h : ProcessHandle) (id : ProcessId) :
    ({ l with supervisor := l.supervisor.update h } : Launch).life id =
      { l.life id with
        handle := if id = h.id then some h else (l.life id).handle } := by
  refine Life.ext rfl rfl rfl rfl ?_ rfl rfl rfl
  show (l.supervisor.update h).find? id = if id = h.id then some h else l.supervisor.find? id
  rw [Supervisor.find?_update]
  by_cases hid : id = h.id
  · rw [if_pos hid, if_pos (congrArg _ hid)]
  · rw [if_neg hid, if_neg fun hn => hid (ProcessId.ext hn)]

/-- The end of a process is passed on as an event, and matters to no other process. -/
theorem life_processEnded (l : Launch) (r : RunningProcess) (status : ExitStatus)
    (fault : Option String) (id : ProcessId) :
    (l.processEnded r status fault).life id =
      if r.info.id = id then
        { l.life id with
          inFlight := (l.life id).inFlight ++ [.processExited r.info status] }
      else l.life id := by
  have hreport : ∀ (n : Launch) (e : LaunchError), (n.report e).life id = n.life id := by
    intro n e
    unfold report onFailure requestShutdown
    split
    · split
      · rfl
      · exact life_emit_of_not rfl n
    · rfl
  have hfault : (l.reportFault r.info.name fault).life id = l.life id := by
    cases fault with
    | none => rfl
    | some text => exact hreport l _
  have hrecord : (((l.reportFault r.info.name fault).note r.record status.text).advance r.record
      .completed).life id = l.life id := hfault
  unfold processEnded
  rw [life_emit, hrecord]
  show (if decide (r.info.id = id) = true then _ else _) = _
  by_cases hid : r.info.id = id
  · rw [if_pos (decide_eq_true hid), if_pos hid]
  · rw [if_neg (by simpa using hid), if_neg hid]

/-- A line of output leaves at most a trace on the handle of its process. -/
theorem life_output (hl : l.Sound p) (i : ProcessId) (stream : OutputStream) (line : String)
    (id : ProcessId) :
    (l.onNotice (.output i stream line)).life id = l.life id ∨
      ∃ h h', (l.life id).handle = some h ∧ h'.status = h.status ∧ h'.id = h.id ∧
        (l.onNotice (.output i stream line)).life id = { l.life id with handle := some h' } := by
  have habsorbed : ∀ s, l.supervisor.absorb? (.output i stream line) = some s →
      (l.onNotice (.output i stream line)).life id =
        ({ l with supervisor := s } : Launch).life id := by
    intro s hs
    rcases l.onNotice_cases (.output i stream line) with
        ⟨hn, -⟩ | ⟨s', hs', ⟨-, h⟩ | ⟨r, -, ⟨_, _, _, -, h⟩ | ⟨_, _, _, heq, -⟩⟩⟩
    · rw [hs] at hn
      cases hn
    · rw [h, Option.some.inj (hs.symm.trans hs')]
    · rw [h, Option.some.inj (hs.symm.trans hs')]
      exact life_emit_of_not rfl _
    · cases heq
  rcases l.supervisor.absorb?_cases (.output i stream line) with
      ⟨-, hn⟩ | ⟨h, hf, ⟨_, _, _, heq, -⟩ | ⟨_, _, _, -, ⟨captured, hs⟩ | ⟨shown, hs⟩⟩⟩
  · left
    rcases l.onNotice_cases (.output i stream line) with ⟨-, h⟩ | ⟨s, hs, -⟩
    · rw [h]
    · rw [hs] at hn
      cases hn
  · cases heq
  · have hid : h.id = i := hl.supervisor i.number h hf
    rw [habsorbed _ hs, life_update]
    by_cases hsame : id = i
    · subst hsame
      exact .inr ⟨h, { h with captured }, hf, rfl, rfl, by rw [if_pos hid.symm]⟩
    · left
      rw [if_neg fun heq => hsame (heq.trans hid)]
  · left
    rw [habsorbed _ hs]
    rfl

/-- The end of another process is none of the process. -/
theorem life_exited_of_ne (hl : l.Sound p) {i : ProcessId} (hne : id ≠ i) (status : ExitStatus)
    (fault : Option String) : (l.onNotice (.exited i status fault)).life id = l.life id := by
  have hsup : ∀ s, l.supervisor.absorb? (.exited i status fault) = some s →
      ({ l with supervisor := s } : Launch).life id = l.life id := by
    intro s hs
    rcases l.supervisor.absorb?_cases (.exited i status fault) with
        ⟨-, hn⟩ | ⟨h, hf, ⟨_, status', _, -, hu⟩ | ⟨_, _, _, heq, -⟩⟩
    · rw [hs] at hn
      cases hn
    · have hid : h.id = i := hl.supervisor i.number h hf
      rw [hs] at hu
      rw [Option.some.inj hu, life_update, if_neg fun heq => hne (heq.trans hid)]
    · cases heq
  rcases l.onNotice_cases (.exited i status fault) with
      ⟨-, h⟩ | ⟨s, hs, ⟨-, h⟩ | ⟨r, hr, ⟨_, _, _, heq, -⟩ | ⟨_, _, _, -, h⟩⟩⟩
  · rw [h]
  · rw [h]
    exact hsup s hs
  · cases heq
  · have hid : r.info.id ≠ id := by
      rw [(hl.processes i.number r hr).1]
      exact Ne.symm hne
    rw [h, life_processEnded, if_neg hid]
    exact hsup s hs

/-- The end of a process is put on its handle, and passed on when something is kept of it. -/
theorem life_exited (hl : l.Sound p) (i : ProcessId) (status : ExitStatus)
    (fault : Option String) :
    ((l.life i).handle = none ∧ (l.onNotice (.exited i status fault)).life i = l.life i) ∨
      ∃ h, (l.life i).handle = some h ∧
        (((l.life i).entry = none ∧
            (l.onNotice (.exited i status fault)).life i =
              { l.life i with handle := some { h with status := some status } }) ∨
          ∃ r, (l.life i).entry = some r ∧
            (l.onNotice (.exited i status fault)).life i =
              { l.life i with
                handle := some { h with status := some status }
                inFlight := (l.life i).inFlight ++ [.processExited r.info status] }) := by
  rcases l.supervisor.absorb?_cases (.exited i status fault) with
      ⟨hf, hn⟩ | ⟨h, hf, ⟨_, _, _, heq, hu⟩ | ⟨_, _, _, heq, -⟩⟩
  · left
    rcases l.onNotice_cases (.exited i status fault) with ⟨-, h⟩ | ⟨s, hs, -⟩
    · exact ⟨hf, by rw [h]⟩
    · rw [hs] at hn
      cases hn
  · cases heq
    have hid : h.id = i := hl.supervisor i.number h hf
    have hlife : ∀ s, l.supervisor.absorb? (.exited i status fault) = some s →
        ({ l with supervisor := s } : Launch).life i =
          { l.life i with handle := some { h with status := some status } } := by
      intro s hs
      rw [hs] at hu
      rw [Option.some.inj hu, life_update, if_pos hid.symm]
    refine .inr ⟨h, hf, ?_⟩
    rcases l.onNotice_cases (.exited i status fault) with
        ⟨hn, -⟩ | ⟨s, hs, ⟨hr, hm⟩ | ⟨r, hr, ⟨_, _, _, heq, -⟩ | ⟨_, _, _, heq, hm⟩⟩⟩
    · rw [hu] at hn
      cases hn
    · rw [hm]
      exact .inl ⟨hr, hlife s hs⟩
    · cases heq
    · cases heq
      refine .inr ⟨r, hr, ?_⟩
      rw [hm, life_processEnded, if_pos (hl.processes i.number r hr).1, hlife s hs]
  · cases heq

/-- A notice is a step in the life of its process. -/
theorem life_notice {a : Arrival} {n : Notice} (hl : l.Sound p) (hc : l.context.current = none)
    (hp : l.context.pending = []) (ha : a.message = .notice n) (id : ProcessId) :
    LifeStep p id (l.life id) (((l.arrive a).onNotice n).life id) := by
  have hnone : (l.life id).inFlight = [] := by
    show l.endsInFlight id = []
    unfold endsInFlight
    rw [hc, hp]
    rfl
  -- No event waits when a message is handled, so no end is in flight before.
  have harrived := hl.arrive a
  have harrive := life_arrive l a id
  rw [ha] at harrive
  cases n with
  | output i stream line =>
      change (l.arrive a).life id = l.life id at harrive
      rcases life_output harrived i stream line id with h | ⟨g, g', hf, hs, hid, h⟩
      · rw [h, harrive]
        exact .stay
      · rw [h, harrive]
        exact .touch g g' hf hs hid
  | exited i status fault =>
      by_cases hsame : id = i
      · subst hsame
        have hseen : (Occurrence.received (.notice (.exited id status fault))).tellsEndOf id =
            true := decide_eq_true rfl
        rw [hseen, Bool.true_or] at harrive
        rcases life_exited harrived id status fault with ⟨hf, h⟩ | ⟨g, hf, ⟨hr, h⟩ | ⟨r, hr, h⟩⟩
        · rw [h, harrive]
          exact .unknown hf
        · rw [h, harrive]
          exact .unkept g status hf hr
        · rw [h, harrive]
          have hexit : LifeStep p id (l.life id) _ := .exit g r status hf hr hnone
          rw [hnone]
          exact hexit
      · have hseen : (Occurrence.received (.notice (.exited i status fault))).tellsEndOf id =
            false := decide_eq_false (Ne.symm hsame)
        rw [hseen, Bool.false_or] at harrive
        rw [life_exited_of_ne harrived hsame, harrive]
        exact .stay

end Launch

/-- **A move is a few steps in the life of every process.** -/
theorem Move.life (h : Move p l m) (hl : l.Sound p) (id : ProcessId) :
    LifeSteps p id (l.life id) (m.life id) := by
  have hstay : ∀ {n : Launch}, n.life id = l.life id →
      LifeSteps p id (l.life id) (n.life id) := by
    intro n hn
    rw [hn]
  cases h with
  | effect h => exact .single (h.life hl.supervisor id)
  | take e rest hp hc hs =>
      refine hstay (Life.ext rfl rfl rfl rfl rfl ?_ rfl rfl)
      show ((some e).toList ++ rest).filter _ = l.endsInFlight id
      unfold Launch.endsInFlight
      rw [hc, hp]
      rfl
  | ignore e rest hp hc he hs =>
      refine hstay (Life.ext rfl rfl rfl rfl rfl ?_ rfl rfl)
      have hnot : e.isEndOf id = false := by
        cases e <;> first | rfl | cases he
      show (l.context.current.toList ++ rest).filter _ = l.endsInFlight id
      unfold Launch.endsInFlight
      rw [hc, hp, Option.toList_none, List.nil_append, List.nil_append,
        List.filter_cons_of_neg (by simp [hnot])]
  | answer e h writer as hc hf hm hy has => exact hstay rfl
  | decline e h writer hc hf hm hy => exact hstay rfl
  | resume cause as scope hcause has => exact hstay rfl
  | close e hc hs he =>
      cases hid : e.isEndOf id with
      | false => exact hstay (Launch.life_closeTurn_of_not hc hid)
      | true =>
          obtain ⟨rest, hrest, hlife⟩ := Launch.life_closeTurn hc hid
          rw [hlife]
          cases e with
          | processExited q status =>
              have hq : q.id = id := of_decide_eq_true hid
              subst hq
              exact .single (.close _ rest hrest (he q status rfl))
          | _ => cases hid
  | release q status r hc hr =>
      by_cases hid : q.id = id
      · subst hid
        have hend : (Event.processExited q status).isEndOf q.id = true := decide_eq_true rfl
        obtain ⟨rest, hrest, hlife⟩ := Launch.life_closeTurn hc hend
        rw [Launch.life_releaseProcess, hlife]
        exact .single (.release _ rest r hrest hr)
      · rw [Launch.life_releaseProcess_of_ne (Ne.symm hid)]
        exact hstay (Launch.life_closeTurn_of_not hc (decide_eq_false hid))
  | shutdown reason due hc hb =>
      obtain ⟨deadline, heffects⟩ := Launch.beginShutdown_effects (p := p) hb
      have hbegun := (hl.closeTurn (.shutdownRequested reason due)).withShutdown reason deadline
      have hsame : ((l.closeTurn (.shutdownRequested reason due)).withShutdown reason
          deadline).life id = l.life id := Launch.life_closeTurn_of_not hc rfl
      rw [← hsame]
      exact heffects.life hbegun id
  | arrive a hc hp ha =>
      apply hstay
      rw [Launch.life_arrive]
      obtain ⟨time, host, message⟩ := a
      cases message with
      | notice n => exact absurd rfl (ha n)
      | timerFired _ => rfl
      | interrupt => rfl
      | graceElapsed => rfl
  | notice a n hc hp ha => exact .single (Launch.life_notice hl hc hp ha id)
  | elapse i t hc hp ht =>
      apply hstay
      unfold Launch.elapse
      dsimp only
      split
      · rfl
      · exact Launch.life_emit_of_not rfl _
  | kill hc hp hs =>
      rcases Launch.killRemaining_effects (p := p) l with h | h
      · rw [h]
      · exact h.life hl.forced id

theorem Moves.life (h : Moves p l m) (hl : l.Sound p) (id : ProcessId) :
    LifeSteps p id (l.life id) (m.life id) := by
  induction h with
  | refl => exact .refl
  | tail hbefore hlast ih => exact ih.trans (hlast.life (hl.moves hbefore) id)

end Conductor
