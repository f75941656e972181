import Conductor.Proofs.Launch.Accounts
import Conductor.Proofs.Launch.Course
import Conductor.Proofs.Launch.Queue
import Conductor.Proofs.Launch.Timing

/-!
# Every error has its record, or is a fault of a handler or of the supervision

Besides activations that fail, three things report an error: a handler whose body fails, a signal
that cannot be sent, and the end of a process whose manner is not known. They are told here for
each event and each message (`Launch.dispatchFaults`, `Launch.receiveFaults`), and collected along
a run (`Suffers`). The errors of a report are an interleaving of them with one error for each
record that has failed.
-/

namespace Conductor

/-! ## Faults that belong to no record -/

/-- Why the body of the handler fails on an event, if it does. -/
def RegisteredHandler.fault? (h : RegisteredHandler) (e : Event) (c : Context) :
    Option LaunchError :=
  match h.handler.body.produce e c with
  | .failure err => some (.handler h.reportedName err.message)
  | _ => none

/-- Why a process that is alive cannot be sent a signal, if it has not been sent it before. -/
def ProcessHandle.fault? (h : ProcessHandle) (host : Host) (signal : Signal) :
    Option LaunchError :=
  if h.wasSent signal then none
  else
    match host.signal h.id signal with
    | .error fault => some (.supervision (SupervisorError.signal h.pid signal fault).message)
    | .ok _ => none

namespace Launch

/-- What goes wrong when the handler of a number is asked. -/
def answerFault? (l : Launch) (e : Event) (id : Nat) : Option LaunchError :=
  (l.registry.find? id).bind (·.fault? e l.context)

/-- What goes wrong when handlers are asked one after the other. -/
def turnFaults (e : Event) : Nat → List Nat → Launch → List LaunchError
  | _, [], _ => []
  | writer, id :: rest, l =>
      (l.answerFault? e id).toList ++ turnFaults e (writer + 1) rest (l.answer e writer id)

/-- What goes wrong when every living process is sent a signal. -/
def signalFaults (l : Launch) (signal : Signal) : List LaunchError :=
  (l.supervisor.handles.values.filter (·.isAlive)).filterMap (·.fault? l.context.host signal)

/-- What goes wrong when an event is dispatched: first with its handlers, then, if it is the
request that begins the shutdown, with the signals to the living processes. -/
def dispatchFaults (l : Launch) (e : Event) : List LaunchError :=
  if e.isShutdownRequest && l.shutdown.isSome then []
  else
    let turn := (l.happen (.dispatched e)).openTurn e
    turnFaults e 0 turn.1 turn.2 ++
      if e.isShutdownRequest then (answerAll e 0 turn.1 turn.2).signalFaults .terminate else []

/-- What goes wrong with a notice: the manner of the end of a process is not known that has not
been given up. -/
def noticeFaults (l : Launch) : Notice → List LaunchError
  | .exited id _ (some text) =>
      match l.supervisor.find? id, l.processes.get? id.number with
      | some _, some p => [.supervision (p.info.name ++ ": " ++ text)]
      | _, _ => []
  | _ => []

/-- What goes wrong when a message is handled that has arrived. -/
def handleFaults (l : Launch) : Message → List LaunchError
  | .notice n => l.noticeFaults n
  | .timerFired _ => []
  | .interrupt => if l.context.shuttingDown then l.signalFaults .kill else []
  | .graceElapsed => if l.shutdown.isSome then l.signalFaults .kill else []

end Launch

/-- A run has come to a standing, and these faults have come up until then that belong to no
record. -/
inductive Suffers (config : Config) (host : Host) (args : LaunchArguments)
    (description : List Action) : List LaunchError → Standing → Prop where
  | begin : Suffers config host args description []
      (.waiting (.begin config host args description))
  | dispatch {faults : List LaunchError} {l m : Launch} {e : Event} {rest : List Event}
      (h : Suffers config host args description faults (.waiting l))
      (hp : l.context.pending = e :: rest) (hd : (l.withoutNext rest).dispatch e = .ok m) :
      Suffers config host args description (faults ++ (l.withoutNext rest).dispatchFaults e)
        (.waiting m)
  | idle {faults : List LaunchError} {l : Launch}
      (h : Suffers config host args description faults (.waiting l)) (hi : l.isIdle = true) :
      Suffers config host args description faults (.ended l)
  | receive {faults : List LaunchError} {l : Launch} (a : Arrival)
      (h : Suffers config host args description faults (.waiting l))
      (hp : l.context.pending = []) (hi : l.isIdle = false) :
      Suffers config host args description (faults ++ (l.arrive a).handleFaults a.message)
        (l.receive a)

section Runs

variable {config : Config} {host : Host} {args : LaunchArguments} {description : List Action}
  {faults : List LaunchError} {x : Standing}

theorem Reachable.exists_suffers (h : Reachable config host args description x) :
    ∃ faults, Suffers config host args description faults x := by
  induction h with
  | begin => exact ⟨[], .begin⟩
  | dispatch _ hp hd ih =>
      obtain ⟨faults, hf⟩ := ih
      exact ⟨_, hf.dispatch hp hd⟩
  | idle _ hi ih =>
      obtain ⟨faults, hf⟩ := ih
      exact ⟨faults, hf.idle hi⟩
  | receive a _ hp hi ih =>
      obtain ⟨faults, hf⟩ := ih
      exact ⟨_, hf.receive a hp hi⟩

theorem Suffers.reachable (h : Suffers config host args description faults x) :
    Reachable config host args description x := by
  induction h with
  | begin => exact .begin
  | dispatch _ hp hd ih => exact ih.dispatch hp hd
  | idle _ hi ih => exact ih.idle hi
  | receive a _ hp hi ih => exact ih.receive a hp hi

end Runs

/-! ## Signals -/

/-- No process has two handles. -/
theorem Supervisor.Keyed.nodup_ids {s : Supervisor} (hs : s.Keyed) :
    (s.handles.values.map (·.id)).Nodup := by
  unfold Table.values
  rw [List.map_map]
  refine List.pairwise_map.mpr (s.handles.ordered.imp_of_mem fun {x y} hx hy hlt heq => ?_)
  have hidx := hs x.1 x.2 (Table.get?_eq_some_iff.mpr hx)
  have hidy := hs y.1 y.2 (Table.get?_eq_some_iff.mpr hy)
  rw [Function.comp_apply, Function.comp_apply, hidx, hidy] at heq
  exact Nat.ne_of_lt hlt (congrArg ProcessId.number heq)

/-- A signal to one process leaves the handles of the others alone. -/
theorem Supervisor.find?_send_of_ne (host : Host) {s : Supervisor} {h : ProcessHandle}
    {id : ProcessId} (hf : s.find? h.id = some h) (hne : id ≠ h.id) (signal : Signal) :
    (s.send host h.id signal).2.find? id = s.find? id := by
  have hnumber : id.number ≠ h.id.number := fun heq => hne (congrArg ProcessId.mk heq)
  rcases s.send_cases host h.id signal with ⟨-, hs⟩ | ⟨-, -, -, hs⟩ | ⟨g, n, hg, -, -, hs⟩
  · rw [hs]
  · rw [hs]
  · rw [hf] at hg
    cases hg
    rw [hs]
    show (s.update (h.markSent signal)).find? id = s.find? id
    rw [find?_update, ProcessHandle.id_markSent, if_neg hnumber]

namespace Launch

variable {l m : Launch} {faults : List LaunchError} {opened : List Nat}

theorem Accounted.sendSignal (hl : l.Accounted faults opened) {h : ProcessHandle}
    (hf : l.supervisor.find? h.id = some h) (ha : h.isAlive = true) (signal : Signal) :
    (l.sendSignal signal h.id).Accounted
      (faults ++ (h.fault? l.context.host signal).toList) opened := by
  have hsent : ∀ s, ({ l with supervisor := s } : Launch).Accounted faults opened := fun s =>
    hl.keep (sameBooks_supervisor l s) (unfailing_of_same rfl)
  unfold Launch.sendSignal Supervisor.send ProcessHandle.fault?
  rw [hf]
  dsimp only
  rw [ha, Bool.not_true, Bool.false_or]
  cases h.wasSent signal with
  | true =>
      rw [if_pos rfl, if_pos rfl, Option.toList_none, List.append_nil]
      exact hsent l.supervisor
  | false =>
      rw [if_neg Bool.false_ne_true, if_neg Bool.false_ne_true]
      cases l.context.host.signal h.id signal with
      | error fault => exact (hsent _).report _
      | ok delivered =>
          dsimp only
          rw [Option.toList_none, List.append_nil]
          cases delivered with
          | false => exact hsent _
          | true => exact (hsent _).happen rfl rfl

/-- Processes are sent a signal one after the other; none of them disturbs the next one. -/
theorem Accounted.sendSignals {hs : List ProcessHandle} (hl : l.Accounted faults opened)
    (hdistinct : (hs.map (·.id)).Nodup)
    (hs' : ∀ h ∈ hs, l.supervisor.find? h.id = some h ∧ h.isAlive = true) (signal : Signal) :
    (hs.foldl (fun l h => l.sendSignal signal h.id) l).Accounted
      (faults ++ hs.filterMap (·.fault? l.context.host signal)) opened := by
  induction hs generalizing l faults with
  | nil =>
      rw [List.filterMap_nil, List.append_nil]
      exact hl
  | cons h rest ih =>
      obtain ⟨hnot, hrest⟩ := List.nodup_cons.mp hdistinct
      obtain ⟨⟨hf, ha⟩, hothers⟩ := List.forall_mem_cons.mp hs'
      have hhost : (l.sendSignal signal h.id).context.host = l.context.host :=
        (sendSignal_effects (p := fun _ => True) signal h.id l).sameLoop.host
      have hnext := ih (hl.sendSignal hf ha signal) hrest fun g hg => by
        refine ⟨?_, (hothers g hg).2⟩
        have hne : g.id ≠ h.id := fun heq => hnot (List.mem_map.mpr ⟨g, hg, heq⟩)
        rw [supervisor_sendSignal, Supervisor.find?_send_of_ne _ hf hne]
        exact (hothers g hg).1
      rw [hhost, List.append_assoc] at hnext
      have hfaults : (h :: rest).filterMap (·.fault? l.context.host signal) =
          (h.fault? l.context.host signal).toList ++
            rest.filterMap (·.fault? l.context.host signal) := by
        cases hc : h.fault? l.context.host signal with
        | none => exact List.filterMap_cons_none hc
        | some e => exact List.filterMap_cons_some hc
      rw [hfaults]
      exact hnext

theorem Accounted.signalLive (hl : l.Accounted faults opened) (hk : l.supervisor.Keyed)
    (signal : Signal) :
    (l.signalLive signal).Accounted (faults ++ l.signalFaults signal) opened := by
  unfold Launch.signalLive Supervisor.live
  rw [List.foldl_map]
  have hsub := (List.filter_sublist (l := l.supervisor.handles.values)
    (p := (·.isAlive))).map (·.id)
  refine hl.sendSignals (hk.nodup_ids.sublist hsub) (fun h hh => ?_) signal
  obtain ⟨hmem, ha⟩ := List.mem_filter.mp hh
  obtain ⟨k, hget⟩ := Table.mem_values_iff.mp hmem
  refine ⟨?_, ha⟩
  unfold Supervisor.find?
  rw [hk k h hget]
  exact hget

theorem Accounted.killRemaining (hl : l.Accounted faults opened) (hk : l.supervisor.Keyed) :
    l.killRemaining.Accounted (faults ++ l.signalFaults .kill) opened := by
  unfold Launch.killRemaining
  split
  · rename_i hempty
    have hnone : l.signalFaults .kill = [] := by
      have hlive : l.supervisor.handles.values.filter (·.isAlive) = [] :=
        List.map_eq_nil_iff.mp (List.isEmpty_iff.mp hempty)
      unfold signalFaults
      rw [hlive]
      rfl
    rw [hnone, List.append_nil]
    exact hl
  · have hforced : ({ l with forced := true } : Launch).Accounted faults opened :=
      hl.keep (sameBooks_of_eq [] rfl rfl rfl rfl rfl (by simp)) (unfailing_of_same rfl)
    exact hforced.signalLive hk .kill

/-! ## Turns -/

theorem Accounted.answer (hl : l.Accounted faults opened) (e : Event) (writer id : Nat) :
    (l.answer e writer id).Accounted (faults ++ (l.answerFault? e id).toList) opened := by
  have hasked : ∀ registry, ({ l with
      registry, context := l.context.setWriter writer } : Launch).Accounted faults opened :=
    fun registry => hl.keep (sameBooks_of_eq [] rfl rfl rfl rfl rfl (by simp))
      (unfailing_of_same rfl)
  unfold Launch.answer Registry.respond answerFault? RegisteredHandler.fault?
  cases l.registry.find? id with
  | none =>
      rw [Option.bind_none, Option.toList_none, List.append_nil]
      exact hl
  | some h =>
      rw [Option.bind_some]
      dsimp only
      unfold activateResponse
      cases h.handler.body.produce e l.context with
      | actions as =>
          dsimp only
          rw [Option.toList_none, List.append_nil]
          exact (hasked _).activateBody _ as _
      | interrupt =>
          dsimp only
          rw [Option.toList_none, List.append_nil]
          exact ((hasked _).happen (o := .interrupted) rfl rfl).activateBody _ [] _
      | failure err => exact (hasked _).report _

theorem Accounted.answerAll (hl : l.Accounted faults opened) (e : Event) (writer : Nat)
    (ids : List Nat) :
    (Launch.answerAll e writer ids l).Accounted (faults ++ turnFaults e writer ids l) opened := by
  induction ids generalizing l faults writer with
  | nil =>
      rw [turnFaults, List.append_nil]
      exact hl
  | cons id rest ih =>
      have hnext := ih (hl.answer e writer id) (writer + 1)
      rw [List.append_assoc] at hnext
      exact hnext

theorem Accounted.closeTurn (hl : l.Accounted faults opened) (e : Event) :
    (l.closeTurn e).Accounted faults opened :=
  hl.keep (sameBooks_closeTurn l e) (unfailing_of_cons (o := .turnEnded e) rfl rfl)

/-- Cancelling timers changes neither the processes nor the machine. -/
theorem supervisor_cancelTimers (why : String) (ids : List Nat) (l : Launch) :
    (l.cancelTimers why ids).supervisor = l.supervisor ∧
      (l.cancelTimers why ids).context = l.context := by
  induction ids generalizing l with
  | nil => exact ⟨rfl, rfl⟩
  | cons id rest ih =>
      obtain ⟨hs, hc⟩ := ih (l.cancelTimer why id)
      refine ⟨hs.trans ?_, hc.trans (context_cancelTimer why id l)⟩
      rcases cancelTimer_cases why id l with ⟨-, h⟩ | ⟨t, -, h⟩
      · rw [h]
      · rw [h]

/-- The shutdown begins with a signal to every living process. -/
theorem Accounted.beginShutdown (hl : l.Accounted faults opened) (hk : l.supervisor.Keyed)
    {reason : String} (h : l.beginShutdown reason = .ok m) :
    m.Accounted (faults ++ l.signalFaults .terminate) opened := by
  obtain ⟨deadline, -, rfl⟩ := beginShutdown_eq h
  have hbegun : (l.withShutdown reason deadline).Accounted faults opened :=
    hl.keep (sameBooks_withShutdown l reason deadline)
      (unfailing_of_cons (o := .shutdownBegan reason) rfl rfl)
  obtain ⟨hs, hc⟩ := supervisor_cancelTimers "cancelled by shutdown" l.cancelledByShutdown
    (l.withShutdown reason deadline)
  have hsignalled := (hbegun.cancelTimers "cancelled by shutdown"
    l.cancelledByShutdown).signalLive (hs ▸ hk) .terminate
  have hfaults : ((l.withShutdown reason deadline).cancelTimers "cancelled by shutdown"
      l.cancelledByShutdown).signalFaults .terminate = l.signalFaults .terminate := by
    unfold signalFaults
    rw [hs, hc]
    rfl
  rw [hfaults] at hsignalled
  exact hsignalled

/-- A process is given up, and started again if it asks for it. -/
theorem Accounted.finishProcess (hl : l.Accounted faults []) (id : ProcessId) :
    (l.finishProcess id).Accounted faults [] := by
  have hreleased : (l.releaseProcess id).Accounted faults [] := by
    refine hl.keep (sameBooks_releaseProcess l id) ?_
    rcases l.releaseProcess_cases id with ⟨-, h⟩ | ⟨g, -, -, h⟩
    · rw [h]
      exact unfailing_of_same rfl
    · rw [h]
      exact unfailing_of_cons (o := .released g) rfl rfl
  unfold Launch.finishProcess
  split
  · exact hl
  · rename_i r _
    rw [respawn_eq]
    split
    · exact hreleased
    · split
      · exact hreleased.activateBody _ _ _
      · have hnobody : (l.releaseProcess id).Accounted faults ((none : Option Nat).toList ++ []) :=
          hreleased
        exact hnobody.schedule _ _ _ _

/-- **The dispatch of an event adds its faults to the accounts.** -/
theorem Accounted.dispatch (hl : l.Accounted faults []) (hsound : l.Sound fun _ => True) {e : Event}
    (h : l.dispatch e = .ok m) : m.Accounted (faults ++ l.dispatchFaults e) [] := by
  unfold dispatchFaults
  rcases dispatch_cases h with ⟨he, hs, rfl⟩ | ⟨hs, hend⟩
  · rw [he, hs, Bool.and_self, if_pos rfl, List.append_nil]
    exact hl.happen rfl rfl
  · have hheard : ¬ (e.isShutdownRequest && l.shutdown.isSome) = true := by
      intro hboth
      rw [Bool.and_eq_true] at hboth
      rw [hs hboth.1] at hboth
      cases hboth.2
    rw [if_neg hheard]
    let turn := (l.happen (.dispatched e)).openTurn e
    have htold : (l.happen (.dispatched e)).Sound fun _ => True :=
      hsound.same rfl rfl rfl rfl rfl rfl
    have hturn : turn.2.Accounted faults [] := by
      refine Accounted.keep ?_ (sameBooks_openTurn _ e) (unfailing_of_same rfl)
      exact hl.happen (o := .dispatched e) rfl rfl
    have hasked := hturn.answerAll e 0 turn.1
    have hkeyed : (Launch.answerAll e 0 turn.1 turn.2).supervisor.Keyed :=
      ((htold.openTurn e).strides (openTurn_strides htold)).supervisor
    have hclosed := hasked.closeTurn e
    cases e with
    | shutdownRequested reason due =>
        have hbegun := hclosed.beginShutdown hkeyed hend
        rw [List.append_assoc] at hbegun
        exact hbegun
    | processExited q status =>
        cases hend
        exact (List.append_nil (turnFaults _ 0 turn.1 turn.2)).symm ▸
          hclosed.finishProcess q.id
    | _ =>
        cases hend
        exact (List.append_nil (turnFaults _ 0 turn.1 turn.2)).symm ▸ hclosed

/-! ## Messages -/

/-- A notice is taken in exactly if its process has a handle. -/
theorem absorb?_eq_none_iff {s : Supervisor} {n : Notice} :
    s.absorb? n = none ↔ s.find? n.process = none := by
  rcases s.absorb?_cases n with
      ⟨hf, ha⟩ | ⟨g, hf, ⟨_, _, _, -, ha⟩ | ⟨_, _, _, -, ⟨_, ha⟩ | ⟨_, ha⟩⟩⟩
  · exact ⟨fun _ => hf, fun _ => ha⟩
  all_goals
    rw [ha, hf]
    exact ⟨nofun, nofun⟩

theorem noticeFaults_of_unknown {n : Notice} (h : l.supervisor.find? n.process = none ∨
    l.processes.get? n.process.number = none) : l.noticeFaults n = [] := by
  unfold noticeFaults
  split
  · split
    · rename_i hf hr
      rcases h with h | h
      · cases hf.symm.trans h
      · cases hr.symm.trans h
    · rfl
  · rfl

theorem Accounted.onNotice (hl : l.Accounted faults []) (n : Notice) :
    (l.onNotice n).Accounted (faults ++ l.noticeFaults n) [] := by
  have htaken : ∀ s, ({ l with supervisor := s } : Launch).Accounted faults [] := fun s =>
    hl.keep (sameBooks_supervisor l s) (unfailing_of_same rfl)
  have hemit : ∀ {k : Launch} {fs} e, k.Accounted fs [] → (k.emit e).Accounted fs [] :=
    fun e hk => hk.keep (sameBooks_emit _ e) (unfailing_of_cons (o := .emitted e) rfl rfl)
  rcases l.onNotice_cases n with
    ⟨hn, h⟩ | ⟨s, hs, ⟨hr, h⟩ | ⟨r, hr, ⟨id, stream, line, rfl, h⟩ | ⟨id, status, fault, rfl, h⟩⟩⟩
  · rw [h, noticeFaults_of_unknown (.inl (absorb?_eq_none_iff.mp hn)), List.append_nil]
    exact hl
  · rw [h, noticeFaults_of_unknown (.inr hr), List.append_nil]
    exact htaken s
  · rw [h]
    exact (List.append_nil faults).symm ▸ hemit _ (htaken s)
  · have hreported : (({ l with supervisor := s } : Launch).reportFault r.info.name
        fault).Accounted (faults ++ l.noticeFaults (.exited id status fault)) [] := by
      cases fault with
      | none => exact (List.append_nil faults).symm ▸ htaken s
      | some text =>
          obtain ⟨g, hg⟩ : ∃ g, l.supervisor.find? id = some g := by
            rw [← Option.ne_none_iff_exists']
            intro hf
            rw [absorb?_eq_none_iff.mpr hf] at hs
            cases hs
          have hfaults : l.noticeFaults (.exited id status (some text)) =
              [.supervision (r.info.name ++ ": " ++ text)] := by
            have hkept : l.processes.get? id.number = some r := hr
            unfold noticeFaults
            simp only [hg, hkept]
          rw [hfaults]
          exact (htaken s).report _
    rw [h]
    exact hemit _ ((hreported.note r.record status.text).advance (by simp) (by simp))

theorem Accounted.elapse (hl : l.Accounted faults []) (id : Nat) (t : Timer) :
    (l.elapse id t).Accounted faults [] := by
  have hfired := hl.dropTimer id (o := .fired id) rfl
  unfold Launch.elapse
  dsimp only
  split
  · exact hfired
  · exact (hfired.advance (by simp) (by simp)).keep (sameBooks_emit _ (.timerElapsed id))
      (unfailing_of_cons (o := .emitted (.timerElapsed id)) rfl rfl)

/-- **A message that is handled adds its faults to the accounts.** -/
theorem Accounted.receive (hl : l.Accounted faults []) (hk : l.supervisor.Keyed) (a : Arrival) :
    (l.receive a).launch.Accounted (faults ++ (l.arrive a).handleFaults a.message) [] := by
  have harrived : (l.arrive a).Accounted faults [] :=
    hl.keep (sameBooks_arrive l a) (unfailing_of_cons (o := .received a.message) rfl rfl)
  unfold Launch.receive Launch.handle handleFaults
  cases a.message with
  | notice n => exact harrived.onNotice n
  | timerFired id =>
      refine (List.append_nil faults).symm ▸ ?_
      show ((l.arrive a).fireTimer id).Accounted faults []
      unfold Launch.fireTimer
      split
      · exact harrived
      · rename_i t _
        exact (harrived.elapse id t).activateBody _ _ _
  | interrupt =>
      dsimp only
      split
      · exact harrived.killRemaining hk
      · rw [List.append_nil]
        exact harrived.keep (sameBooks_requestShutdown _ _ _) (unfailing_requestShutdown _ _ _)
  | graceElapsed =>
      dsimp only
      split
      · exact harrived.killRemaining hk
      · rw [List.append_nil]
        exact harrived

theorem accounted_start (config : Config) (host : Host) (args : LaunchArguments) :
    (start config host args).Accounted [] [] := by
  refine ⟨⟨[], rfl, .nil⟩, .nil, fun k reason => ?_, .nil, by simp, by simp [start]⟩
  have hempty : (start config host args).journal.stage? k = none := Journal.stage?_empty k
  rw [hempty]
  constructor
  · intro hstage
    cases hstage
  · intro hmem
    cases hmem

end Launch

/-! ## Runs -/

section Runs

variable {config : Config} {host : Host} {args : LaunchArguments} {description : List Action}
  {faults : List LaunchError} {x : Standing}

/-- **Between two messages and between two events the accounts are in order.** -/
theorem Suffers.accounted (h : Suffers config host args description faults x) :
    x.launch.Accounted faults [] := by
  induction h with
  | begin =>
      exact (Launch.upheld_accounted []).activateAll description
        (Launch.accounted_start config host args)
  | @dispatch faults l m e rest hbefore hp hd ih =>
      have hsound := hbefore.reachable.sound (Action.every_true description)
      have htaken : (l.withoutNext rest).Accounted faults [] :=
        ih.keep (Launch.sameBooks_withoutNext l rest) (Launch.unfailing_of_same rfl)
      exact htaken.dispatch (hsound.same rfl rfl rfl rfl rfl rfl) hd
  | idle _ _ ih => exact ih
  | receive a hbefore _ _ ih => exact ih.receive hbefore.reachable.keyed a

/-- What has failed when the report is made had failed before. -/
theorem Launch.failedRecords_closing (l : Launch) :
    l.closing.failedRecords = l.failedRecords :=
  filterMap_occurrences_closing fun _ => rfl

/-- **Every error has its record or its fault, and the other way round.** Every run has a list of
the faults that belong to no record: bodies of handlers that fail, signals that cannot be sent,
and ends of processes whose manner is not known. Let the run come to any point, its end among
them. The errors that a report shows then are, in their order, an interleaving of these faults
with errors of records, one for each activation that has failed, in the order in which they
failed. No record has two such errors, the text of the error is the reason of the failure, and
the records that stand as failed in the report are exactly those that have one. -/
theorem errors_of_failed_records :
    (∀ x, Reachable config host args description x →
      ∃ faults, Suffers config host args description faults x) ∧
    ∀ faults x, Suffers config host args description faults x →
      ∃ xs : List (Nat × ReportedError),
        Interleaves (xs.map (·.2)) (faults.map (·.reported)) x.launch.finish.errors ∧
        xs.map (fun y => (y.1, y.2.message)) = x.launch.failedRecords ∧
        (xs.map (·.1)).Nodup ∧
        ∀ k reason, (∃ r, x.launch.finish.records[k]? = some r ∧ r.stage = .failed reason) ↔
          ∃ e, (k, e) ∈ xs ∧ e.message = reason := by
  refine ⟨fun x hx => hx.exists_suffers, fun faults x hx => ?_⟩
  have hclosing : x.launch.closing.Accounted faults [] := hx.accounted.cancelTimers _ _
  obtain ⟨xs, hxs, hinter⟩ := hclosing.errors
  refine ⟨xs, hinter, hxs.trans x.launch.failedRecords_closing, ?_, fun k reason => ?_⟩
  · have hkeys : xs.map (·.1) = x.launch.closing.failedRecords.map (·.1) := by
      rw [← hxs, List.map_map]
      rfl
    rw [hkeys]
    exact hclosing.once
  · have hstage : (∃ r, x.launch.finish.records[k]? = some r ∧ r.stage = .failed reason) ↔
        x.launch.closing.journal.stage? k = some (.failed reason) := by
      unfold Journal.stage?
      rw [Option.map_eq_some_iff, Launch.records_finish, Array.getElem?_toList]
    rw [hstage, ← hclosing.failed, ← hxs, List.mem_map]
    constructor
    · rintro ⟨⟨k', e⟩, hmem, heq⟩
      obtain ⟨rfl, rfl⟩ := Prod.mk.inj heq
      exact ⟨e, hmem, rfl⟩
    · rintro ⟨e, hmem, rfl⟩
      exact ⟨(k, e), hmem, rfl⟩

end Runs

/-- An action that registers a handler whose body fails on every event of a kind. -/
def Action.balk (bits : BitVec 128) (kind : String) (e : LaunchError) : Action :=
  .mk ⟨bits⟩ none (.register (.mk none (.custom kind) (.computed fun _ _ => .failure e) false none))

/-- The errors of a run in which a timer cannot be scheduled and a handler fails. -/
def balkedErrors : List ReportedError :=
  [⟨"substitution_resolution", "substitution failed: timer period 'soon' is not a number"⟩,
    ⟨"handler", "event handler 'handler-0' failed: invalid config: no"⟩]

/-- Whether the run has ended with these errors and the second record has failed. -/
def Standing.hasBalked : Standing → Bool
  | .waiting _ => false
  | .ended l => l.finish.errors = balkedErrors &&
      (l.finish.records[1]?.map (·.stage)) =
        some (.failed "substitution failed: timer period 'soon' is not a number")

/-- One error is that of the record of the timer action, and the other one that of the handler. -/
theorem balked_errors_accounted :
    ∃ l faults, ∃ xs : List (Nat × ReportedError), Suffers .standard .willing []
        [.balk 1 "ping" (.config "no"), .later 2 "soon" [] true, .ring 3 "ping"] faults (.ended l) ∧
      l.finish.errors = balkedErrors ∧
      Interleaves (xs.map (·.2)) (faults.map (·.reported)) l.finish.errors ∧
      (xs.map (·.1)).Nodup ∧
      ∃ e : ReportedError, (1, e) ∈ xs ∧
        e.message = "substitution failed: timer period 'soon' is not a number" := by
  have hrun : Reachable.comesTo Standing.hasBalked ((Launch.begin .standard .willing []
      [.balk 1 "ping" (.config "no"), .later 2 "soon" [] true, .ring 3 "ping"]).run 9 []) =
      true := by decide +kernel
  obtain ⟨s, hs, hcheck⟩ := Reachable.exists_of_comesTo 9 _ hrun
  cases s with
  | waiting l => cases hcheck
  | ended l =>
      simp only [Standing.hasBalked, Bool.and_eq_true, decide_eq_true_eq] at hcheck
      obtain ⟨herrors, hstage⟩ := hcheck
      obtain ⟨hall, haccounts⟩ := @errors_of_failed_records .standard .willing []
        [.balk 1 "ping" (.config "no"), .later 2 "soon" [] true, .ring 3 "ping"]
      obtain ⟨faults, hfaults⟩ := hall _ hs
      obtain ⟨xs, hinter, -, honce, hfailed⟩ := haccounts faults _ hfaults
      obtain ⟨r, hr, hreason⟩ := Option.map_eq_some_iff.mp hstage
      exact ⟨l, faults, xs, hfaults, herrors, hinter, honce, (hfailed 1 _).mp ⟨r, hr, hreason⟩⟩

end Conductor
