import Conductor.Proofs.Launch.Course
import Conductor.Proofs.Launch.Follow
import Conductor.Proofs.Launch.Isolation

/-!
# Where what is left for later comes from

Timers, and what is kept of processes, are left for later by deeds, and by processes that are to
be started again after a delay. `Launch.Traced` says so of everything of this kind that stands on
the history, each time with the launch in which the deed was performed; besides, no scope but the
root is left between two bodies. `Course.traced` carries it along the course of a launch: bodies
leave behind only what their deeds do (`composed_leaves`), everything else nothing, but for the
wait before a process is started again.
-/

namespace Conductor

/-- Whether a body begins. -/
def Occurrence.isBeginning : Occurrence → Bool
  | .began .. => true
  | _ => false

namespace Launch

/-- Performing the deed of the action in the launch schedules the timer under the number. -/
structure Schedules (k : Launch) (b : Action) (id : Nat) (t : Timer) : Prop where
  deed : ∃ period cancel, b.deed = .timer period t.actions cancel
  history : ∃ seq, (perform seq b b.deed k).1.history = .scheduled id t :: k.history

/-- Performing the deed of its action in the launch starts the process, and what is to follow its
end is registered under the number. -/
structure Spawns (k : Launch) (r : RunningProcess) (w : Option Nat) : Prop where
  deed : ∃ t onExit, r.action.deed = .execute t onExit
  history : ∃ seq e spec, (perform seq r.action r.action.deed k).1.history =
    .kept r w :: .emitted e :: .started r.info.id spec :: k.history

/-- The timer was scheduled, right after the end of the process had its turn, as the wait before
the process is started again. -/
structure Postpones (l : Launch) (r : RunningProcess) (id : Nat) (t : Timer) : Prop where
  record : t.record = none
  actions : t.actions = [r.action]
  scope : t.scope = r.scope
  turn : ∃ newer freed older q status, l.history =
      newer ++ .scheduled id t :: (freed ++ .turnEnded (.processExited q status) :: older) ∧
    q.id = r.info.id ∧ ∀ o ∈ freed, ∃ h, o = .released h

end Launch

/-- If the occurrence leaves something for later, it is that of a deed that was performed. No body
begins. -/
def Occurrence.LeftBy (performed : Action → Launch → Prop) : Occurrence → Prop
  | .scheduled id t => ∃ b k, performed b k ∧ k.Schedules b id t
  | .kept r w => ∃ k, performed r.action k ∧ k.Spawns r w
  | .began .. => False
  | _ => True

namespace Launch

variable {l m n k : Launch} {performed performed' : Action → Launch → Prop}

/-! ## What deeds leave behind -/

theorem history_timer (l : Launch) (seq : Nat) (a : Action) (period : Template)
    (children : List Action) (cancel : Bool) :
    (l.performLeaf seq a (.timer period children cancel)).1.history = l.history ∨
      ∃ t : Timer, t.actions = children ∧ t.scope = l.context.snapshot ∧
        (l.performLeaf seq a (.timer period children cancel)).1.history =
          .scheduled l.nextTimer t :: l.history := by
  rw [performLeaf]
  split
  · exact .inl rfl
  · split
    · exact .inl rfl
    · exact .inr ⟨⟨some seq, children, l.context.snapshot, cancel, _⟩, rfl, rfl, rfl⟩

theorem history_execute (l : Launch) (seq : Nat) (a : Action) (t : ProcessTemplate)
    (onExit : List Action) :
    (l.execute seq a t onExit).1.history = l.history ∨
      ∃ (r : RunningProcess) (w : Option Nat) (e : Event) (spec : ProcessSpec), r.action = a ∧
        r.scope = l.context.snapshot ∧ r.info.id = ⟨l.supervisor.nextId⟩ ∧
        (l.execute seq a t onExit).1.history =
          .kept r w :: .emitted e :: .started r.info.id spec :: l.history := by
  unfold execute
  split
  · exact .inl rfl
  · dsimp only
    split
    · exact .inl rfl
    · rename_i spec _
      split
      · rename_i hs
        left
        rw [startProcess_error hs]
      · rename_i h m hs
        obtain ⟨hid, -, rfl⟩ := startProcess_ok hs
        obtain ⟨r, -, hinfo, hact, hscope, heq⟩ :=
          attend_eq (withStarted { l with attempts := l.attempts + 1 } h spec) seq a onExit
            spec.name h
        refine .inr ⟨r, if onExit.isEmpty then none else some l.registry.nextId,
          .processStarted r.info, spec, hact, hscope, ?_, ?_⟩
        · rw [hinfo]
          exact hid
        · rw [heq, hinfo]
          rfl

/-- A timer takes along the bindings of the launch in which it is scheduled. -/
theorem Schedules.scope {b : Action} {id : Nat} {t : Timer} (h : k.Schedules b id t) :
    t.scope = k.context.snapshot := by
  obtain ⟨period, cancel, hd⟩ := h.deed
  obtain ⟨seq, hh⟩ := h.history
  rw [hd] at hh
  rcases k.history_timer seq b period t.actions cancel with heq | ⟨t', -, hscope, heq⟩
  · exact absurd (hh.symm.trans heq) (List.cons_ne_self _ _)
  · have hsame := List.cons.inj (hh.symm.trans heq)
    cases hsame.1
    exact hscope

/-- A process takes along the bindings of the launch in which it is started, and gets the next
number there. -/
theorem Spawns.scope_and_number {r : RunningProcess} {w : Option Nat} (h : k.Spawns r w) :
    r.scope = k.context.snapshot ∧ r.info.id = ⟨k.supervisor.nextId⟩ := by
  obtain ⟨t, onExit, hd⟩ := h.deed
  obtain ⟨seq, e, spec, hh⟩ := h.history
  rw [hd] at hh
  rcases k.history_execute seq r.action t onExit with
    heq | ⟨r', w', e', spec', -, hscope, hid, heq⟩
  · have hlength := congrArg List.length (hh.symm.trans heq)
    simp only [List.length_cons] at hlength
    omega
  · have hsame := List.cons.inj (hh.symm.trans heq)
    cases hsame.1
    exact ⟨hscope, hid⟩

theorem Spawns.scope {r : RunningProcess} {w : Option Nat} (h : k.Spawns r w) :
    r.scope = k.context.snapshot :=
  h.scope_and_number.1

theorem Spawns.number {r : RunningProcess} {w : Option Nat} (h : k.Spawns r w) :
    r.info.id = ⟨k.supervisor.nextId⟩ :=
  h.scope_and_number.2

end Launch

namespace Occurrence.LeftBy

variable {performed performed' : Action → Launch → Prop} {o : Occurrence}

theorem mono (h : ∀ b k, performed b k → performed' b k) (ho : o.LeftBy performed) :
    o.LeftBy performed' := by
  cases o with
  | scheduled id t =>
      obtain ⟨b, k, hp, hs⟩ := ho
      exact ⟨b, k, h b k hp, hs⟩
  | kept r w =>
      obtain ⟨k, hp, hs⟩ := ho
      exact ⟨k, h _ k hp, hs⟩
  | began cause as scope => exact ho
  | _ => trivial

theorem of_isIncidental (ho : o.isIncidental = true) : o.LeftBy performed := by
  cases o with
  | scheduled id t => cases ho
  | kept r w => cases ho
  | began cause as scope => cases ho
  | _ => trivial

theorem isBeginning (ho : o.LeftBy performed) : o.isBeginning = false := by
  cases o with
  | began cause as scope => exact ho.elim
  | _ => rfl

end Occurrence.LeftBy

namespace Launch

variable {l m n k : Launch} {performed performed' : Action → Launch → Prop}

/-- What is new on the history has been left behind by the deeds that were performed. -/
def Leaves (performed : Action → Launch → Prop) (l m : Launch) : Prop :=
  ∃ os, m.history = os ++ l.history ∧ ∀ o ∈ os, o.LeftBy performed

theorem leaves_of_same (h : m.history = l.history) : Leaves performed l m :=
  ⟨[], h, by simp⟩

theorem leaves_of_cons {o : Occurrence} (h : m.history = o :: l.history)
    (ho : o.LeftBy performed) : Leaves performed l m :=
  ⟨[o], h, by simpa using ho⟩

theorem Leaves.mono (h : ∀ b k, performed b k → performed' b k) (hl : Leaves performed l m) :
    Leaves performed' l m := by
  obtain ⟨os, hos, hq⟩ := hl
  exact ⟨os, hos, fun o ho => (hq o ho).mono h⟩

theorem Leaves.trans (h : Leaves performed l m) (h' : Leaves performed m n) :
    Leaves performed l n := by
  obtain ⟨os, hos, hq⟩ := h
  obtain ⟨os', hos', hq'⟩ := h'
  refine ⟨os' ++ os, by rw [hos', hos, List.append_assoc], fun o ho => ?_⟩
  rcases List.mem_append.mp ho with ho | ho
  · exact hq' o ho
  · exact hq o ho

/-- The history only grows. -/
theorem Leaves.suffix_history (h : Leaves performed l m) : l.history <:+ m.history := by
  obtain ⟨os, hos, -⟩ := h
  exact ⟨os, hos.symm⟩

/-- No body begins. -/
theorem Leaves.filter_isBeginning (h : Leaves performed l m) :
    m.history.filter (·.isBeginning) = l.history.filter (·.isBeginning) := by
  obtain ⟨os, hos, hq⟩ := h
  have hnone : os.filter (·.isBeginning) = [] :=
    List.filter_eq_nil_iff.mpr fun o ho => by
      rw [(hq o ho).isBeginning]
      exact Bool.false_ne_true
  rw [hos, List.filter_append, hnone, List.nil_append]

theorem Aside.leaves (h : l.Aside m) : Leaves performed l m := by
  obtain ⟨os, hos, hq⟩ := h.history
  exact ⟨os, hos, fun o ho => .of_isIncidental (hq o ho)⟩

/-- Of the deeds without children, timers and processes leave something for later. -/
theorem leaves_performLeaf (l : Launch) (seq : Nat) (a : Action) (hleaf : a.deed.isLeaf = true) :
    Leaves (fun b k => b = a ∧ k = l) l (l.performLeaf seq a a.deed).1 := by
  have hperform : l.performLeaf seq a a.deed = perform seq a a.deed l := by
    rw [perform_eq, if_pos hleaf]
  cases hd : a.deed with
  | timer period children cancel =>
      rcases l.history_timer seq a period children cancel with heq | ⟨t, rfl, -, heq⟩
      · exact leaves_of_same heq
      · refine leaves_of_cons heq ⟨a, l, ⟨rfl, rfl⟩, ⟨period, cancel, hd⟩, seq, ?_⟩
        rw [← hperform, hd, heq]
  | execute t onExit =>
      rcases l.history_execute seq a t onExit with heq | ⟨r, w, e, spec, rfl, -, -, heq⟩
      · exact leaves_of_same heq
      · have hspawns : l.Spawns r w := by
          refine ⟨⟨t, onExit, hd⟩, seq, e, spec, ?_⟩
          rw [← hperform, hd]
          exact heq
        exact ⟨[_, _, _], heq, by simpa [Occurrence.LeftBy] using hspawns⟩
  | log level message =>
      rw [performLeaf]
      split
      · exact leaves_of_same rfl
      · exact leaves_of_cons rfl trivial
  | declare argument =>
      rw [performLeaf]
      split
      · exact leaves_of_same rfl
      · split <;> exact leaves_of_same rfl
  | setVariable target name value =>
      rw [performLeaf]
      split
      · exact leaves_of_same rfl
      · split <;> exact leaves_of_same rfl
  | setEnv name value =>
      rw [performLeaf]
      split <;> exact leaves_of_same rfl
  | unregister name => exact leaves_of_cons rfl trivial
  | emit e => exact leaves_of_cons rfl trivial
  | shutdown reason =>
      rw [performLeaf]
      split
      · exact leaves_of_same rfl
      · rename_i reason _
        have hask : Leaves (fun b k => b = a ∧ k = l) l (l.requestShutdown reason false).2 :=
          (aside_requestShutdown l reason false).leaves
        split
        · rename_i h
          rw [h] at hask
          exact hask
        · rename_i h
          rw [h] at hask
          exact hask
  | unsetVariable | unsetEnv | register | group | splice | compute => exact leaves_of_same rfl

/-- **An activation leaves behind only what the deeds that it performs do.** -/
theorem composed_leaves : Composed Leaves where
  mono := Leaves.mono
  trans := Leaves.trans
  aside := Aside.leaves
  enter _ := leaves_of_cons rfl trivial
  leave _ _ := leaves_of_cons rfl trivial
  leaf {seq a l} hleaf := leaves_performLeaf l seq a hleaf
  inside _ h := h

/-- A body leaves behind what its deeds do. -/
theorem leaves_activateBody (b : Beginning) :
    ∃ os, b.closed.history = os ++ b.occurrence :: b.launch.history ∧
      ∀ o ∈ os, o.LeftBy (BodyReaches b.actions b.opened) := by
  obtain ⟨cause, actions, scope, l⟩ := b
  cases scope with
  | none => exact composed_leaves.activateAll actions (l.happen (.began cause actions none))
  | some scope =>
      exact composed_leaves.activateAll actions
        ((l.happen (.began cause actions (some scope))).inScope scope)

/-- A context with as many scopes as one that has only the root has only the root. -/
theorem inner_eq_nil {c d : Context} (hc : c.scopes.inner = []) (hd : d.depth = c.depth) :
    d.scopes.inner = [] := by
  have hlength : d.scopes.inner.length + 1 = c.scopes.inner.length + 1 := hd
  rw [hc] at hlength
  exact List.length_eq_zero_iff.mp (Nat.succ.inj hlength)

theorem depth_activateBody (b : Beginning) :
    b.closed.context.depth = b.launch.context.depth := by
  obtain ⟨cause, actions, scope, l⟩ := b
  cases scope with
  | none => exact (composed_shelters.activateAll actions _).depth
  | some scope =>
      exact (isolates_activateBody cause actions scope l).kept.shelters.depth

/-! ## What happens between bodies -/

/-- The scopes and the declared arguments are as they were, and nothing has been left for later. -/
structure Steady (l m : Launch) : Prop where
  scopes : m.context.scopes = l.context.scopes
  declared : m.context.declared = l.context.declared
  leaves : Leaves (fun _ _ => False) l m

theorem Steady.refl (l : Launch) : l.Steady l :=
  ⟨rfl, rfl, leaves_of_same rfl⟩

theorem Steady.trans (h : l.Steady m) (h' : m.Steady n) : l.Steady n :=
  ⟨h'.scopes.trans h.scopes, h'.declared.trans h.declared, h.leaves.trans h'.leaves⟩

theorem Aside.steady (h : l.Aside m) : l.Steady m :=
  ⟨h.scopes, h.declared, h.leaves⟩

theorem steady_of_same (hs : m.context.scopes = l.context.scopes)
    (hd : m.context.declared = l.context.declared) (hh : m.history = l.history) : l.Steady m :=
  ⟨hs, hd, leaves_of_same hh⟩

theorem steady_of_cons {o : Occurrence} (hs : m.context.scopes = l.context.scopes)
    (hd : m.context.declared = l.context.declared) (hh : m.history = o :: l.history)
    (ho : o.LeftBy fun _ _ => False) : l.Steady m :=
  ⟨hs, hd, leaves_of_cons hh ho⟩

/-- What leaves something for later, or begins, has not happened in between. -/
theorem Steady.mem (h : l.Steady m) {o : Occurrence} (ho : o ∈ m.history)
    (hnot : ¬ o.LeftBy fun _ _ => False) : o ∈ l.history := by
  obtain ⟨os, hos, hq⟩ := h.leaves
  rw [hos] at ho
  exact (List.mem_append.mp ho).resolve_left fun hmem => hnot (hq o hmem)

theorem Steady.mem_scheduled (h : l.Steady m) {id : Nat} {t : Timer}
    (ho : .scheduled id t ∈ m.history) : .scheduled id t ∈ l.history :=
  h.mem ho (by simp [Occurrence.LeftBy])

theorem Steady.mem_kept (h : l.Steady m) {r : RunningProcess} {w : Option Nat}
    (ho : .kept r w ∈ m.history) : .kept r w ∈ l.history :=
  h.mem ho (by simp [Occurrence.LeftBy])

theorem Steady.mono (h : l.Steady m) {o : Occurrence} (ho : o ∈ l.history) : o ∈ m.history := by
  obtain ⟨os, hos, -⟩ := h.leaves
  rw [hos]
  exact List.mem_append_right os ho

theorem steady_emit (l : Launch) (e : Event) : l.Steady (l.emit e) :=
  steady_of_cons rfl rfl rfl trivial

theorem steady_arrive (l : Launch) (a : Arrival) : l.Steady (l.arrive a) :=
  steady_of_cons rfl rfl rfl trivial

theorem steady_withWriter (l : Launch) (h : RegisteredHandler) (writer : Nat) :
    l.Steady (l.withWriter h writer) :=
  steady_of_same rfl rfl rfl

theorem steady_sendSignal (signal : Signal) (id : ProcessId) (l : Launch) :
    l.Steady (l.sendSignal signal id) := by
  have htaken (s : Supervisor) : l.Steady { l with supervisor := s } := steady_of_same rfl rfl rfl
  unfold sendSignal
  split
  · exact steady_of_cons rfl rfl rfl trivial
  · exact htaken _
  · exact (htaken _).trans (aside_report _ _).steady

theorem steady_signalLive (signal : Signal) (l : Launch) : l.Steady (l.signalLive signal) := by
  unfold signalLive
  generalize l.supervisor.live = ids
  induction ids generalizing l with
  | nil => exact .refl l
  | cons id rest ih => exact (steady_sendSignal signal id l).trans (ih _)

theorem steady_killRemaining (l : Launch) : l.Steady l.killRemaining := by
  have hforced : l.Steady { l with forced := true } := steady_of_same rfl rfl rfl
  unfold killRemaining
  split
  · exact .refl l
  · exact hforced.trans (steady_signalLive .kill _)

theorem steady_beginShutdown {reason : String} (h : l.beginShutdown reason = .ok m) :
    l.Steady m := by
  obtain ⟨deadline, -, rfl⟩ := beginShutdown_eq h
  have hbegun : l.Steady (l.withShutdown reason deadline) := steady_of_cons rfl rfl rfl trivial
  exact (hbegun.trans (aside_cancelTimers _ _ _).steady).trans (steady_signalLive .terminate _)

theorem steady_givenUp (l : Launch) (q : ProcessInfo) (status : ExitStatus) :
    l.Steady (l.givenUp q status) := by
  have hclosed : l.Steady (l.closeTurn (.processExited q status)) :=
    steady_of_cons rfl rfl rfl trivial
  refine hclosed.trans ?_
  unfold givenUp
  rcases (l.closeTurn (.processExited q status)).releaseProcess_cases q.id with
    ⟨-, h⟩ | ⟨g, -, -, h⟩
  · rw [h]
    exact steady_of_same rfl rfl rfl
  · rw [h]
    exact steady_of_cons rfl rfl rfl trivial

theorem steady_processEnded (l : Launch) (r : RunningProcess) (status : ExitStatus)
    (fault : Option String) : l.Steady (l.processEnded r status fault) := by
  have hfault : l.Steady (l.reportFault r.info.name fault) := by
    cases fault with
    | none => exact .refl l
    | some text => exact (aside_report l _).steady
  have hrecord (n : Launch) :
      n.Steady ((n.note r.record status.text).advance r.record .completed) :=
    steady_of_same rfl rfl rfl
  exact (hfault.trans (hrecord _)).trans (steady_emit _ _)

theorem steady_onNotice (l : Launch) (n : Notice) : l.Steady (l.onNotice n) := by
  have htaken (s : Supervisor) : l.Steady { l with supervisor := s } := steady_of_same rfl rfl rfl
  rcases l.onNotice_cases n with
    ⟨-, h⟩ | ⟨s, -, ⟨-, h⟩ | ⟨r, -, ⟨_, _, _, -, h⟩ | ⟨_, status, fault, -, h⟩⟩⟩
  · rw [h]
    exact .refl l
  · rw [h]
    exact htaken s
  · rw [h]
    exact (htaken s).trans (steady_emit _ _)
  · rw [h]
    exact (htaken s).trans (steady_processEnded _ r status fault)

theorem steady_elapse (l : Launch) (id : Nat) (t : Timer) : l.Steady (l.elapse id t) := by
  have htaken : l.Steady ({ l with timers := l.timers.erase id }.happen (.fired id)) :=
    steady_of_cons rfl rfl rfl trivial
  unfold elapse
  dsimp only
  split
  · exact htaken
  · exact htaken.trans (steady_of_cons rfl rfl rfl trivial)

/-- The end of a turn after which no process is started again. -/
theorem steady_afterTurn {e : Event} (h : (l.closeTurn e).afterTurn e = .ok m)
    (hn : ∀ q status r, e = .processExited q status →
      l.processes.get? q.id.number = some r → (l.givenUp q status).respawnDelay? r = none) :
    l.Steady m := by
  have hclosed : l.Steady (l.closeTurn e) := steady_of_cons rfl rfl rfl trivial
  cases e with
  | shutdownRequested reason due => exact hclosed.trans (steady_beginShutdown h)
  | processExited q status =>
      cases hr : l.processes.get? q.id.number with
      | none =>
          have hgone : (l.closeTurn (.processExited q status)).processes.get? q.id.number = none :=
            hr
          change Except.ok ((l.closeTurn (.processExited q status)).finishProcess q.id) = .ok m at h
          unfold finishProcess at h
          rw [hgone] at h
          cases h
          exact hclosed
      | some r =>
          rw [afterTurn_processExited hr, respawn_eq, hn q status r rfl hr] at h
          cases h
          exact steady_givenUp l q status
  | _ =>
      cases h
      exact hclosed

/-- A message that makes no timer fire. -/
theorem steady_receive {a : Arrival} (ha : ∀ id, a.message = .timerFired id →
    l.timers.get? id = none) : l.Steady (l.receive a).launch := by
  refine (steady_arrive l a).trans ?_
  unfold receive
  cases hm : a.message with
  | notice n => exact steady_onNotice _ n
  | timerFired id =>
      have hnone : (l.arrive a).timers.get? id = none := ha id hm
      show (l.arrive a).Steady ((l.arrive a).fireTimer id)
      unfold fireTimer
      rw [hnone]
      exact .refl _
  | interrupt =>
      unfold handle
      dsimp only
      split
      · exact steady_killRemaining _
      · exact (aside_requestShutdown _ _ _).steady
  | graceElapsed =>
      unfold handle
      dsimp only
      split
      · exact steady_killRemaining _
      · exact .refl _

end Launch

variable {config : Config} {host : Host} {args : LaunchArguments} {description : List Action}
  {bs : List Beginning} {s t : Phase} {b : Beginning} {l m : Launch}

/-- What is no body leaves nothing for later, but for the wait before a process is started
again. -/
theorem Phase.Passes.steady_or (h : s.Passes l t m) :
    l.Steady m ∨ ∃ q status r delay, l.processes.get? q.id.number = some r ∧
      m = (l.givenUp q status).schedule delay [r.action] r.scope none true := by
  cases h with
  | ignore hp he hs => exact .inl (Launch.steady_of_cons rfl rfl rfl trivial)
  | take hp hs => exact .inl (Launch.steady_of_cons rfl rfl rfl trivial)
  | miss hf => exact .inl (.refl l)
  | decline hf hy ha =>
      exact .inl ((Launch.steady_withWriter l _ _).trans (Launch.aside_report _ _).steady)
  | close hm hn => exact .inl (Launch.steady_afterTurn hm hn)
  | postpone hr hd hz => exact .inr ⟨_, _, _, _, hr, rfl⟩
  | receive hp hi ha => exact .inl (Launch.steady_receive ha)
  | idle hi => exact .inl (.refl l)

/-- The history only grows. -/
theorem Phase.Passes.suffix_history (h : s.Passes l t m) : l.history <:+ m.history := by
  rcases h.steady_or with hm | ⟨q, status, r, delay, -, rfl⟩
  · exact hm.leaves.suffix_history
  · exact (Launch.steady_givenUp l q status).leaves.suffix_history.trans (List.suffix_cons _ _)

/-- Between two bodies nothing is left for later. -/
theorem Phase.Begins.steady (h : s.Begins l b t) : l.Steady b.launch := by
  cases h with
  | @answer _ m e writer id ids g as hf hy hm ha =>
      have hasked : l.Steady m := by
        rcases hm with rfl | rfl
        · exact .refl _
        · exact Launch.steady_of_cons rfl rfl rfl trivial
      exact hasked.trans (Launch.steady_withWriter m g writer)
  | restart hr hd hz => exact Launch.steady_givenUp l _ _
  | @fire _ a id t hp hi ha ht =>
      exact (Launch.steady_arrive l a).trans (Launch.steady_elapse _ id t)

/-- A body that is over has added to the history. -/
theorem Beginning.suffix_history (b : Beginning) : b.launch.history <:+ b.closed.history := by
  obtain ⟨os, hos, -⟩ := Launch.leaves_activateBody b
  exact ⟨os ++ [b.occurrence], by rw [hos, List.append_assoc, List.singleton_append]⟩

/-! ## Along a course -/

/-- The deeds that were performed so far: those of the description and those of the bodies. -/
def HasPerformed (config : Config) (host : Host) (args : LaunchArguments)
    (description : List Action) (bs : List Beginning) (b : Action) (k : Launch) : Prop :=
  BodyReaches description (.start config host args) b k ∨
    ∃ body ∈ bs, BodyReaches body.actions body.opened b k

theorem HasPerformed.cons {a : Action} {k : Launch}
    (h : HasPerformed config host args description bs a k) :
    HasPerformed config host args description (b :: bs) a k := by
  rcases h with h | ⟨body, hbody, h⟩
  · exact .inl h
  · exact .inr ⟨body, List.mem_cons_of_mem b hbody, h⟩

/-- If the occurrence leaves something for later, it is that of a deed that was performed, or the
wait before a process is started again. -/
def Launch.Traces (performed : Action → Launch → Prop) (l : Launch) : Occurrence → Prop
  | .scheduled id t => (∃ b k, performed b k ∧ k.Schedules b id t) ∨
      ∃ r w, .kept r w ∈ l.history ∧ l.Postpones r id t
  | .kept r w => ∃ k, performed r.action k ∧ k.Spawns r w
  | _ => True

/-- Everything that is left for later is traced to a deed, and only the root is left of the
scopes. -/
structure Launch.Traced (performed : Action → Launch → Prop) (l : Launch) : Prop where
  scopes : l.context.scopes.inner = []
  history : ∀ o ∈ l.history, l.Traces performed o

namespace Launch

variable {performed performed' : Action → Launch → Prop} {os : List Occurrence}
  {o : Occurrence} {r : RunningProcess} {w : Option Nat}

theorem traces_of_leftBy (h : o.LeftBy performed) : l.Traces performed o := by
  cases o with
  | scheduled id t => exact .inl h
  | kept r w => exact h
  | _ => trivial

theorem Postpones.mono {id : Nat} {t : Timer} (h : l.Postpones r id t)
    (hos : m.history = os ++ l.history) : m.Postpones r id t where
  record := h.record
  actions := h.actions
  scope := h.scope
  turn := by
    obtain ⟨newer, freed, older, q, status, hh, hq, hfreed⟩ := h.turn
    exact ⟨os ++ newer, freed, older, q, status, by rw [hos, hh, List.append_assoc], hq, hfreed⟩

/-- What is traced stays traced. -/
theorem Traces.mono (h : l.Traces performed o) (hp : ∀ b k, performed b k → performed' b k)
    (hos : m.history = os ++ l.history) : m.Traces performed' o := by
  cases o with
  | scheduled id t =>
      rcases h with ⟨b, k, hperformed, hs⟩ | ⟨r, w, hkept, hpost⟩
      · exact .inl ⟨b, k, hp b k hperformed, hs⟩
      · refine .inr ⟨r, w, ?_, hpost.mono hos⟩
        rw [hos]
        exact List.mem_append_right os hkept
  | kept r w =>
      obtain ⟨k, hperformed, hs⟩ := h
      exact ⟨k, hp _ k hperformed, hs⟩
  | _ => trivial

theorem Traced.append (h : l.Traced performed) (hp : ∀ b k, performed b k → performed' b k)
    (hscopes : m.context.scopes.inner = []) (hos : m.history = os ++ l.history)
    (hnew : ∀ o ∈ os, m.Traces performed' o) : m.Traced performed' := by
  refine ⟨hscopes, fun o ho => ?_⟩
  rw [hos] at ho
  rcases List.mem_append.mp ho with ho | ho
  · exact hnew o ho
  · exact (h.history o ho).mono hp hos

theorem Traced.steady (h : l.Traced performed) (hm : l.Steady m) : m.Traced performed := by
  obtain ⟨os, hos, hq⟩ := hm.leaves
  refine h.append (fun _ _ => id) (by rw [hm.scopes]; exact h.scopes) hos fun o ho => ?_
  exact traces_of_leftBy ((hq o ho).mono fun _ _ => False.elim)

theorem history_givenUp (l : Launch) (q : ProcessInfo) (status : ExitStatus) :
    ∃ freed, (l.givenUp q status).history =
        freed ++ .turnEnded (.processExited q status) :: l.history ∧
      ∀ o ∈ freed, ∃ h, o = .released h := by
  unfold givenUp
  rcases (l.closeTurn (.processExited q status)).releaseProcess_cases q.id with
    ⟨-, h⟩ | ⟨g, -, -, h⟩
  · exact ⟨[], by rw [h]; rfl, by simp⟩
  · exact ⟨[.released g], by rw [h]; rfl, by simp⟩

/-- The wait before a process is started again is traced to the process. -/
theorem Traced.postpone (h : l.Traced performed) {q : ProcessInfo} {status : ExitStatus}
    (hr : .kept r w ∈ l.history) (hq : q.id = r.info.id) (delay : Duration) :
    ((l.givenUp q status).schedule delay [r.action] r.scope none true).Traced performed := by
  have hgiven := h.steady (steady_givenUp l q status)
  obtain ⟨freed, hfreed, hreleased⟩ := l.history_givenUp q status
  have hone : ((l.givenUp q status).schedule delay [r.action] r.scope none true).history =
      [.scheduled (l.givenUp q status).nextTimer _] ++ (l.givenUp q status).history := rfl
  refine hgiven.append (fun _ _ => id) hgiven.scopes hone fun o ho => ?_
  rw [List.mem_singleton.mp ho]
  refine .inr ⟨r, w, ?_, rfl, rfl, rfl, [], freed, l.history, q, status, ?_, hq, hreleased⟩
  · rw [hone, hfreed]
    simp [hr]
  · rw [hone, hfreed]
    rfl

/-- A body in front of which everything is traced leaves only what its deeds do. -/
theorem Traced.body (h : b.launch.Traced performed) (hp : ∀ a k, performed a k → performed' a k)
    (hbody : ∀ a k, BodyReaches b.actions b.opened a k → performed' a k) :
    b.closed.Traced performed' := by
  obtain ⟨os, hos, hleft⟩ := leaves_activateBody b
  have happended : b.closed.history = (os ++ [b.occurrence]) ++ b.launch.history := by
    rw [hos, List.append_assoc, List.singleton_append]
  refine h.append hp (inner_eq_nil h.scopes (depth_activateBody b)) happended fun o ho => ?_
  rcases List.mem_append.mp ho with ho | ho
  · exact traces_of_leftBy ((hleft o ho).mono hbody)
  · rw [List.mem_singleton.mp ho]
    trivial

/-- No scope is entered before the description is activated. -/
theorem inner_start (config : Config) (host : Host) (args : LaunchArguments) :
    (start config host args).context.scopes.inner = [] := by
  have hpass : ∀ (as : LaunchArguments) (c : Context),
      (c.passAll as).scopes.inner = c.scopes.inner := by
    intro as
    induction as with
    | nil => exact fun _ => rfl
    | cons a rest ih => exact fun c => ih _
  exact hpass args _

theorem traced_begin : (begin config host args description).Traced
    (HasPerformed config host args description []) := by
  obtain ⟨os, hos, hleft⟩ :=
    composed_leaves.activateAll description (.start config host args)
  have hdepth := (composed_shelters.activateAll description (.start config host args)).depth
  have hnew : (begin config host args description).history = os := by
    rw [begin, hos]
    exact List.append_nil os
  refine ⟨inner_eq_nil (inner_start config host args) hdepth, fun o ho => ?_⟩
  rw [hnew] at ho
  exact traces_of_leftBy ((hleft o ho).mono fun _ _ => .inl)

end Launch

namespace Course

/-- What is kept of a process was put on the history. -/
theorem exists_kept (h : Course config host args description bs s l) {id : ProcessId}
    {r : RunningProcess} (hr : l.processes.get? id.number = some r) :
    r.info.id = id ∧ ∃ w, .kept r w ∈ l.history := by
  have hmoves := h.strides.moves
  have hid : r.info.id = id :=
    (((Launch.sound_start config host args).moves hmoves).processes id.number r hr).1
  subst hid
  obtain ⟨w, hkept⟩ := (Launch.life_sound hmoves r.info.id).entry r hr
  exact ⟨rfl, w, Launch.mem_life_kept.mp (by rw [hkept]; exact List.mem_singleton.mpr rfl)⟩

/-- **Along a course everything that is left for later is traced.** -/
theorem traced (h : Course config host args description bs s l) :
    l.Traced (HasPerformed config host args description bs) := by
  induction h with
  | begin => exact Launch.traced_begin
  | pass hbefore hp ih =>
      rcases hp.steady_or with hsteady | ⟨q, status, r, delay, hr, rfl⟩
      · exact ih.steady hsteady
      · obtain ⟨hid, w, hkept⟩ := hbefore.exists_kept hr
        exact ih.postpone hkept hid.symm delay
  | body hbefore hb ih =>
      exact (ih.steady hb.steady).body (fun _ _ => .cons)
        fun _ _ hreach => .inr ⟨_, List.mem_cons_self, hreach⟩

/-- The bodies that have begun stand on the history in that order. -/
theorem map_occurrence (h : Course config host args description bs s l) :
    bs.map (·.occurrence) = l.history.filter (·.isBeginning) := by
  induction h with
  | begin =>
      exact (Launch.composed_leaves.activateAll description
        (.start config host args)).filter_isBeginning.symm
  | pass _ hp ih =>
      rcases hp.steady_or with hm | ⟨q, status, r, delay, -, rfl⟩
      · rw [ih, hm.leaves.filter_isBeginning]
      · rw [ih, ← (Launch.steady_givenUp _ q status).leaves.filter_isBeginning]
        rfl
  | @body bs s t l b _ hb ih =>
      have hclosed : Launch.Leaves (BodyReaches b.actions b.opened)
          (b.launch.happen b.occurrence) b.closed := Launch.leaves_activateBody b
      rw [hclosed.filter_isBeginning, List.map_cons, ih, ← hb.steady.leaves.filter_isBeginning]
      rfl

end Course

end Conductor
