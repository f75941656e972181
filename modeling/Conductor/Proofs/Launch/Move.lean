import Conductor.Launch.Run
import Conductor.Proofs.Launch.Frame

/-!
# The moves of a launch

`Move` lists what can happen to a launch from its start to its end: the effects of
activations, and what the loop itself does when it takes an event, lets a handler answer,
ends a turn or handles a message. Each move stands with the guard under which the loop makes
it. `Moves` chains them, so a launch related by `Moves` to its start is a state that it may
pass through, between two messages as well as in the middle of an activation.

`Reachable.moves` says that the loop makes no other moves.
-/

namespace Conductor

/-- The actions that an answer comes to; none when the body fails. -/
def Yield.answer? : Yield → Option (List Action)
  | .actions as => some as
  | .interrupt => some []
  | .failure _ => none

namespace Launch

/-- The launch without the oldest waiting event. -/
def withoutNext (l : Launch) (rest : List Event) : Launch :=
  { l with context := { l.context with pending := rest } }

/-- The launch in which the shutdown has begun and nothing has been done for it yet. -/
def withShutdown (l : Launch) (reason : String) (deadline : Duration) : Launch :=
  { l with
    context := { l.context with shuttingDown := true }
    shutdown := some ⟨reason, deadline⟩ }.happen (.shutdownBegan reason)

/-- The launch in which a handler is about to answer, which is removed if it answers once. -/
def withWriter (l : Launch) (h : RegisteredHandler) (writer : Nat) : Launch :=
  { l with
    registry := if h.handler.once then l.registry.remove h.id else l.registry
    context := l.context.setWriter writer }

end Launch

/-- One move of a launch whose deeds all satisfy the predicate. -/
inductive Move (p : Deed → Prop) (l : Launch) : Launch → Prop where
  | effect {m : Launch} (h : Effect p l m) : Move p l m
  /-- The turn of the oldest waiting event begins. -/
  | take (e : Event) (rest : List Event) (hp : l.context.pending = e :: rest)
      (hc : l.context.current = none) (hs : e.isShutdownRequest = true → l.shutdown = none) :
      Move p l (((l.withoutNext rest).happen (.dispatched e)).openTurn e).2
  /-- A request for a shutdown that has begun is dropped. -/
  | ignore (e : Event) (rest : List Event) (hp : l.context.pending = e :: rest)
      (hc : l.context.current = none) (he : e.isShutdownRequest = true)
      (hs : l.shutdown.isSome = true) :
      Move p l ((l.withoutNext rest).happen (.ignored e))
  /-- A handler that matches the event of the turn answers it. -/
  | answer (e : Event) (h : RegisteredHandler) (writer : Nat) (as : List Action)
      (hc : l.context.current = some e) (hf : l.registry.find? h.id = some h)
      (hm : (h.handler.observe e).1 = true)
      (hy : (h.handler.body.produce e l.context).answer? = some as) (has : ∀ a ∈ as, a.Every p) :
      Move p l ((l.withWriter h writer).happen (.began (.handler h.id) as h.handler.scope))
  /-- A handler that matches the event of the turn fails to answer it. -/
  | decline (e : Event) (h : RegisteredHandler) (writer : Nat)
      (hc : l.context.current = some e) (hf : l.registry.find? h.id = some h)
      (hm : (h.handler.observe e).1 = true)
      (hy : (h.handler.body.produce e l.context).answer? = none) :
      Move p l (l.withWriter h writer)
  /-- The body of a timer or the action of a process that is started again begins. -/
  | resume (cause : BodyCause) (as : List Action) (scope : Option Scope)
      (hcause : ∀ id, cause ≠ .handler id) (has : ∀ a ∈ as, a.Every p) :
      Move p l (l.happen (.began cause as scope))
  /-- The turn of an event ends that asks for no shutdown and ends no process that is kept. -/
  | close (e : Event) (hc : l.context.current = some e) (hs : e.isShutdownRequest = false)
      (he : ∀ q status, e = .processExited q status → l.processes.get? q.id.number = none) :
      Move p l (l.closeTurn e)
  /-- The turn of the end of a process ends, and the process is given up. -/
  | release (q : ProcessInfo) (status : ExitStatus) (r : RunningProcess)
      (hc : l.context.current = some (.processExited q status))
      (hr : l.processes.get? q.id.number = some r) :
      Move p l ((l.closeTurn (.processExited q status)).releaseProcess q.id)
  /-- The turn of a request for a shutdown ends, and the shutdown begins. -/
  | shutdown (reason : String) (dueToSignal : Bool) {m : Launch}
      (hc : l.context.current = some (.shutdownRequested reason dueToSignal))
      (hb : (l.closeTurn (.shutdownRequested reason dueToSignal)).beginShutdown reason = .ok m) :
      Move p l m
  /-- A message arrives that is not about a process. -/
  | arrive (a : Arrival) (hc : l.context.current = none) (hp : l.context.pending = [])
      (ha : ∀ n, a.message ≠ .notice n) : Move p l (l.arrive a)
  /-- A notice of a process arrives and is taken in. -/
  | notice (a : Arrival) (n : Notice) (hc : l.context.current = none)
      (hp : l.context.pending = []) (ha : a.message = .notice n) :
      Move p l ((l.arrive a).onNotice n)
  | elapse (id : Nat) (t : Timer) (hc : l.context.current = none) (hp : l.context.pending = [])
      (ht : l.timers.get? id = some t) : Move p l (l.elapse id t)
  /-- What is left is killed at the end of a shutdown. -/
  | kill (hc : l.context.current = none) (hp : l.context.pending = [])
      (hs : l.context.shuttingDown = true) : Move p l l.killRemaining

/-- Moves one after the other. -/
abbrev Moves (p : Deed → Prop) : Launch → Launch → Prop :=
  Relation.ReflTransGen (Move p)

/-- The tables of the launch are in order, a shutdown that has begun has been asked for, and
all actions that are kept for later satisfy the predicate. -/
structure Launch.Sound (p : Deed → Prop) (l : Launch) : Prop where
  registry : l.registry.Sound
  supervisor : l.supervisor.Keyed
  flag : l.shutdown.isSome = true → l.context.shuttingDown = true
  handlers : ∀ h ∈ l.registry.entries, h.handler.Every p
  timers : ∀ id t, l.timers.get? id = some t → ∀ a ∈ t.actions, a.Every p
  processes : ∀ k r, l.processes.get? k = some r → r.info.id = ⟨k⟩ ∧ r.action.Every p

variable {p : Deed → Prop} {l m : Launch}

theorem Effects.moves (h : Effects p l m) : Moves p l m :=
  Relation.ReflTransGen.mono (fun _ _ h => Move.effect h) _ _ h

namespace Launch

/-! ## How the loop moves -/

theorem activateBody_effects {as : List Action} (has : ∀ a ∈ as, a.Every p) (cause : BodyCause)
    (scope : Option Scope) (l : Launch) :
    Effects p (l.happen (.began cause as scope)) (activateBody cause as scope l) := by
  unfold activateBody
  split
  · exact activateAll_effects has _
  · exact under_effects fun m => activateAll_effects has m

/-- The shutdown begins by effects, once its record and its reason stand. -/
theorem beginShutdown_eq {l m : Launch} {reason : String} (h : l.beginShutdown reason = .ok m) :
    ∃ deadline, l.config.deadline? l.now = some deadline ∧
      m = ((l.withShutdown reason deadline).cancelTimers "cancelled by shutdown"
        l.cancelledByShutdown).signalLive .terminate := by
  unfold beginShutdown at h
  dsimp only at h
  split at h
  · cases h
  · rename_i deadline hd
    cases h
    exact ⟨deadline, hd, rfl⟩

theorem beginShutdown_effects {l m : Launch} {reason : String}
    (h : l.beginShutdown reason = .ok m) :
    ∃ deadline, Effects p (l.withShutdown reason deadline) m := by
  obtain ⟨deadline, -, rfl⟩ := beginShutdown_eq h
  exact ⟨deadline, (cancelTimers_effects _ _ _).trans (signalLive_effects _ _)⟩

theorem killRemaining_effects (l : Launch) :
    l.killRemaining = l ∨ Effects p { l with forced := true } l.killRemaining := by
  unfold killRemaining
  split
  · exact .inl rfl
  · exact .inr (signalLive_effects _ _)

/-- What is given up of a process: what was kept of it, and its handle once it has ended. -/
theorem releaseProcess_cases (l : Launch) (id : ProcessId) :
    ((∀ h, l.supervisor.find? id = some h → h.isAlive = true) ∧
        l.releaseProcess id = { l with processes := l.processes.erase id.number }) ∨
      ∃ h, l.supervisor.find? id = some h ∧ h.isAlive = false ∧
        l.releaseProcess id =
          { l with
            processes := l.processes.erase id.number
            supervisor :=
              { l.supervisor with handles := l.supervisor.handles.erase id.number }
            history := .released h :: l.history } := by
  unfold releaseProcess
  dsimp only
  rcases l.supervisor.release?_cases id with ⟨hn, ha⟩ | ⟨h, hf, ha, hs⟩
  · exact .inl ⟨ha, by rw [hn]⟩
  · exact .inr ⟨h, hf, ha, by rw [hs]; rfl⟩

theorem reportFault_effects (l : Launch) (name : String) (fault : Option String) :
    Effects p l (l.reportFault name fault) := by
  cases fault with
  | none => exact .refl
  | some text => exact .single (report_effect _ _)

/-- The end of a process is reported and put on its record before the event is queued. -/
theorem processEnded_effects (l : Launch) (r : RunningProcess) (status : ExitStatus)
    (fault : Option String) :
    ∃ m, Effects p l m ∧ l.processEnded r status fault = m.emit (.processExited r.info status) :=
  ⟨_, ((reportFault_effects l r.info.name fault).snoc (.note r.record status.text)).snoc
    (.advance r.record .completed), rfl⟩

/-- What a notice does: nothing when the process is not known, and little when nothing is
kept of it. -/
theorem onNotice_cases (l : Launch) (n : Notice) :
    (l.supervisor.absorb? n = none ∧ l.onNotice n = l) ∨
      ∃ s, l.supervisor.absorb? n = some s ∧
        ((l.processes.get? n.process.number = none ∧
            l.onNotice n = { l with supervisor := s }) ∨
          ∃ r, l.processes.get? n.process.number = some r ∧
            ((∃ id stream line, n = .output id stream line ∧
                l.onNotice n =
                  { l with supervisor := s }.emit (.processOutput r.info stream line)) ∨
              ∃ id status fault, n = .exited id status fault ∧
                l.onNotice n = { l with supervisor := s }.processEnded r status fault)) := by
  unfold onNotice
  split
  · rename_i hn
    exact .inl ⟨hn, rfl⟩
  · rename_i s hs
    refine .inr ⟨s, hs, ?_⟩
    dsimp only
    split
    · rename_i hr
      exact .inl ⟨hr, rfl⟩
    · rename_i r hr
      refine .inr ⟨r, hr, ?_⟩
      cases n with
      | output id stream line => exact .inl ⟨id, stream, line, rfl, rfl⟩
      | exited id status fault => exact .inr ⟨id, status, fault, rfl, rfl⟩

/-- What a notice does once the supervisor has taken it in, are effects. -/
theorem onNotice_effects (l : Launch) (n : Notice) :
    ∃ s, (s = l.supervisor ∨ l.supervisor.absorb? n = some s) ∧
      Effects (fun _ => True) { l with supervisor := s } (l.onNotice n) := by
  rcases l.onNotice_cases n with
      ⟨-, h⟩ | ⟨s, hs, ⟨-, h⟩ | ⟨r, -, ⟨_, _, _, -, h⟩ | ⟨_, status, fault, -, h⟩⟩⟩
  · exact ⟨l.supervisor, .inl rfl, by rw [h]⟩
  · exact ⟨s, .inr hs, by rw [h]⟩
  · refine ⟨s, .inr hs, ?_⟩
    rw [h]
    exact .single (.emit _ trivial)
  · refine ⟨s, .inr hs, ?_⟩
    obtain ⟨m, hm, hend⟩ := processEnded_effects { l with supervisor := s } r status fault
    rw [h, hend]
    exact hm.snoc (.emit _ trivial)

/-- What happens once a timer has been taken away whose time has come, are effects. -/
theorem elapse_effects (l : Launch) (id : Nat) (t : Timer) :
    Effects (fun _ => True) ({ l with timers := l.timers.erase id }.happen (.fired id))
      (l.elapse id t) := by
  unfold elapse
  dsimp only
  split
  · exact .refl
  · rename_i seq _
    exact .head (.advance seq .completed) (.single (.emit _ trivial))

/-! ## Every move keeps a launch in order -/

theorem sound_start (config : Config) (host : Host) (args : LaunchArguments) :
    (start config host args).Sound p where
  registry := Registry.sound_empty
  supervisor := Supervisor.keyed_start
  flag := by simp [start]
  handlers := by simp [start, Registry.empty]
  timers := by simp [start]
  processes := by simp [start]

/-- What is in order for some predicate is in order for the one that holds of everything. -/
theorem Sound.any (hl : l.Sound p) : l.Sound fun _ => True where
  registry := hl.registry
  supervisor := hl.supervisor
  flag := hl.flag
  handlers := fun h _ => Handler.every_of_forall (fun _ => trivial) h.handler
  timers := fun _ t _ => Action.every_true t.actions
  processes := fun k r hk =>
    ⟨(hl.processes k r hk).1, Action.every_of_forall (fun _ => trivial) r.action⟩

/-- What a launch keeps for later is in order when the launch that it comes from is, and each
part of it is the old one or less. -/
theorem Sound.of_le (hl : l.Sound p) (hr : m.registry.Sound) (hs : m.supervisor.Keyed)
    (hf : m.shutdown.isSome = true → m.context.shuttingDown = true)
    (hh : ∀ h ∈ m.registry.entries, h ∈ l.registry.entries)
    (ht : ∀ id t, m.timers.get? id = some t → l.timers.get? id = some t)
    (hp : ∀ k r, m.processes.get? k = some r → l.processes.get? k = some r) : m.Sound p :=
  ⟨hr, hs, hf, fun h hm => hl.handlers h (hh h hm), fun id t hm => hl.timers id t (ht id t hm),
    fun k r hm => hl.processes k r (hp k r hm)⟩

/-- What shares the tables and what is known of the shutdown with a launch in order is in order
too. -/
theorem Sound.same (hl : l.Sound p) (hr : m.registry = l.registry)
    (hu : m.supervisor = l.supervisor) (ht : m.timers = l.timers)
    (hp : m.processes = l.processes) (hs : m.shutdown = l.shutdown)
    (hf : m.context.shuttingDown = l.context.shuttingDown) : m.Sound p where
  registry := by
    rw [hr]
    exact hl.registry
  supervisor := by
    rw [hu]
    exact hl.supervisor
  flag := by
    rw [hs, hf]
    exact hl.flag
  handlers := by
    rw [hr]
    exact hl.handlers
  timers := by
    rw [ht]
    exact hl.timers
  processes := by
    rw [hp]
    exact hl.processes

theorem Sound.arrive (hl : l.Sound p) (a : Arrival) : (l.arrive a).Sound p :=
  hl.same rfl rfl rfl rfl rfl rfl

theorem Sound.closeTurn (hl : l.Sound p) (e : Event) : (l.closeTurn e).Sound p :=
  hl.same rfl rfl rfl rfl rfl rfl

theorem Sound.forced (hl : l.Sound p) : ({ l with forced := true } : Launch).Sound p :=
  hl.same rfl rfl rfl rfl rfl rfl

theorem Sound.withShutdown (hl : l.Sound p) (reason : String) (deadline : Duration) :
    (l.withShutdown reason deadline).Sound p :=
  ⟨hl.registry, hl.supervisor, fun _ => rfl, hl.handlers, hl.timers, hl.processes⟩

theorem Sound.absorb (hl : l.Sound p) {n : Notice} {s : Supervisor}
    (hs : l.supervisor.absorb? n = some s) : ({ l with supervisor := s } : Launch).Sound p :=
  ⟨hl.registry, hl.supervisor.absorb? hs, hl.flag, hl.handlers, hl.timers, hl.processes⟩

/-- A timer that is taken away leaves the others as they were. -/
theorem Sound.fired (hl : l.Sound p) (id : Nat) :
    ({ l with timers := l.timers.erase id }.happen (.fired id)).Sound p :=
  ⟨hl.registry, hl.supervisor, hl.flag, hl.handlers,
    fun i t ht => hl.timers i t (Table.get?_of_get?_erase ht), hl.processes⟩

theorem Sound.effect (hl : l.Sound p) (h : Effect p l m) : m.Sound p where
  registry := by
    rcases h.registry with hr | ⟨b, -, hr⟩ | ⟨name, hr⟩
    · rw [hr]
      exact hl.registry
    · rw [hr]
      exact hl.registry.register b
    · rw [hr]
      exact hl.registry.unregister name
  supervisor := by
    rcases h.handles with hh | ⟨b, hid, -, -, hh⟩ | ⟨id, b, signal, -, -, hh⟩
    · unfold Supervisor.Keyed
      rw [hh]
      exact hl.supervisor
    · exact hl.supervisor.insert hid hh
    · exact hl.supervisor.insert (b.id_markSent signal) hh
  flag := by
    intro hs
    rw [h.sameLoop.shutdown] at hs
    exact h.grown.flag (hl.flag hs)
  handlers := by
    intro b hb
    rcases h.registry with hr | ⟨g, hg, hr⟩ | ⟨name, hr⟩
    · rw [hr] at hb
      exact hl.handlers b hb
    · rw [hr, Registry.register, List.mem_append, List.mem_singleton] at hb
      rcases hb with hb | rfl
      · exact hl.handlers b hb
      · exact hg
    · rw [hr] at hb
      exact hl.handlers b (List.mem_filter.mp hb).1
  timers := by
    intro id t ht
    rcases h.timers with hr | ⟨id', hr⟩ | ⟨t', -, ht', hr⟩
    · rw [hr] at ht
      exact hl.timers id t ht
    · rw [hr, Table.get?_erase] at ht
      split at ht
      · cases ht
      · exact hl.timers id t ht
    · rw [hr, Table.get?_insert] at ht
      split at ht
      · cases ht
        exact ht'
      · exact hl.timers id t ht
  processes := by
    intro k r hk
    rcases h.processes with hr | ⟨r', hid, hr', hr⟩
    · rw [hr] at hk
      exact hl.processes k r hk
    · rw [hr, Table.get?_insert] at hk
      split at hk
      · rename_i heq
        cases hk
        rw [heq]
        exact ⟨hid, hr'⟩
      · exact hl.processes k r hk

theorem Sound.effects (hl : l.Sound p) (h : Effects p l m) : m.Sound p := by
  induction h with
  | refl => exact hl
  | tail _ h ih => exact ih.effect h

theorem Sound.withWriter (hl : l.Sound p) (h : RegisteredHandler) (writer : Nat) :
    (l.withWriter h writer).Sound p := by
  refine hl.of_le ?_ hl.supervisor hl.flag ?_ (fun _ _ => id) (fun _ _ => id)
  · unfold Launch.withWriter
    dsimp only
    split
    · exact hl.registry.remove h.id
    · exact hl.registry
  · intro g hg
    unfold Launch.withWriter at hg
    dsimp only at hg
    split at hg
    · exact (List.mem_filter.mp hg).1
    · exact hg

theorem Sound.openTurn (hl : l.Sound p) (e : Event) : (l.openTurn e).2.Sound p where
  registry := hl.registry.matching e
  supervisor := hl.supervisor
  flag := hl.flag
  handlers := by
    intro h hm
    obtain ⟨g, hg, rfl⟩ := List.mem_map.mp hm
    exact Handler.every_withTrigger.mpr (hl.handlers g hg)
  timers := hl.timers
  processes := hl.processes

theorem Sound.releaseProcess (hl : l.Sound p) (id : ProcessId) :
    (l.releaseProcess id).Sound p := by
  rcases l.releaseProcess_cases id with ⟨-, h⟩ | ⟨_, -, -, h⟩
  · rw [h]
    exact hl.of_le hl.registry hl.supervisor hl.flag (fun _ h => h) (fun _ _ h => h)
      fun _ _ => Table.get?_of_get?_erase
  · rw [h]
    exact hl.of_le hl.registry (hl.supervisor.erase _) hl.flag (fun _ h => h) (fun _ _ h => h)
      fun _ _ => Table.get?_of_get?_erase

theorem Sound.onNotice (hl : l.Sound p) (n : Notice) : (l.onNotice n).Sound p := by
  rcases l.onNotice_cases n with
    ⟨-, h⟩ | ⟨s, hs, ⟨-, h⟩ | ⟨r, -, ⟨_, _, _, -, h⟩ | ⟨_, status, fault, -, h⟩⟩⟩
  · rw [h]
    exact hl
  · rw [h]
    exact hl.absorb hs
  · rw [h]
    exact (hl.absorb hs).same rfl rfl rfl rfl rfl rfl
  · obtain ⟨m, hm, hend⟩ := processEnded_effects (p := p) { l with supervisor := s } r status fault
    rw [h, hend]
    exact ((hl.absorb hs).effects hm).same rfl rfl rfl rfl rfl rfl

/-- **Every move keeps a launch in order.** -/
theorem Sound.move (hl : l.Sound p) (h : Move p l m) : m.Sound p := by
  cases h with
  | effect h => exact hl.effect h
  | take e rest hp hc hs =>
      have htaken : ((l.withoutNext rest).happen (.dispatched e)).Sound p :=
        hl.same rfl rfl rfl rfl rfl rfl
      exact htaken.openTurn e
  | ignore e rest hp hc he hs => exact hl.same rfl rfl rfl rfl rfl rfl
  | answer e h writer as hc hf hm hy has =>
      exact (hl.withWriter h writer).same rfl rfl rfl rfl rfl rfl
  | decline e h writer hc hf hm hy => exact hl.withWriter h writer
  | resume cause as scope hcause has => exact hl.same rfl rfl rfl rfl rfl rfl
  | close e hc hs he => exact hl.same rfl rfl rfl rfl rfl rfl
  | release q status r hc hr =>
      exact (hl.closeTurn _).releaseProcess q.id
  | shutdown reason due hc hb =>
      obtain ⟨deadline, hb⟩ := beginShutdown_effects (p := p) hb
      exact ((hl.closeTurn _).withShutdown reason deadline).effects hb
  | arrive a hc hp ha => exact hl.arrive a
  | notice a n hc hp ha =>
      exact (hl.arrive a).onNotice n
  | elapse id t hc hp ht =>
      unfold Launch.elapse
      dsimp only
      split
      · exact hl.fired id
      · exact (hl.fired id).same rfl rfl rfl rfl rfl rfl
  | kill hc hp hs =>
      rcases killRemaining_effects (p := p) l with h | h
      · rw [h]
        exact hl
      · exact hl.forced.effects h

theorem Sound.moves (hl : l.Sound p) (h : Moves p l m) : m.Sound p := by
  induction h with
  | refl => exact hl
  | tail _ h ih => exact ih.move h

end Launch

end Conductor
