import Conductor.Proofs.Handler.Registry
import Conductor.Proofs.Launch.Effect

/-!
# What effects leave alone

An effect changes few fields of a launch, and each of them in few ways. The lemmas here say
field by field what an effect can do to it; proofs about the loop cite them instead of going
through the effects again.
-/

namespace Conductor

namespace Occurrence

/-- Whether only the loop puts this on the history, never an activation. -/
def isOfLoop : Occurrence → Bool
  | .received _ => true
  | .dispatched _ => true
  | .turnEnded _ => true
  | .ignored _ => true
  | .fired _ => true
  | .released _ => true
  | .began .. => true
  | .shutdownBegan _ => true
  | _ => false

/-- Whether the turn of an event begins or ends. -/
def marksTurn : Occurrence → Bool
  | .dispatched _ => true
  | .turnEnded _ => true
  | _ => false

/-- Whether a process was started or a timer scheduled. -/
def beginsWork : Occurrence → Bool
  | .started .. => true
  | .kept .. => true
  | .scheduled .. => true
  | _ => false

/-- Whether this tells neither of a turn, nor of a body or a process that begins, nor of the
shutdown. -/
def isAside : Occurrence → Bool
  | .dispatched _ => false
  | .turnEnded _ => false
  | .began .. => false
  | .started .. => false
  | .kept .. => false
  | .shutdownBegan _ => false
  | _ => true

theorem marksTurn_of_isOfLoop {o : Occurrence} (h : o.isOfLoop = false) :
    o.marksTurn = false := by
  cases o <;> first | rfl | cases h

theorem marksTurn_of_isAside {o : Occurrence} (h : o.isAside = true) : o.marksTurn = false := by
  cases o <;> first | rfl | cases h

theorem isAside_of_not {o : Occurrence} (hl : o.isOfLoop = false) (hw : o.beginsWork = false) :
    o.isAside = true := by
  cases o with
  | started => cases hw
  | kept => cases hw
  | dispatched => cases hl
  | turnEnded => cases hl
  | began => cases hl
  | shutdownBegan => cases hl
  | _ => rfl

end Occurrence

namespace Launch

/-- What only the loop changes is the same in both launches. -/
structure SameLoop (l m : Launch) : Prop where
  config : m.config = l.config
  now : m.now = l.now
  host : m.context.host = l.context.host
  current : m.context.current = l.context.current
  shutdown : m.shutdown = l.shutdown
  forced : m.forced = l.forced

/-- Whether the launch has been asked to shut down goes only one way, and the history only
grows, here by nothing that is of the loop. -/
structure Grown (l m : Launch) : Prop where
  flag : l.context.shuttingDown = true → m.context.shuttingDown = true
  history : ∃ os, m.history = os ++ l.history ∧ ∀ o ∈ os, o.isOfLoop = false
  handlers : l.registry.nextId ≤ m.registry.nextId
  processes : l.supervisor.nextId ≤ m.supervisor.nextId

/-- The second launch is the first one in which a process was started, with the list that is to
follow its end. The bindings are kept as they were, and the list, unless it is empty, is
registered under the next number. -/
structure Starts (l m : Launch) (r : RunningProcess) (w : Option Nat) (onExit : List Action) :
    Prop where
  number : r.info.id = ⟨l.supervisor.nextId⟩
  scope : r.scope = l.context.snapshot
  deed : ∃ t, r.action.deed = .execute t onExit
  flag : l.context.shuttingDown = false
  history : ∃ spec, m.history =
    .kept r w :: .emitted (.processStarted r.info) :: .started r.info.id spec :: l.history
  registry : (onExit = [] ∧ w = none ∧ m.registry = l.registry) ∨
    (onExit ≠ [] ∧ w = some l.registry.nextId ∧
      m.registry = l.registry.register (.onExitOf r.info.id onExit r.scope))

theorem SameLoop.refl (l : Launch) : l.SameLoop l :=
  ⟨rfl, rfl, rfl, rfl, rfl, rfl⟩

theorem SameLoop.trans {l m n : Launch} (h : l.SameLoop m) (h' : m.SameLoop n) : l.SameLoop n :=
  ⟨h'.config.trans h.config, h'.now.trans h.now, h'.host.trans h.host,
    h'.current.trans h.current, h'.shutdown.trans h.shutdown, h'.forced.trans h.forced⟩

theorem Grown.refl (l : Launch) : l.Grown l :=
  ⟨id, ⟨[], rfl, by simp⟩, Nat.le.refl, Nat.le.refl⟩

theorem Grown.trans {l m n : Launch} (h : l.Grown m) (h' : m.Grown n) : l.Grown n := by
  obtain ⟨os, hos, hq⟩ := h.history
  obtain ⟨os', hos', hq'⟩ := h'.history
  refine ⟨fun hf => h'.flag (h.flag hf), ⟨os' ++ os, ?_, ?_⟩,
    Nat.le_trans h.handlers h'.handlers, Nat.le_trans h.processes h'.processes⟩
  · rw [hos', hos, List.append_assoc]
  · intro o ho
    rcases List.mem_append.mp ho with ho | ho
    · exact hq' o ho
    · exact hq o ho

end Launch

/-- Nothing waits in the context, no event has its turn, and no shutdown was asked for. -/
structure Context.Quiet (c : Context) : Prop where
  pending : c.pending = []
  current : c.current = none
  flag : c.shuttingDown = false

theorem Context.Quiet.passAll {c : Context} (h : c.Quiet) (args : LaunchArguments) :
    (c.passAll args).Quiet := by
  induction args generalizing c with
  | nil => exact h
  | cons a rest ih =>
      apply ih
      exact ⟨h.pending, h.current, h.flag⟩

theorem Launch.start_context (config : Config) (host : Host) (args : LaunchArguments) :
    (start config host args).context.Quiet := by
  apply Context.Quiet.passAll
  exact ⟨rfl, rfl, rfl⟩

variable {p : Deed → Prop} {l m : Launch}

namespace Effect

theorem sameLoop (h : Effect p l m) : l.SameLoop m := by
  cases h with
  | spawn spec seq a t onExit h _ _ _ _ _ _ =>
      -- Only a start is not one plain update; its equation is `attend_eq`.
      obtain ⟨r, -, -, -, -, heq⟩ := (l.withStarted h spec).attend_eq seq a onExit spec.name h
      rw [heq]
      exact ⟨rfl, rfl, rfl, rfl, rfl, rfl⟩
  | _ => exact ⟨rfl, rfl, rfl, rfl, rfl, rfl⟩

/-- A registry changes by the registration of one handler or by the removal of a name. -/
theorem registry (h : Effect p l m) :
    m.registry = l.registry ∨ (∃ h : Handler, h.Every p ∧ m.registry = l.registry.register h) ∨
      ∃ name, m.registry = l.registry.unregister name := by
  cases h with
  | register h hh => exact .inr (.inl ⟨h, hh, rfl⟩)
  | unregister name => exact .inr (.inr ⟨name, rfl⟩)
  | spawn spec seq a t onExit h _ _ _ hd ha _ =>
      obtain ⟨r, -, -, -, -, heq⟩ := (l.withStarted h spec).attend_eq seq a onExit spec.name h
      rw [heq]
      by_cases ho : onExit.isEmpty = true
      · exact .inl (if_pos ho)
      · exact .inr (.inl ⟨_, Handler.every_onExitOf.mpr (ha.onExit hd), if_neg ho⟩)
  | _ => exact .inl rfl

/-- A timer is scheduled under the next number, or taken away. -/
theorem timers (h : Effect p l m) :
    m.timers = l.timers ∨ (∃ id, m.timers = l.timers.erase id) ∨
      ∃ t : Timer, l.context.shuttingDown = false ∧ (∀ a ∈ t.actions, a.Every p) ∧
        m.timers = l.timers.insert l.nextTimer t := by
  cases h with
  | cancelTimer why id t ht => exact .inr (.inl ⟨id, rfl⟩)
  | schedule delay as scope record cancel hl has =>
      exact .inr (.inr ⟨⟨record, as, scope, cancel, ⟨l.now.nanos + delay.nanos⟩⟩, hl, has, rfl⟩)
  | spawn spec seq a t onExit h _ _ _ _ _ _ =>
      obtain ⟨r, -, -, -, -, heq⟩ := (l.withStarted h spec).attend_eq seq a onExit spec.name h
      rw [heq]
      exact .inl rfl
  | _ => exact .inl rfl

/-- What is kept of processes changes by a start only. -/
theorem processes (h : Effect p l m) :
    m.processes = l.processes ∨
      ∃ r : RunningProcess, r.info.id = ⟨l.supervisor.nextId⟩ ∧ r.action.Every p ∧
        m.processes = l.processes.insert l.supervisor.nextId r := by
  cases h with
  | spawn spec seq a t onExit h hid _ _ _ ha _ =>
      obtain ⟨r, -, hinfo, hact, -, heq⟩ :=
        (l.withStarted h spec).attend_eq seq a onExit spec.name h
      rw [heq]
      refine .inr ⟨r, ?_, hact ▸ ha, ?_⟩
      · rw [hinfo]
        exact hid
      · rw [hid]
        rfl
  | _ => exact .inl rfl

/-- A handle is added under the next number, or marked with a signal. -/
theorem handles (h : Effect p l m) :
    m.supervisor.handles = l.supervisor.handles ∨
      (∃ h : ProcessHandle, h.id = ⟨l.supervisor.nextId⟩ ∧ h.isAlive = true ∧
        l.context.shuttingDown = false ∧
        m.supervisor.handles = l.supervisor.handles.insert l.supervisor.nextId h) ∨
      ∃ id h signal, l.supervisor.find? id = some h ∧ h.isAlive = true ∧
        m.supervisor.handles = l.supervisor.handles.insert h.id.number (h.markSent signal) := by
  cases h with
  | spawn spec seq a t onExit h hid hh hl _ _ _ =>
      obtain ⟨r, -, -, -, -, heq⟩ := (l.withStarted h spec).attend_eq seq a onExit spec.name h
      rw [heq]
      refine .inr (.inl ⟨h, hid, ?_, hl, rfl⟩)
      rw [ProcessHandle.isAlive, hh.1]
      rfl
  | mark id h signal sent hf ha hw =>
      refine .inr (.inr ⟨id, h, signal, hf, ha, ?_⟩)
      rw [← h.id_markSent signal]
      rfl
  | _ => exact .inl rfl

/-- What an effect puts on the history. Work begins only while no shutdown is under way. -/
theorem history (h : Effect p l m) :
    (∃ os, m.history = os ++ l.history ∧
        ∀ o ∈ os, o.isOfLoop = false ∧ o.beginsWork = false) ∨
      (l.context.shuttingDown = false ∧ ∃ t, m.history = .scheduled l.nextTimer t :: l.history) ∨
      ∃ r w onExit, l.Starts m r w onExit ∧ r.action.Every p := by
  have hnone : ∀ {n : Launch}, n.history = l.history →
      ∃ os, n.history = os ++ l.history ∧
        ∀ o ∈ os, o.isOfLoop = false ∧ o.beginsWork = false := fun hn => ⟨[], hn, by simp⟩
  have hone : ∀ {n : Launch} (o : Occurrence), n.history = o :: l.history → o.isOfLoop = false →
      o.beginsWork = false → ∃ os, n.history = os ++ l.history ∧
        ∀ o ∈ os, o.isOfLoop = false ∧ o.beginsWork = false := by
    intro n o hn hloop hwork
    refine ⟨[o], hn, ?_⟩
    intro o' ho'
    rw [List.mem_singleton.mp ho']
    exact ⟨hloop, hwork⟩
  cases h with
  | enter => exact .inl (hone _ rfl rfl rfl)
  | leave => exact .inl (hone _ rfl rfl rfl)
  | line => exact .inl (hone _ rfl rfl rfl)
  | interrupt => exact .inl (hone _ rfl rfl rfl)
  | unregister => exact .inl (hone _ rfl rfl rfl)
  | emit => exact .inl (hone _ rfl rfl rfl)
  | request => exact .inl (hone _ rfl rfl rfl)
  | fail => exact .inl (hone _ rfl rfl rfl)
  | failLate => exact .inl (hone _ rfl rfl rfl)
  | failFast =>
      refine .inl ⟨[_, _], rfl, ?_⟩
      simp [Occurrence.isOfLoop, Occurrence.beginsWork]
  | cancelTimer => exact .inl (hone _ rfl rfl rfl)
  | signalled => exact .inl (hone _ rfl rfl rfl)
  | schedule _ _ _ _ _ hl _ => exact .inr (.inl ⟨hl, _, rfl⟩)
  | spawn spec seq a t onExit h hid hh hl hd ha _ =>
      obtain ⟨r, -, hinfo, hact, hscope, heq⟩ :=
        (l.withStarted h spec).attend_eq seq a onExit spec.name h
      have hrid : r.info.id = h.id := by rw [hinfo]
      refine .inr (.inr ⟨r, if onExit.isEmpty then none else some l.registry.nextId, onExit,
        ⟨hrid.trans hid, hscope, ⟨t, hact ▸ hd⟩, hl, ⟨spec, ?_⟩, ?_⟩, hact ▸ ha⟩)
      · rw [heq, hrid]
        rfl
      · rw [heq, hrid]
        by_cases ho : onExit = []
        · subst ho
          exact .inl ⟨rfl, rfl, rfl⟩
        · have hempty : ¬ onExit.isEmpty = true := by simpa using ho
          refine .inr ⟨ho, if_neg hempty, if_neg hempty⟩
  | _ => exact .inl (hnone rfl)

/-- An event is queued by a deed that emits it, or while no shutdown is under way. -/
theorem pending (h : Effect p l m) :
    m.context.pending = l.context.pending ∨
      ∃ e, m.context.pending = l.context.pending ++ [e] ∧
        (p (.emit e) ∨ l.context.shuttingDown = false) := by
  cases h with
  | emit e he => exact .inr ⟨e, rfl, .inl he⟩
  | request reason due hl => exact .inr ⟨_, rfl, .inr hl⟩
  | failFast e _ _ hl => exact .inr ⟨_, rfl, .inr hl⟩
  | spawn spec seq a t onExit h _ _ hl _ _ _ =>
      obtain ⟨r, -, -, -, -, heq⟩ := (l.withStarted h spec).attend_eq seq a onExit spec.name h
      rw [heq]
      exact .inr ⟨_, rfl, .inr hl⟩
  | _ => exact .inl rfl

/-- The launch is asked to shut down by the request that is queued with it. -/
theorem flag (h : Effect p l m) :
    m.context.shuttingDown = l.context.shuttingDown ∨
      l.context.shuttingDown = false ∧ ∃ reason due,
        m.context.pending = l.context.pending ++ [.shutdownRequested reason due] := by
  cases h with
  | request reason due hl => exact .inr ⟨hl, reason, due, rfl⟩
  | failFast e _ _ hl => exact .inr ⟨hl, _, _, rfl⟩
  | spawn spec seq a t onExit h _ _ _ _ _ _ =>
      obtain ⟨r, -, -, -, -, heq⟩ := (l.withStarted h spec).attend_eq seq a onExit spec.name h
      rw [heq]
      exact .inl rfl
  | _ => exact .inl rfl

theorem grown (h : Effect p l m) : l.Grown m := by
  constructor
  · cases h with
    | request => exact fun _ => rfl
    | failFast => exact fun _ => rfl
    | spawn spec seq a t onExit h _ _ _ _ _ _ =>
        obtain ⟨r, -, -, -, -, heq⟩ := (l.withStarted h spec).attend_eq seq a onExit spec.name h
        rw [heq]
        exact id
    | _ => exact id
  · rcases h.history with ⟨os, hos, hq⟩ | ⟨-, t, hos⟩ | ⟨r, w, onExit, hs, -⟩
    · exact ⟨os, hos, fun o ho => (hq o ho).1⟩
    · exact ⟨[_], hos, by simp [Occurrence.isOfLoop]⟩
    · obtain ⟨spec, hos⟩ := hs.history
      exact ⟨[_, _, _], hos, by simp [Occurrence.isOfLoop]⟩
  · rcases h.registry with hr | ⟨b, -, hr⟩ | ⟨name, hr⟩
    · exact Nat.le_of_eq (congrArg Registry.nextId hr).symm
    · rw [hr]
      exact Nat.le_succ _
    · exact Nat.le_of_eq (congrArg Registry.nextId hr).symm
  · cases h with
    | refuse => exact Nat.le_succ _
    | spawn spec seq a t onExit h _ _ _ _ _ _ =>
        obtain ⟨r, -, -, -, -, heq⟩ := (l.withStarted h spec).attend_eq seq a onExit spec.name h
        rw [heq]
        exact Nat.le_succ _
    | _ => exact Nat.le_refl _

end Effect

namespace Effects

theorem sameLoop (h : Effects p l m) : l.SameLoop m := by
  induction h with
  | refl => exact .refl l
  | tail _ h ih => exact ih.trans h.sameLoop

theorem grown (h : Effects p l m) : l.Grown m := by
  induction h with
  | refl => exact .refl l
  | tail _ h ih => exact ih.trans h.grown

/-- Effects of which no deed is the cause queue nothing during a shutdown. -/
theorem pending_of_shuttingDown (h : Effects (fun _ => False) l m)
    (hl : l.context.shuttingDown = true) : m.context.pending = l.context.pending := by
  induction h with
  | refl => rfl
  | tail hbefore hlast ih =>
      rcases hlast.pending with hp | ⟨e, -, hemit | hf⟩
      · exact hp.trans ih
      -- No deed emitted it, and whatever else queues an event needs the flag off.
      · exact hemit.elim
      · have hflag := Effects.grown hbefore |>.flag hl
        rw [hf] at hflag
        cases hflag

end Effects

end Conductor
