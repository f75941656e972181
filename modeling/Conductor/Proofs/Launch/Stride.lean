import Conductor.Proofs.Launch.Move

/-!
# The strides of a launch

A move may end in the middle of an activation. `Stride` lists the larger pieces in which the
loop goes on, with a whole body as one piece, so between two strides nothing is being activated.
Every stride is a sequence of moves (`Stride.moves`); what holds of activations as a whole is
proved stride by stride.
-/

namespace Conductor

/-- One stride of the loop of a launch whose deeds all satisfy the predicate. -/
inductive Stride (p : Deed → Prop) (l : Launch) : Launch → Prop where
  /-- The description is activated before anything else. -/
  | describe (as : List Action) (hl : l.history = []) (has : ∀ a ∈ as, a.Every p) :
      Stride p l (Launch.activateAll as l)
  /-- The turn of the oldest waiting event begins. -/
  | take (e : Event) (rest : List Event) (hp : l.context.pending = e :: rest)
      (hc : l.context.current = none) (hs : e.isShutdownRequest = true → l.shutdown = none) :
      Stride p l (((l.withoutNext rest).happen (.dispatched e)).openTurn e).2
  /-- A request for a shutdown that has begun is dropped. -/
  | ignore (e : Event) (rest : List Event) (hp : l.context.pending = e :: rest)
      (hc : l.context.current = none) (he : e.isShutdownRequest = true)
      (hs : l.shutdown.isSome = true) : Stride p l ((l.withoutNext rest).happen (.ignored e))
  /-- The function of a handler asks for an interrupt in the turn of an event. -/
  | interrupt (e : Event) (hc : l.context.current = some e) : Stride p l l.interrupt
  /-- A handler that matches the event of the turn answers it, and its body is activated. -/
  | answer (e : Event) (h : RegisteredHandler) (writer : Nat) (as : List Action)
      (hc : l.context.current = some e) (hf : l.registry.find? h.id = some h)
      (hm : (h.handler.observe e).1 = true)
      (hy : (h.handler.body.produce e l.context).answer? = some as) (has : ∀ a ∈ as, a.Every p) :
      Stride p l (Launch.activateBody (.handler h.id) as h.handler.scope (l.withWriter h writer))
  /-- A handler that matches the event of the turn fails to answer it. -/
  | decline (e : Event) (h : RegisteredHandler) (writer : Nat) (err : LaunchError)
      (hc : l.context.current = some e) (hf : l.registry.find? h.id = some h)
      (hm : (h.handler.observe e).1 = true)
      (hy : (h.handler.body.produce e l.context).answer? = none) :
      Stride p l ((l.withWriter h writer).report err)
  /-- The turn of an event ends that asks for no shutdown and ends no process that is kept. -/
  | close (e : Event) (hc : l.context.current = some e) (hs : e.isShutdownRequest = false)
      (he : ∀ q status, e = .processExited q status → l.processes.get? q.id.number = none) :
      Stride p l (l.closeTurn e)
  /-- The turn of the end of a process ends, and the process is given up. -/
  | release (q : ProcessInfo) (status : ExitStatus) (r : RunningProcess)
      (hc : l.context.current = some (.processExited q status))
      (hr : l.processes.get? q.id.number = some r) :
      Stride p l ((l.closeTurn (.processExited q status)).releaseProcess q.id)
  /-- The action of a process that has ended is activated again. -/
  | respawn (r : RunningProcess) (hc : l.context.current = none)
      (hf : l.context.shuttingDown = false) (ha : ∀ a ∈ [r.action], a.Every p) :
      Stride p l (Launch.activateBody (.respawn r.info.id) [r.action] (some r.scope) l)
  /-- It is to be activated again after a delay. -/
  | postpone (r : RunningProcess) (delay : Duration) (hc : l.context.current = none)
      (hf : l.context.shuttingDown = false) (ha : ∀ a ∈ [r.action], a.Every p) :
      Stride p l (l.schedule delay [r.action] r.scope none true)
  /-- The turn of a request for a shutdown ends, and the shutdown begins. -/
  | shutdown (reason : String) (dueToSignal : Bool) {m : Launch}
      (hc : l.context.current = some (.shutdownRequested reason dueToSignal))
      (hb : (l.closeTurn (.shutdownRequested reason dueToSignal)).beginShutdown reason = .ok m) :
      Stride p l m
  /-- A message arrives that is neither about a process nor about a timer that is pending. -/
  | arrive (a : Arrival) (hc : l.context.current = none) (hp : l.context.pending = [])
      (hn : ∀ n, a.message ≠ .notice n)
      (ht : ∀ id, a.message = .timerFired id → l.timers.get? id = none) :
      Stride p l (l.arrive a)
  /-- An interrupt asks for a shutdown. -/
  | request (reason : String) (dueToSignal : Bool) (hc : l.context.current = none)
      (hf : l.context.shuttingDown = false) : Stride p l (l.withRequest reason dueToSignal)
  /-- A notice of a process arrives and is taken in. -/
  | notice (a : Arrival) (n : Notice) (hc : l.context.current = none)
      (hp : l.context.pending = []) (ha : a.message = .notice n) :
      Stride p l ((l.arrive a).onNotice n)
  /-- A timer fires that is pending, and its body is activated. -/
  | fire (a : Arrival) (id : Nat) (t : Timer) (hc : l.context.current = none)
      (hp : l.context.pending = []) (ha : a.message = .timerFired id)
      (ht : l.timers.get? id = some t) (has : ∀ b ∈ t.actions, b.Every p) :
      Stride p l
        (Launch.activateBody (.timer id) t.actions (some t.scope) ((l.arrive a).elapse id t))
  /-- What is left is killed at the end of a shutdown. -/
  | kill (hc : l.context.current = none) (hp : l.context.pending = [])
      (hs : l.context.shuttingDown = true) : Stride p l l.killRemaining

/-- Strides one after the other. -/
abbrev Strides (p : Deed → Prop) : Launch → Launch → Prop :=
  Relation.ReflTransGen (Stride p)

variable {p : Deed → Prop} {l m : Launch}

/-- The message comes, the timer is taken away, and its body begins. -/
theorem Launch.fire_moves {a : Arrival} {id : Nat} {t : Timer} (hc : l.context.current = none)
    (hp : l.context.pending = []) (ha : a.message = .timerFired id)
    (ht : l.timers.get? id = some t) (has : ∀ b ∈ t.actions, b.Every p) :
    Moves p l (((l.arrive a).elapse id t).happen (.began (.timer id) t.actions (some t.scope))) := by
  have harrive : Move p l (l.arrive a) := by
    refine .arrive a hc hp fun n hn => ?_
    rw [ha] at hn
    cases hn
  exact .head harrive (.head (.elapse id t hc hp ht)
    (.single (.resume (.timer id) t.actions (some t.scope) (by simp) has)))

/-- **A stride is made of moves.** -/
theorem Stride.moves (h : Stride p l m) : Moves p l m := by
  have hbody : ∀ (cause : BodyCause) (as : List Action) (scope : Option Scope) (n : Launch),
      (∀ a ∈ as, a.Every p) →
      Moves p (n.happen (.began cause as scope)) (Launch.activateBody cause as scope n) :=
    fun cause as scope n has => (Launch.activateBody_effects has cause scope n).moves
  cases h with
  | describe as _ has => exact (Launch.activateAll_effects has l).moves
  | take e rest hp hc hs => exact .single (.take e rest hp hc hs)
  | ignore e rest hp hc he hs => exact .single (.ignore e rest hp hc he hs)
  | interrupt e hc => exact .single (.effect .interrupt)
  | answer e h writer as hc hf hm hy has =>
      exact .head (.answer e h writer as hc hf hm hy has) (hbody _ as _ _ has)
  | decline e h writer err hc hf hm hy =>
      exact .head (.decline e h writer hc hf hm hy)
        (.single (.effect (Launch.report_effect _ err)))
  | close e hc hs he => exact .single (.close e hc hs he)
  | release q status r hc hr => exact .single (.release q status r hc hr)
  | respawn r hc hf ha =>
      exact .head (.resume (.respawn r.info.id) [r.action] (some r.scope) (by simp) ha)
        (hbody _ _ _ l ha)
  | postpone r delay hc hf ha => exact .single (.effect (.schedule _ _ _ _ _ hf ha))
  | shutdown reason due hc hb => exact .single (.shutdown reason due hc hb)
  | arrive a hc hp hn ht => exact .single (.arrive a hc hp hn)
  | request reason due hc hf => exact .single (.effect (.request reason due hf))
  | notice a n hc hp ha => exact .single (.notice a n hc hp ha)
  | fire a id t hc hp ha ht has =>
      exact (Launch.fire_moves hc hp ha ht has).trans (hbody _ _ _ _ has)
  | kill hc hp hs => exact .single (.kill hc hp hs)

theorem Strides.moves (h : Strides p l m) : Moves p l m := by
  induction h with
  | refl => exact .refl
  | tail _ hlast ih => exact ih.trans hlast.moves

theorem Launch.Sound.strides (hl : l.Sound p) (h : Strides p l m) : m.Sound p :=
  hl.moves h.moves

end Conductor
