import Conductor.Proofs.Launch.Origin
import Conductor.Proofs.Launch.Timing

/-!
# What is left for later remembers its bindings

The body of a timer, what follows the end of a process and a process that is started again are
activated under the bindings of the launch in which they were left for later, on top of the root
as it is when they begin (`Beginning.Recalls`). The bindings are looked up in one scope, the
snapshot of all scopes of that time, so whatever happens in between does not reach them
(`Course.remembers_of_begins`). A process that is started again takes a snapshot with the saved
scope on top, so from one generation to the next nothing that was bound is lost
(`Course.lineage`).
-/

namespace Conductor

/-- Whatever the first scope binds, the second one binds alike. -/
structure Scope.Within (s t : Scope) : Prop where
  vars : ∀ n v, s.vars.get? n = some v → t.vars.get? n = some v
  env : ∀ n o, s.env.get? n = some o → t.env.get? n = some o

theorem Scope.Within.refl (s : Scope) : s.Within s :=
  ⟨fun _ _ => id, fun _ _ => id⟩

theorem Scope.Within.trans {s t u : Scope} (h : s.Within t) (h' : t.Within u) : s.Within u :=
  ⟨fun n v hv => h'.vars n v (h.vars n v hv), fun n o ho => h'.env n o (h.env n o ho)⟩

namespace Beginning

/-- When the body begins, a name has the value that was visible in the launch, or else the one
that the root gives now. The same holds of overrides of the environment, where a variable that
was taken away counts as one that was visible. -/
structure Recalls (b : Beginning) (k : Launch) : Prop where
  lookup : ∀ n, b.opened.context.lookup n =
    (k.context.lookup n).or (b.opened.context.scopes.root.vars.get? n)
  override : ∀ n, b.opened.context.scopes.override? n =
    (k.context.scopes.override? n).or (b.opened.context.scopes.root.env.get? n)

/-- When the body begins, every name that was visible in the launch still has the value of
then. -/
structure Preserves (b : Beginning) (k : Launch) : Prop where
  lookup : ∀ n v, k.context.lookup n = some v → b.opened.context.lookup n = some v
  override : ∀ n o, k.context.scopes.override? n = some o →
    b.opened.context.scopes.override? n = some o

/-- The body starts the process again. -/
inductive Restarts (b : Beginning) (r : RunningProcess) : Prop where
  | now (hc : b.cause = .respawn r.info.id)
  /-- The wait that began when the process had ended is over. -/
  | later (id : Nat) (t : Timer) (hc : b.cause = .timer id) (hp : b.launch.Postpones r id t)

/-- The body is what follows the end of the process. -/
def Follows (b : Beginning) (r : RunningProcess) : Prop :=
  ∃ hid, b.cause = .handler hid ∧ .kept r (some hid) ∈ b.launch.history

/-- The body, if it was left for later by one of the deeds performed before, recalls the launch in
which that deed was performed. -/
structure Remembers (performed : Action → Launch → Prop) (b : Beginning) : Prop where
  /-- The timer that fires was scheduled once under its number: by a deed, whose actions the body
  consists of, or as the wait before a process is started again. -/
  timer : ∀ id, b.cause = .timer id → ∃ t, (∀ t', .scheduled id t' ∈ b.launch.history ↔ t' = t) ∧
    b.actions = t.actions ∧ ((∃ a k, performed a k ∧ k.Schedules a id t ∧ b.Recalls k) ∨
      ∃ r w, .kept r w ∈ b.launch.history ∧ b.Restarts r)
  respawn : ∀ id, b.cause = .respawn id → ∃ r w, .kept r w ∈ b.launch.history ∧ r.info.id = id
  /-- The process that is started again, now or after a delay, was started by a deed. -/
  restart : ∀ r w, .kept r w ∈ b.launch.history → b.Restarts r → b.actions = [r.action] ∧
    ∃ k, performed r.action k ∧ k.Spawns r w ∧ b.Recalls k
  /-- So was the process whose end is followed. -/
  follow : ∀ r hid, b.cause = .handler hid → .kept r (some hid) ∈ b.launch.history →
    (∃ t, r.action.deed = .execute t b.actions) ∧
      ∃ k, performed r.action k ∧ k.Spawns r (some hid) ∧ b.Recalls k

end Beginning

/-- The second process is of the generation after the first one: the body that starts the first
one again has started it. -/
def Generation (bs : List Beginning) (l : Launch) (r r' : RunningProcess) : Prop :=
  ∃ b ∈ bs, b.Restarts r ∧ ∃ w k, .kept r' w ∈ l.history ∧
    BodyReaches b.actions b.opened r'.action k ∧ k.Spawns r' w

variable {config : Config} {host : Host} {args : LaunchArguments} {description : List Action}
  {bs : List Beginning} {s s' : Phase} {b : Beginning} {l m k : Launch} {p : Deed → Prop}
  {r : RunningProcess} {w : Option Nat}

/-! ## The handlers that follow processes -/

namespace Registry

/-- Under the numbers that were given already the new registry has only handlers of the old one;
their triggers may have seen events. -/
structure Retains (g g' : Registry) : Prop where
  nextId : g.nextId ≤ g'.nextId
  old : ∀ h ∈ g'.entries, h.id < g.nextId → ∃ h₀ ∈ g.entries, h₀.id = h.id ∧
    h₀.handler.body = h.handler.body ∧ h₀.handler.scope = h.handler.scope

theorem Within.retains {g g' : Registry} (h : g.Within g') : g.Retains g' :=
  ⟨h.nextId, fun f hf hlt => ⟨f, h.old f hf hlt, rfl, rfl, rfl⟩⟩

theorem retains_matching (g : Registry) (e : Event) : g.Retains (g.matching e).2 := by
  refine ⟨Nat.le_refl _, fun h hh _ => ?_⟩
  obtain ⟨h₀, hmem, rfl⟩ := List.mem_map.mp hh
  exact ⟨h₀, hmem, rfl, rfl, rfl⟩

end Registry

/-- No move gives another body or other bindings to a handler. -/
theorem Move.retains (h : Move p l m) : l.registry.Retains m.registry := by
  have hsame : ∀ {n : Launch}, n.registry = l.registry → l.registry.Retains n.registry := by
    intro n hn
    rw [hn]
    exact (Registry.Within.refl _).retains
  cases h with
  | effect h => exact h.within.retains
  | take e rest hp hc hs => exact Registry.retains_matching l.registry e
  | ignore e rest hp hc he hs => exact hsame rfl
  | answer e h writer as hc hf hm hy has =>
      exact (Launch.sameTurn_withWriter l h writer).registry.retains
  | decline e h writer hc hf hm hy =>
      exact (Launch.sameTurn_withWriter l h writer).registry.retains
  | resume cause as scope hcause has => exact hsame rfl
  | close e hc hs he => exact hsame rfl
  | release q status r hc hr =>
      exact (Launch.calm_releaseProcess (l.closeTurn _) q.id).registry.retains
  | shutdown reason due hc hb =>
      obtain ⟨deadline, hcalm⟩ := Launch.calm_beginShutdown hb
      exact hcalm.registry.retains
  | arrive a hc hp ha => exact hsame rfl
  | notice a n hc hp ha => exact (Launch.calm_onNotice (l.arrive a) n).registry.retains
  | elapse id t hc hp ht => exact (Launch.calm_elapse l id t).registry.retains
  | kill hc hp hs => exact (Launch.calm_killRemaining l).registry.retains

/-- As long as the handler that follows the end of a process is registered, its body is the list
of the action that started the process, and its bindings are those of the start. -/
def Launch.Entrusted (l : Launch) : Prop :=
  ∀ r hid, .kept r (some hid) ∈ l.history → hid < l.registry.nextId ∧
    ∀ h ∈ l.registry.entries, h.id = hid → h.handler.scope = some r.scope ∧
      ∃ t onExit, r.action.deed = .execute t onExit ∧ h.handler.body = .actions onExit

namespace Launch

theorem Entrusted.move (hl : l.Entrusted) (hr : l.registry.Sound) (h : Move p l m) :
    m.Entrusted := by
  intro r hid hk
  rcases h.history.kept hk with hk | ⟨onExit, hs⟩
  · obtain ⟨hlt, hhandler⟩ := hl r hid hk
    refine ⟨Nat.lt_of_lt_of_le hlt h.retains.nextId, fun g hg hgid => ?_⟩
    obtain ⟨g₀, hg₀, hid₀, hbody, hscope⟩ := h.retains.old g hg (hgid ▸ hlt)
    rw [← hbody, ← hscope]
    exact hhandler g₀ hg₀ (hid₀.trans hgid)
  · rcases hs.registry with ⟨-, hw, -⟩ | ⟨-, hw, hregister⟩
    · cases hw
    · -- The process has just been started, and its list stands behind all other handlers.
      cases hw
      rw [hregister]
      refine ⟨Nat.lt_succ_self _, fun g hg hgid => ?_⟩
      rcases List.mem_append.mp hg with hg | hg
      · have hbelow := hr.below g.id (Registry.mem_ids.mpr ⟨g, hg, rfl⟩)
        rw [hgid] at hbelow
        exact absurd hbelow (Nat.lt_irrefl _)
      · rw [List.mem_singleton.mp hg]
        obtain ⟨t, hd⟩ := hs.deed
        exact ⟨rfl, t, onExit, hd, rfl⟩

theorem entrusted_of_moves (h : Moves p (start config host args) l) : l.Entrusted := by
  induction h with
  | refl =>
      intro r hid hk
      cases hk
  | tail hbefore hlast ih => exact ih.move ((sound_start _ _ _).moves hbefore).registry hlast

end Launch

/-! ## What a body begins with -/

/-- A body that is activated under the bindings of a launch recalls it. -/
theorem Beginning.recalls_of_scope (hs : b.scope = some k.context.snapshot)
    (hroot : b.launch.context.scopes.inner = []) : b.Recalls k := by
  have hopened := b.scopes_opened hs
  have hsame : b.opened.context.scopes.root = b.launch.context.scopes.root := by
    rw [hopened]
    rfl
  -- Below the bindings there is the root alone.
  have hvars : ∀ n, b.launch.context.scopes.lookup n =
      b.launch.context.scopes.root.vars.get? n := by
    intro n
    simp [ScopeStack.lookup, ScopeStack.toList, hroot]
  have henv : ∀ n, b.launch.context.scopes.override? n =
      b.launch.context.scopes.root.env.get? n := by
    intro n
    simp [ScopeStack.override?, ScopeStack.toList, hroot]
  constructor
  · intro n
    rw [Context.lookup, hsame, hopened, ScopeStack.lookup_push, hvars, Context.snapshot,
      ScopeStack.get?_vars_flatten]
    rfl
  · intro n
    rw [hsame, hopened, ScopeStack.override?_push, henv, Context.snapshot,
      ScopeStack.get?_env_flatten]

/-- A body that is activated under more than the bindings of a launch still preserves them. -/
theorem Beginning.preserves_of_within {scope : Scope} (hs : b.scope = some scope)
    (hk : k.context.snapshot.Within scope) : b.Preserves k := by
  have hopened := b.scopes_opened hs
  constructor
  · intro n v hv
    have hbound := hk.vars n v (by rw [Context.snapshot, ScopeStack.get?_vars_flatten]; exact hv)
    rw [Context.lookup, hopened, ScopeStack.lookup_push, hbound, Option.some_or]
  · intro n o ho
    have hbound := hk.env n o (by rw [Context.snapshot, ScopeStack.get?_env_flatten]; exact ho)
    rw [hopened, ScopeStack.override?_push, hbound, Option.some_or]

namespace Course

/-- The timer that fires was scheduled, once. -/
theorem timer_body (h : Course config host args description bs s l) (hb : s.Begins l b s')
    {id : Nat} (hc : b.cause = .timer id) :
    ∃ t, (∀ t', .scheduled id t' ∈ b.launch.history ↔ t' = t) ∧ b.actions = t.actions ∧
      b.scope = some t.scope := by
  have hsteady := hb.steady
  cases hb with
  | answer hf hy hm ha => cases hc
  | restart hr hd hz => cases hc
  | @fire _ a i t hp hi ha ht =>
      cases hc
      have hscheduled : .scheduled id t ∈ l.history :=
        Launch.scheduled_mem_timerMarks.mp (Launch.grounded_of_moves h.strides.moves id t ht)
      refine ⟨t, fun t' => ⟨fun ht' => ?_, ?_⟩, rfl, rfl⟩
      · exact (Launch.told_of_strides h.strides id).unique
          (Launch.scheduled_mem_timerMarks.mpr (hsteady.mem_scheduled ht'))
          (Launch.scheduled_mem_timerMarks.mpr hscheduled)
      · rintro rfl
        exact hsteady.mono hscheduled

/-- The process that is started again was kept. -/
theorem respawn_body (h : Course config host args description bs s l) (hb : s.Begins l b s')
    {id : ProcessId} (hc : b.cause = .respawn id) :
    ∃ r w, .kept r w ∈ b.launch.history ∧ r.info.id = id ∧ b.actions = [r.action] ∧
      b.scope = some r.scope := by
  have hsteady := hb.steady
  cases hb with
  | answer hf hy hm ha => cases hc
  | fire hp hi ha ht => cases hc
  | restart hr hd hz =>
      cases hc
      obtain ⟨-, w, hkept⟩ := h.exists_kept hr
      exact ⟨_, w, hsteady.mono hkept, rfl, rfl, rfl⟩

/-- What follows the end of a process is the list of its action. -/
theorem handler_body (h : Course config host args description bs s l) (hb : s.Begins l b s')
    {hid : Nat} (hc : b.cause = .handler hid) (hk : .kept r (some hid) ∈ b.launch.history) :
    (∃ t, r.action.deed = .execute t b.actions) ∧ b.scope = some r.scope := by
  have hkept := hb.steady.mem_kept hk
  cases hb with
  | restart hr hd hz => cases hc
  | fire hp hi ha ht => cases hc
  | @answer _ m e writer i ids g as hf hy hm ha =>
      cases hc
      obtain ⟨hmem, heq⟩ := Registry.mem_of_find? hf
      obtain ⟨hscope, t, onExit, hd, hbody⟩ :=
        (Launch.entrusted_of_moves h.strides.moves r hid hkept).2 g hmem heq
      rw [hbody] at hy
      cases hy
      exact ⟨⟨t, hd⟩, hscope⟩

/-- A wait that is over starts the process again under the bindings of its start. -/
theorem postponed_body (h : Course config host args description bs s l) (hb : s.Begins l b s')
    {id : Nat} {t : Timer} (hc : b.cause = .timer id) (hp : b.launch.Postpones r id t) :
    b.actions = [r.action] ∧ b.scope = some r.scope := by
  obtain ⟨t', hunique, hactions, hscope⟩ := h.timer_body hb hc
  obtain ⟨newer, freed, older, q, status, hh, -⟩ := hp.turn
  obtain rfl : t = t' := by
    refine (hunique t).mp ?_
    rw [hh]
    exact List.mem_append_right newer List.mem_cons_self
  exact ⟨hactions.trans hp.actions, by rw [hscope, hp.scope]⟩

/-- The process that is started again is the one that was kept under its number, also when that
is seen later. -/
theorem restart_body (h : Course config host args description bs s l) (hb : s.Begins l b s')
    (hm : Moves p (.start config host args) m)
    (hlater : ∀ r w, .kept r w ∈ b.launch.history → .kept r w ∈ m.history)
    (hk : .kept r w ∈ m.history) (hr : b.Restarts r) :
    b.actions = [r.action] ∧ b.scope = some r.scope := by
  cases hr with
  | now hc =>
      obtain ⟨r', w', hk', hid, hactions, hscope⟩ := h.respawn_body hb hc
      obtain ⟨rfl, -⟩ := Launch.kept_unique hm hk (hlater r' w' hk') hid.symm
      exact ⟨hactions, hscope⟩
  | later id t hc hp => exact h.postponed_body hb hc hp

/-- **What was left for later recalls the launch in which it was.** -/
theorem remembers_of_begins (h : Course config host args description bs s l)
    (hb : s.Begins l b s') : b.Remembers (HasPerformed config host args description bs) := by
  have htraced := h.traced.steady hb.steady
  have hspawned : ∀ r w, .kept r w ∈ b.launch.history → b.scope = some r.scope →
      ∃ k, HasPerformed config host args description bs r.action k ∧ k.Spawns r w ∧
        b.Recalls k := by
    intro r w hk hscope
    obtain ⟨k, hperformed, hs⟩ := htraced.history _ hk
    rw [hs.scope] at hscope
    exact ⟨k, hperformed, hs, Beginning.recalls_of_scope hscope htraced.scopes⟩
  constructor
  case timer =>
    intro id hc
    obtain ⟨t, hunique, hactions, hscope⟩ := h.timer_body hb hc
    refine ⟨t, hunique, hactions, ?_⟩
    rcases htraced.history _ ((hunique t).mpr rfl) with ⟨a, k, hperformed, hs⟩ | ⟨r, w, hk, hp⟩
    · rw [hs.scope] at hscope
      exact .inl ⟨a, k, hperformed, hs, Beginning.recalls_of_scope hscope htraced.scopes⟩
    · exact .inr ⟨r, w, hk, .later id t hc hp⟩
  case respawn =>
    intro id hc
    obtain ⟨r, w, hk, hid, -⟩ := h.respawn_body hb hc
    exact ⟨r, w, hk, hid⟩
  case restart =>
    intro r w hk hr
    obtain ⟨hactions, hscope⟩ :=
      h.restart_body hb h.strides.moves (fun _ _ => hb.steady.mem_kept) (hb.steady.mem_kept hk) hr
    exact ⟨hactions, hspawned r w hk hscope⟩
  case follow =>
    intro r hid hc hk
    obtain ⟨hd, hscope⟩ := h.handler_body hb hc hk
    exact ⟨hd, hspawned r _ hk hscope⟩

/-! ## From one generation to the next -/

/-- What is on the history when a body is over stays there. -/
theorem suffix_closed {later earlier : List Beginning}
    (h : Course config host args description bs s l) (hbs : bs = later ++ b :: earlier) :
    b.closed.history <:+ l.history := by
  induction h generalizing later with
  | begin => simp at hbs
  | pass _ hp ih => exact (ih hbs).trans hp.suffix_history
  | @body bs s t l b' _ hb ih =>
      rcases split_of_cons hbs with ⟨-, rfl, rfl⟩ | ⟨rest, -, hrest⟩
      · exact List.suffix_refl _
      · exact ((ih hrest).trans hb.steady.leaves.suffix_history).trans b'.suffix_history

/-- So does what is there when it begins. -/
theorem suffix_history {later earlier : List Beginning}
    (h : Course config host args description bs s l) (hbs : bs = later ++ b :: earlier) :
    b.launch.history <:+ l.history :=
  b.suffix_history.trans (h.suffix_closed hbs)

/-- Of the bodies that have begun, those that start a process again do so under the bindings of
its start. -/
theorem restart_of_mem (h : Course config host args description bs s l) (hb : b ∈ bs)
    (hk : .kept r w ∈ l.history) (hr : b.Restarts r) :
    b.actions = [r.action] ∧ b.scope = some r.scope := by
  obtain ⟨later, earlier, hbs⟩ := List.append_of_mem hb
  obtain ⟨s₀, l₀, s₁, hbefore, hbegins⟩ := h.exists_begins hbs
  exact hbefore.restart_body hbegins h.strides.moves
    (fun _ _ hkept => (h.suffix_history hbs).subset hkept) hk hr

/-- So do those that follow the end of a process. -/
theorem follow_of_mem (h : Course config host args description bs s l) (hb : b ∈ bs)
    (hf : b.Follows r) : b.scope = some r.scope := by
  obtain ⟨later, earlier, hbs⟩ := List.append_of_mem hb
  obtain ⟨s₀, l₀, s₁, hbefore, hbegins⟩ := h.exists_begins hbs
  obtain ⟨hid, hc, hk⟩ := hf
  exact (hbefore.handler_body hbegins hc hk).2

end Course

/-- An action without children is all that is performed when it is activated. -/
theorem BodyReaches.admits_of_isLeaf {a c : Action} (hleaf : a.deed.isLeaf = true)
    (h : BodyReaches [a] l c k) : c = a ∧ l.Admits a k := by
  cases h with
  | tail h => cases h
  | head h =>
      cases h with
      | self hadmits => exact ⟨rfl, hadmits⟩
      | child hadmits hopens hc =>
          unfold Launch.opens at hopens
          rw [Deed.plan_of_isLeaf hleaf] at hopens
          cases hopens

/-- It is performed in the scopes in which it is activated. -/
theorem BodyReaches.scopes_of_isLeaf {a c : Action} (hleaf : a.deed.isLeaf = true)
    (h : BodyReaches [a] l c k) : k.context.scopes = l.context.scopes := by
  obtain ⟨-, hadmits⟩ := h.admits_of_isLeaf hleaf
  have hgate := (Launch.aside_gate (l.enter a).2 l.journal.size a).scopes
  rw [show (l.enter a).2.gate l.journal.size a = (k, none) from hadmits] at hgate
  exact hgate

namespace Course

/-- Nothing that is bound for a process is lost when it is started again. -/
theorem within_of_generation {r' : RunningProcess}
    (h : Course config host args description bs s l) (hk : .kept r w ∈ l.history)
    (hg : Generation bs l r r') : r.scope.Within r'.scope := by
  obtain ⟨b, hb, hr, w', k, hk', hreach, hspawns⟩ := hg
  obtain ⟨hactions, hscope⟩ := h.restart_of_mem hb hk hr
  obtain ⟨k₀, -, hspawns₀⟩ := h.traced.history _ hk
  obtain ⟨t, onExit, hd⟩ := hspawns₀.deed
  rw [hactions] at hreach
  -- The body is the action that started the process, and it starts the next one on the spot.
  have hsame := hreach.scopes_of_isLeaf (by rw [hd]; rfl)
  rw [hspawns.scope, Context.snapshot, hsame, b.scopes_opened hscope]
  constructor
  · intro n v hv
    rw [ScopeStack.get?_vars_flatten, ScopeStack.lookup_push, hv, Option.some_or]
  · intro n o ho
    rw [ScopeStack.get?_env_flatten, ScopeStack.override?_push, ho, Option.some_or]

/-- **Nor is it after any number of generations.** -/
theorem lineage {r₀ : RunningProcess} (h : Course config host args description bs s l)
    (hk : .kept r₀ w ∈ l.history) (hg : Relation.ReflTransGen (Generation bs l) r₀ r) :
    (∃ w', .kept r w' ∈ l.history) ∧ r₀.scope.Within r.scope := by
  induction hg with
  | refl => exact ⟨⟨w, hk⟩, .refl _⟩
  | tail _ hlast ih =>
      obtain ⟨⟨w', hk'⟩, hwithin⟩ := ih
      have hnext := hwithin.trans (h.within_of_generation hk' hlast)
      obtain ⟨b, -, -, w'', k, hk'', -⟩ := hlast
      exact ⟨⟨w'', hk''⟩, hnext⟩

end Course

/-- **What was left for later sees the bindings of the time when it was.** A run takes a course, on
which every body that the history tells of is listed with the launch in which it begins. The body
of a timer, a process that is started again, at once or after a delay, and what follows the end of
a process recall the launch in which the deed was performed that scheduled the timer or started
the process: what was visible there they see as it was, and of the rest what the root gives when
they begin. So however often a process is started again, each generation, and what follows its
end, begins with everything that was visible when the first one was started. -/
theorem deferred_bodies_recall {x : Standing} (h : Reachable config host args description x) :
    ∃ bs, Course config host args description bs x.phase x.launch ∧
      bs.map (·.occurrence) = x.launch.history.filter (·.isBeginning) ∧
      (∀ later b earlier, bs = later ++ b :: earlier →
        b.Remembers (HasPerformed config host args description earlier)) ∧
      ∀ r₀ w k, .kept r₀ w ∈ x.launch.history → k.Spawns r₀ w →
        ∀ r, Relation.ReflTransGen (Generation bs x.launch) r₀ r →
          ∀ b ∈ bs, b.Restarts r ∨ b.Follows r → b.Preserves k := by
  obtain ⟨bs, hcourse⟩ := h.course
  refine ⟨bs, hcourse, hcourse.map_occurrence, fun later b earlier hbs => ?_, ?_⟩
  · obtain ⟨s₀, l₀, s₁, hbefore, hbegins⟩ := hcourse.exists_begins hbs
    exact hbefore.remembers_of_begins hbegins
  · intro r₀ w k hk hspawns r hlineage b hb hdeferred
    obtain ⟨⟨w', hk'⟩, hwithin⟩ := hcourse.lineage hk hlineage
    have hscope : b.scope = some r.scope := by
      rcases hdeferred with hr | hf
      · exact (hcourse.restart_of_mem hb hk' hr).2
      · exact hcourse.follow_of_mem hb hf
    rw [hspawns.scope] at hwithin
    exact Beginning.preserves_of_within hscope hwithin

/-- A worker that is started again as soon as it ends, in a group with a variable of its own, and a
variable of the same name that is set for all afterwards. -/
def steadyWorker : List Action :=
  [.mk ⟨1⟩ none (.group [("x", [.text "1"])]
      [.mk ⟨2⟩ none
        (.execute { command := [[.text "worker"]], respawn := some (.zero false) } [])]),
    .mk ⟨3⟩ none (.setVariable .root "x" (.text [.text "2"]))]

/-- Whether the first process was started again, every process was started where the variable has
the value of the group, and the root gives it the other one. -/
def Standing.hasRestarted (s : Standing) : Bool :=
  s.launch.history.any (fun | .began (.respawn id) _ _ => id = ⟨1⟩ | _ => false) &&
    s.launch.history.all
      (fun | .kept r _ => (r.scope.vars.get? "x").any (·.toText = "1") | _ => true) &&
    (s.launch.context.scopes.root.vars.get? "x").any (·.toText = "2")

/-- The worker that is started again sees the variable of its group. -/
theorem restarted_sees_group :
    ∃ s bs b, Reachable .standard .willing [] steadyWorker s ∧
      Course .standard .willing [] steadyWorker bs s.phase s.launch ∧ b ∈ bs ∧
      b.cause = .respawn ⟨1⟩ ∧ (b.opened.context.lookup "x").any (·.toText = "1") = true ∧
      (s.launch.context.scopes.root.vars.get? "x").any (·.toText = "2") = true := by
  have hrun : Reachable.comesTo Standing.hasRestarted ((Launch.begin .standard .willing []
      steadyWorker).run 9
      [⟨.zero, .willing, .notice (.exited ⟨1⟩ ⟨some 0, none⟩ none)⟩]) = true := by decide +kernel
  obtain ⟨s, hs, hcheck⟩ := Reachable.exists_of_comesTo 9 _ hrun
  simp only [Standing.hasRestarted, Bool.and_eq_true] at hcheck
  obtain ⟨⟨hbegan, hkept⟩, hroot⟩ := hcheck
  obtain ⟨bs, hcourse, hmap, hremembers, -⟩ := deferred_bodies_recall hs
  obtain ⟨o, ho, hcause⟩ := List.any_eq_true.mp hbegan
  have hmem : o ∈ bs.map (·.occurrence) := by
    rw [hmap]
    refine List.mem_filter.mpr ⟨ho, ?_⟩
    cases o with
    | began => rfl
    | _ => cases hcause
  obtain ⟨b, hb, rfl⟩ := List.mem_map.mp hmem
  have hrespawn : b.cause = .respawn ⟨1⟩ := by
    obtain ⟨cause, actions, scope, l⟩ := b
    cases cause with
    | respawn id => exact congrArg BodyCause.respawn (of_decide_eq_true hcause)
    | _ => cases hcause
  obtain ⟨later, earlier, hbs⟩ := List.append_of_mem hb
  have hb' := hremembers later b earlier hbs
  obtain ⟨r, w, hk, hid⟩ := hb'.respawn ⟨1⟩ hrespawn
  obtain ⟨-, k, -, hspawns, hrecalls⟩ := hb'.restart r w hk (.now (by rw [hrespawn, hid]))
  have hgroup := List.all_eq_true.mp hkept _ ((hcourse.suffix_history hbs).subset hk)
  refine ⟨s, bs, b, hs, hcourse, hb, hrespawn, ?_, hroot⟩
  have hseen : k.context.lookup "x" = r.scope.vars.get? "x" := by
    rw [hspawns.scope, Context.snapshot, ScopeStack.get?_vars_flatten]
    rfl
  rw [hrecalls.lookup, hseen]
  cases hx : r.scope.vars.get? "x" with
  | none =>
      dsimp only at hgroup
      rw [hx] at hgroup
      cases hgroup
  | some v =>
      dsimp only at hgroup
      rw [hx] at hgroup
      exact hgroup

end Conductor
