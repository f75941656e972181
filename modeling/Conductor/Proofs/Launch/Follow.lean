import Conductor.Proofs.Launch.Bookkeeping

/-!
# What follows the end of a process

The list that is to follow the end of a process is registered as a handler when the process
is started. From then on it is in one of two states: it waits in the registry and was never
activated (`Awaits`), or it is gone and was activated once, in a turn of the end of its process
and under the bindings of the start (`Followed`). No move does anything else to it, and none
takes it back (`following_of_moves`), provided that no deed reports the end of a process itself.
-/

namespace Conductor

variable {p : Deed → Prop} {l m : Launch}

namespace Launch

/-- The event that has its turn is the last one that was dispatched. -/
def TurnOpen (l : Launch) : Prop :=
  ∀ e, l.context.current = some e → ∃ between older,
    l.history = between ++ .dispatched e :: older ∧ ∀ o ∈ between, o.marksTurn = false

/-- The list that is to follow the end of the process is registered under a number, and was
never activated. -/
structure Awaits (l : Launch) (r : RunningProcess) (hid : Nat) (onExit : List Action) : Prop where
  entry : ⟨hid, .onExitOf r.info.id onExit r.scope⟩ ∈ l.registry.entries
  silent : ∀ as scope, .began (.handler hid) as scope ∉ l.history

/-- The list was activated once, in the turn of an event that reports the end of the process,
and under the bindings of its start. -/
structure Followed (l : Launch) (r : RunningProcess) (hid : Nat) (onExit : List Action) :
    Prop where
  gone : hid ∉ l.registry.ids
  once : ∃ newer between older status,
    l.history = newer ++ .began (.handler hid) onExit (some r.scope) ::
      (between ++ .dispatched (.processExited r.info status) :: older) ∧
    (∀ o ∈ between, o.marksTurn = false) ∧
    ∀ as scope, .began (.handler hid) as scope ∉ newer ++ between ++ older

/-- The list that is to follow the end of a process that was kept waits for it, or has followed
it. -/
def Tracked (l : Launch) (r : RunningProcess) (w : Option Nat) : Prop :=
  ∃ t onExit, r.action.deed = .execute t onExit ∧
    ((onExit = [] ∧ w = none) ∨
      ∃ hid, w = some hid ∧ onExit ≠ [] ∧ hid < l.registry.nextId ∧
        (l.Awaits r hid onExit ∨ l.Followed r hid onExit))

/-- All lists wait or have followed, and only handlers whose number was given have begun. -/
structure Following (l : Launch) : Prop where
  began : ∀ hid as scope, .began (.handler hid) as scope ∈ l.history → hid < l.registry.nextId
  kept : ∀ r w, .kept r w ∈ l.history → l.Tracked r w

/-! ## The turn is open -/

theorem turnOpen_of_none (h : l.context.current = none) : l.TurnOpen := by
  intro e he
  rw [h] at he
  cases he

theorem TurnOpen.sameTurn (hl : l.TurnOpen) (h : l.SameTurn m) : m.TurnOpen := by
  intro e he
  rw [h.current] at he
  obtain ⟨between, older, hbetween, hq⟩ := hl e he
  obtain ⟨os, hos, hq'⟩ := h.history
  refine ⟨os ++ between, older, ?_, ?_⟩
  · rw [hos, hbetween, List.append_assoc]
  · intro o ho
    rcases List.mem_append.mp ho with ho | ho
    · exact hq' o ho
    · exact hq o ho

theorem TurnOpen.move (hl : l.TurnOpen) (h : Move p l m) : m.TurnOpen := by
  cases h with
  | effect h => exact hl.sameTurn (sameTurn_of_effects (.single h))
  | take e rest hp hc hs =>
      intro e' he'
      cases he'
      exact ⟨[], l.history, rfl, by simp⟩
  | ignore e rest hp hc he hs => exact turnOpen_of_none hc
  | answer e h writer as hc hf hm hy has =>
      exact hl.sameTurn ((sameTurn_withWriter l h writer).trans (sameTurn_happen _ rfl))
  | decline e h writer hc hf hm hy => exact hl.sameTurn (sameTurn_withWriter l h writer)
  | resume cause as scope hcause has => exact hl.sameTurn (sameTurn_happen l rfl)
  | close e hc hs he => exact turnOpen_of_none rfl
  | release q status r hc hr =>
      exact turnOpen_of_none (calm_releaseProcess (l.closeTurn _) q.id).current
  | shutdown reason due hc hb =>
      obtain ⟨deadline, hcalm⟩ := calm_beginShutdown hb
      exact turnOpen_of_none hcalm.current
  | arrive a hc hp ha => exact turnOpen_of_none hc
  | notice a n hc hp ha => exact turnOpen_of_none ((calm_onNotice _ n).current.trans hc)
  | elapse id t hc hp ht => exact turnOpen_of_none ((calm_elapse l id t).current.trans hc)
  | kill hc hp hs => exact turnOpen_of_none ((calm_killRemaining l).current.trans hc)

theorem TurnOpen.moves (hl : l.TurnOpen) (h : Moves p l m) : m.TurnOpen := by
  induction h with
  | refl => exact hl
  | tail _ hlast ih => exact ih.move hlast

/-! ## Lists that wait go on waiting -/

section Mono

variable {r : RunningProcess} {hid : Nat} {onExit : List Action} {os : List Occurrence}

theorem Awaits.mono (h : l.Awaits r hid onExit)
    (hentry : ⟨hid, .onExitOf r.info.id onExit r.scope⟩ ∈ m.registry.entries)
    (hos : m.history = os ++ l.history)
    (hq : ∀ as scope, .began (.handler hid) as scope ∉ os) : m.Awaits r hid onExit where
  entry := hentry
  silent := by
    intro as scope hmem
    rw [hos] at hmem
    rcases List.mem_append.mp hmem with hmem | hmem
    · exact hq as scope hmem
    · exact h.silent as scope hmem

theorem Followed.mono (h : l.Followed r hid onExit) (hgone : hid ∉ m.registry.ids)
    (hos : m.history = os ++ l.history)
    (hq : ∀ as scope, .began (.handler hid) as scope ∉ os) : m.Followed r hid onExit where
  gone := hgone
  once := by
    obtain ⟨newer, between, older, status, hh, hb, hn⟩ := h.once
    refine ⟨os ++ newer, between, older, status, by rw [hos, hh, List.append_assoc], hb, ?_⟩
    intro as scope hmem
    rw [List.append_assoc, List.append_assoc] at hmem
    rcases List.mem_append.mp hmem with hmem | hmem
    · exact hq as scope hmem
    · exact hn as scope (by rw [List.append_assoc]; exact hmem)

end Mono

/-- What keeps everything that waits, brings nothing back and begins nothing, keeps the lists
where they are. -/
structure Keeps (l m : Launch) : Prop where
  next : l.registry.nextId ≤ m.registry.nextId
  entries : ∀ hid id onExit scope, ⟨hid, .onExitOf id onExit scope⟩ ∈ l.registry.entries →
    ⟨hid, .onExitOf id onExit scope⟩ ∈ m.registry.entries
  gone : ∀ hid, hid < l.registry.nextId → hid ∉ l.registry.ids → hid ∉ m.registry.ids

theorem Tracked.keeps {r : RunningProcess} {w : Option Nat} {os : List Occurrence}
    (h : l.Tracked r w) (hk : l.Keeps m) (hos : m.history = os ++ l.history)
    (hq : ∀ hid as scope, .began (.handler hid) as scope ∉ os) : m.Tracked r w := by
  obtain ⟨t, onExit, hd, hnone | ⟨hid, hw, hne, hlt, hwait | hdone⟩⟩ := h
  · exact ⟨t, onExit, hd, .inl hnone⟩
  · refine ⟨t, onExit, hd, .inr ⟨hid, hw, hne, Nat.lt_of_lt_of_le hlt hk.next, .inl ?_⟩⟩
    exact hwait.mono (hk.entries _ _ _ _ hwait.entry) hos (hq hid)
  · refine ⟨t, onExit, hd, .inr ⟨hid, hw, hne, Nat.lt_of_lt_of_le hlt hk.next, .inr ?_⟩⟩
    exact hdone.mono (hk.gone hid hlt hdone.gone) hos (hq hid)

theorem Following.keeps {os : List Occurrence} (h : l.Following) (hk : l.Keeps m)
    (hos : m.history = os ++ l.history)
    (hbegan : ∀ hid as scope, .began (.handler hid) as scope ∉ os)
    (hkept : ∀ r w, .kept r w ∉ os) : m.Following where
  began := by
    intro hid as scope hmem
    rw [hos] at hmem
    rcases List.mem_append.mp hmem with hmem | hmem
    · exact absurd hmem (hbegan hid as scope)
    · exact Nat.lt_of_lt_of_le (h.began hid as scope hmem) hk.next
  kept := by
    intro r w hmem
    rw [hos] at hmem
    rcases List.mem_append.mp hmem with hmem | hmem
    · exact absurd hmem (hkept r w)
    · exact (h.kept r w hmem).keeps hk hos hbegan

theorem keeps_of_eq (h : m.registry = l.registry) : l.Keeps m := by
  refine ⟨Nat.le_of_eq (congrArg Registry.nextId h).symm, ?_, ?_⟩
  · rw [h]
    exact fun _ _ _ _ h => h
  · rw [h]
    exact fun _ _ h => h

/-- One occurrence that says nothing of handlers and keeps nothing. -/
theorem Following.happen (h : l.Following) {o : Occurrence} (hr : m.registry = l.registry)
    (hos : m.history = o :: l.history)
    (hbegan : ∀ hid as scope, .began (.handler hid) as scope ≠ o)
    (hkept : ∀ r w, .kept r w ≠ o) : m.Following := by
  have hone : m.history = [o] ++ l.history := hos
  refine h.keeps (keeps_of_eq hr) hone ?_ ?_
  · intro hid as scope hmem
    exact hbegan hid as scope (List.mem_singleton.mp hmem)
  · intro r w hmem
    exact hkept r w (List.mem_singleton.mp hmem)

theorem Following.same (h : l.Following) (hr : m.registry = l.registry)
    (hh : m.history = l.history) : m.Following := by
  have hnone : m.history = [] ++ l.history := hh
  exact h.keeps (keeps_of_eq hr) hnone (by simp) (by simp)

/-! ## Effects -/

theorem keeps_of_effect (h : Effect p l m) : l.Keeps m where
  next := h.within.nextId
  entries := by
    intro hid id onExit scope hmem
    rcases h.registry with hr | ⟨b, -, hr⟩ | ⟨name, hr⟩
    · rw [hr]
      exact hmem
    · rw [hr]
      exact List.mem_append_left _ hmem
    · -- The list has no name, so no name takes it out.
      rw [hr]
      exact List.mem_filter.mpr ⟨hmem, by simp [Handler.onExitOf, Handler.name]⟩
  gone := fun _ hlt hid => h.within.not_mem_ids hlt hid

/-- When a process is started, its list begins to wait. -/
theorem Following.starts {r : RunningProcess} {w : Option Nat} {onExit : List Action}
    (h : l.Following) (hk : l.Keeps m) (hs : l.Starts m r w onExit) : m.Following := by
  obtain ⟨spec, hos⟩ := hs.history
  have hbegan : ∀ hid as scope, .began (.handler hid) as scope ∈ m.history →
      .began (.handler hid) as scope ∈ l.history := by
    intro hid as scope hmem
    rw [hos] at hmem
    simpa using hmem
  have hold : m.history =
      [.kept r w, .emitted (.processStarted r.info), .started r.info.id spec] ++ l.history := hos
  constructor
  · intro hid as scope hmem
    exact Nat.lt_of_lt_of_le (h.began hid as scope (hbegan hid as scope hmem)) hk.next
  · intro r' w' hmem
    have hcase : (r' = r ∧ w' = w) ∨ .kept r' w' ∈ l.history := by
      rw [hos] at hmem
      simpa using hmem
    rcases hcase with ⟨rfl, rfl⟩ | hmem
    · obtain ⟨t, hd⟩ := hs.deed
      rcases hs.registry with ⟨hnil, hw, -⟩ | ⟨hne, hw, hr⟩
      · exact ⟨t, onExit, hd, .inl ⟨hnil, hw⟩⟩
      · refine ⟨t, onExit, hd, .inr ⟨_, hw, hne, ?_, .inl ⟨?_, ?_⟩⟩⟩
        · rw [hr]
          exact Nat.lt_succ_self _
        · rw [hr]
          exact List.mem_append_right _ (List.mem_singleton.mpr rfl)
        · intro as scope hmem
          exact Nat.lt_irrefl _ (h.began _ as scope (hbegan _ as scope hmem))
    · exact (h.kept r' w' hmem).keeps hk hold (by simp)

theorem Following.effect (h : l.Following) (he : Effect p l m) : m.Following := by
  have hk := keeps_of_effect he
  rcases he.history with ⟨os, hos, hq⟩ | ⟨-, t, hos⟩ | ⟨r, w, onExit, hs, -⟩
  · refine h.keeps hk hos ?_ ?_
    · intro hid as scope hmem
      cases (hq _ hmem).1
    · intro r w hmem
      cases (hq _ hmem).2
  · have hone : m.history = [.scheduled l.nextTimer t] ++ l.history := hos
    exact h.keeps hk hone (by simp) (by simp)
  · exact h.starts hk hs

theorem Following.effects (h : l.Following) (he : Effects p l m) : m.Following := by
  induction he with
  | refl => exact h
  | tail _ hlast ih => exact ih.effect hlast

/-! ## Moves -/

theorem keeps_openTurn (l : Launch) (e : Event) : l.Keeps (l.openTurn e).2 where
  next := Nat.le_refl _
  entries := by
    intro hid id onExit scope hmem
    refine List.mem_map.mpr ⟨_, hmem, ?_⟩
    rw [Handler.observe_onExitOf]
  gone := by
    intro hid _ hnot
    show hid ∉ (l.registry.matching e).2.ids
    rw [Registry.ids_matching]
    exact hnot

/-- A handler that gives way to its answer takes no other list with it. -/
theorem keeps_withWriter {h : RegisteredHandler} (writer : Nat)
    (hnot : ∀ id onExit scope, ⟨h.id, .onExitOf id onExit scope⟩ ∉ l.registry.entries) :
    l.Keeps (l.withWriter h writer) where
  next := (sameTurn_withWriter l h writer).registry.nextId
  entries := by
    intro hid id onExit scope hmem
    unfold withWriter
    dsimp only
    split
    · refine List.mem_filter.mpr ⟨hmem, ?_⟩
      have hne : hid ≠ h.id := by
        rintro rfl
        exact hnot id onExit scope hmem
      simpa using hne
    · exact hmem
  gone := fun _ hlt hid => (sameTurn_withWriter l h writer).registry.not_mem_ids hlt hid

/-- The handler that answers with a list that waited is that list, and the event is the end of
its process. -/
theorem eq_of_answers {e : Event} {h : RegisteredHandler} (hl : l.registry.Sound)
    (hf : l.registry.find? h.id = some h) (hm : (h.handler.observe e).1 = true) {id : ProcessId}
    {onExit : List Action} {scope : Scope}
    (hmem : ⟨h.id, .onExitOf id onExit scope⟩ ∈ l.registry.entries) :
    h.handler = .onExitOf id onExit scope ∧
      ∃ q status, e = .processExited q status ∧ q.id = id := by
  have hsame : some (⟨h.id, .onExitOf id onExit scope⟩ : RegisteredHandler) = some h :=
    (hl.find?_of_mem hmem).symm.trans hf
  have hh : h.handler = .onExitOf id onExit scope := by
    rw [← Option.some.inj hsame]
  refine ⟨hh, ?_⟩
  rw [hh, Handler.observe_onExitOf] at hm
  cases e with
  | processExited q status => exact ⟨q, status, rfl, of_decide_eq_true hm⟩
  | _ => cases hm

/-- An answer with a list that waited makes it one that has followed. -/
theorem Awaits.answer {e : Event} {h : RegisteredHandler} {writer : Nat} {as : List Action}
    {r : RunningProcess} {onExit : List Action} (hl : l.Sound p) (hopen : l.TurnOpen)
    (hend : ∀ q status, l.context.current = some (.processExited q status) →
      q.id = r.info.id → q = r.info)
    (hwait : l.Awaits r h.id onExit) (hc : l.context.current = some e)
    (hf : l.registry.find? h.id = some h) (hm : (h.handler.observe e).1 = true)
    (hy : (h.handler.body.produce e l.context).answer? = some as) :
    ((l.withWriter h writer).happen (.began (.handler h.id) as h.handler.scope)).Followed r h.id
      onExit := by
  obtain ⟨hh, q, status, rfl, hq⟩ := eq_of_answers hl.registry hf hm hwait.entry
  obtain rfl : q = r.info := hend q status hc hq
  obtain ⟨between, older, hhist, hb⟩ := hopen _ hc
  have has : as = onExit := by
    rw [hh] at hy
    exact (Option.some.inj hy).symm
  subst has
  refine ⟨?_, [], between, older, status, ?_, hb, ?_⟩
  · have honce : h.handler.once = true := by
      rw [hh]
      rfl
    show h.id ∉ (if h.handler.once then l.registry.remove h.id else l.registry).ids
    rw [if_pos honce]
    exact Registry.not_mem_ids_remove _ _
  · rw [← hhist, hh]
    rfl
  · intro as' scope hmem
    apply hwait.silent as' scope
    rw [hhist]
    simp only [List.nil_append, List.mem_append, List.mem_cons] at hmem ⊢
    exact hmem.imp id .inr

theorem mem_ids_of_find? {h : RegisteredHandler} (hf : l.registry.find? h.id = some h) :
    h.id ∈ l.registry.ids :=
  Registry.mem_ids.mpr ⟨h, (Registry.mem_of_find? hf).1, rfl⟩

/-- An answer leaves the lists alone that stand under other numbers. -/
theorem Tracked.answer {e : Event} {h : RegisteredHandler} {writer : Nat} {as : List Action}
    {r : RunningProcess} {w : Option Nat} (hl : l.Sound p) (hopen : l.TurnOpen)
    (hend : ∀ q status, l.context.current = some (.processExited q status) →
      q.id = r.info.id → q = r.info)
    (ht : l.Tracked r w) (hc : l.context.current = some e)
    (hf : l.registry.find? h.id = some h) (hm : (h.handler.observe e).1 = true)
    (hy : (h.handler.body.produce e l.context).answer? = some as) :
    ((l.withWriter h writer).happen (.began (.handler h.id) as h.handler.scope)).Tracked r w := by
  obtain ⟨t, onExit, hd, hnone | ⟨hid, hw, hne, hlt, hstate⟩⟩ := ht
  · exact ⟨t, onExit, hd, .inl hnone⟩
  · have hwriter := (sameTurn_withWriter l h writer).registry
    have hbegan : ((l.withWriter h writer).happen
        (.began (.handler h.id) as h.handler.scope)).history =
        [.began (.handler h.id) as h.handler.scope] ++ l.history := rfl
    refine ⟨t, onExit, hd, .inr ⟨hid, hw, hne, Nat.lt_of_lt_of_le hlt hwriter.nextId, ?_⟩⟩
    -- The list itself answers, or it stands under another number and stays as it was.
    by_cases hsame : hid = h.id
    · subst hsame
      rcases hstate with hwait | hdone
      · exact .inr (hwait.answer hl hopen hend hc hf hm hy)
      · exact absurd (mem_ids_of_find? hf) hdone.gone
    · have hother : ∀ as' scope, .began (.handler hid) as' scope ∉
          [Occurrence.began (.handler h.id) as h.handler.scope] := by
        intro as' scope hmem
        cases List.mem_singleton.mp hmem
        exact hsame rfl
      rcases hstate with hwait | hdone
      · refine .inl (hwait.mono ?_ hbegan hother)
        unfold withWriter happen
        dsimp only
        split
        · exact List.mem_filter.mpr ⟨hwait.entry, by simpa using hsame⟩
        · exact hwait.entry
      · exact .inr (hdone.mono (hwriter.not_mem_ids hlt hdone.gone) hbegan hother)

/-- **No move loses a list that waits, activates it outside the turn of its process, or
activates it again.** -/
theorem Following.move (hf : l.Following) (hl : l.Sound p) (hopen : l.TurnOpen)
    (hend : ∀ r w, .kept r w ∈ l.history → ∀ q status,
      l.context.current = some (.processExited q status) → q.id = r.info.id → q = r.info)
    (h : Move p l m) : m.Following := by
  cases h with
  | effect h => exact hf.effect h
  | take e rest hp hc hs =>
      have htaken : ((l.withoutNext rest).happen (.dispatched e)).Following :=
        hf.happen rfl rfl (by simp) (by simp)
      have hnone : ∀ n : Launch, (n.openTurn e).2.history = [] ++ n.history := fun _ => rfl
      exact htaken.keeps (keeps_openTurn _ e) (hnone _) (by simp) (by simp)
  | ignore e rest hp hc he hs => exact hf.happen rfl rfl (by simp) (by simp)
  | answer e h writer as hc hfind hm hy has =>
      constructor
      · intro hid as' scope hmem
        rcases List.mem_cons.mp hmem with heq | hmem
        · cases heq
          exact Nat.lt_of_lt_of_le (hl.registry.below h.id (mem_ids_of_find? hfind))
            (sameTurn_withWriter l h writer).registry.nextId
        · exact Nat.lt_of_lt_of_le (hf.began hid as' scope hmem)
            (sameTurn_withWriter l h writer).registry.nextId
      · intro r w hmem
        rcases List.mem_cons.mp hmem with heq | hmem
        · cases heq
        · exact (hf.kept r w hmem).answer hl hopen (hend r w hmem) hc hfind hm hy
  | decline e h writer hc hfind hm hy =>
      -- A list never fails to answer, so what fails here is no list.
      have hnot : ∀ id onExit scope, ⟨h.id, .onExitOf id onExit scope⟩ ∉ l.registry.entries := by
        intro id onExit scope hmem
        obtain ⟨hh, -⟩ := eq_of_answers hl.registry hfind hm hmem
        rw [hh] at hy
        cases hy
      have hnone : (l.withWriter h writer).history = [] ++ l.history := rfl
      exact hf.keeps (keeps_withWriter writer hnot) hnone (by simp) (by simp)
  | resume cause as scope hcause has =>
      refine hf.happen rfl rfl ?_ (by simp)
      rintro hid _ _ ⟨⟩
      exact hcause hid rfl
  | close e hc hs he => exact hf.happen rfl rfl (by simp) (by simp)
  | release q status r hc hr =>
      have hclosed : (l.closeTurn (.processExited q status)).Following :=
        hf.happen rfl rfl (by simp) (by simp)
      rcases (l.closeTurn (.processExited q status)).releaseProcess_cases q.id with
          ⟨-, h⟩ | ⟨g, -, -, h⟩
      · rw [h]
        exact hclosed.same rfl rfl
      · rw [h]
        exact hclosed.happen rfl rfl (by simp) (by simp)
  | shutdown reason due hc hb =>
      have hclosed : (l.closeTurn (.shutdownRequested reason due)).Following :=
        hf.happen rfl rfl (by simp) (by simp)
      obtain ⟨deadline, heffects⟩ := beginShutdown_effects (p := p) hb
      have hbegun : ((l.closeTurn (.shutdownRequested reason due)).withShutdown reason
          deadline).Following := hclosed.happen rfl rfl (by simp) (by simp)
      exact hbegun.effects heffects
  | arrive a hc hp ha => exact hf.happen rfl rfl (by simp) (by simp)
  | notice a n hc hp ha =>
      have harrived : (l.arrive a).Following := hf.happen rfl rfl (by simp) (by simp)
      obtain ⟨s, -, heffects⟩ := (l.arrive a).onNotice_effects n
      have htaken : ({ l.arrive a with supervisor := s } : Launch).Following :=
        harrived.same rfl rfl
      exact htaken.effects heffects
  | elapse id t hc hp ht =>
      have htaken : ({ l with timers := l.timers.erase id }.happen (.fired id)).Following :=
        hf.happen rfl rfl (by simp) (by simp)
      exact htaken.effects (elapse_effects l id t)
  | kill hc hp hs =>
      rcases killRemaining_effects (p := p) l with h | h
      · rw [h]
        exact hf
      · have hforced : { l with forced := true }.Following := hf.same rfl rfl
        exact hforced.effects h

/-! ## Whole runs -/

section Runs

variable {config : Config} {host : Host} {args : LaunchArguments}

/-- What the life of a process knows as kept is on the history. -/
theorem mem_life_kept {r : RunningProcess} {w : Option Nat} :
    (r, w) ∈ (l.life r.info.id).kept ↔ .kept r w ∈ l.history := by
  show (r, w) ∈ l.history.filterMap (·.keptOf? r.info.id) ↔ _
  rw [List.mem_filterMap]
  constructor
  · rintro ⟨o, ho, heq⟩
    cases o with
    | kept r' w' =>
        rw [Occurrence.keptOf?, Option.ite_none_right_eq_some, Option.some.injEq] at heq
        cases heq.2
        exact ho
    | _ => cases heq
  · intro hmem
    exact ⟨_, hmem, if_pos rfl⟩

/-- A process is kept once. -/
theorem kept_unique (h : Moves p (start config host args) l) {r r' : RunningProcess}
    {w w' : Option Nat} (hk : .kept r w ∈ l.history) (hk' : .kept r' w' ∈ l.history)
    (hid : r.info.id = r'.info.id) : r = r' ∧ w = w' := by
  have hlife := life_sound h r.info.id
  have hmem := mem_life_kept.mpr hk
  have hmem' := mem_life_kept.mpr hk'
  rw [← hid] at hmem'
  have hstarted := hlife.started_of_kept hmem
  obtain ⟨r₀, w₀, hkept, -⟩ := hlife.kept hstarted
  rw [hkept, List.mem_singleton] at hmem hmem'
  cases hmem
  cases hmem'
  exact ⟨rfl, rfl⟩

/-- The end of a process that is on its way is the end of what was kept of it, and was seen. -/
theorem end_of_kept (h : Moves Deed.ReportsNoEnd (start config host args) l) {r : RunningProcess}
    {w : Option Nat} (hk : .kept r w ∈ l.history) {e : Event}
    (he : e ∈ l.endsInFlight r.info.id) :
    l.endSeen r.info.id = true ∧ ∃ status, e = .processExited r.info status := by
  have hlife := life_sound h r.info.id
  rcases (life_honest h r.info.id).inFlight with hq | ⟨r', status, hr', hq, hseen⟩
  · change l.endsInFlight r.info.id = [] at hq
    rw [hq] at he
    cases he
  · obtain ⟨w', hkept⟩ := hlife.entry r' hr'
    have hmem := mem_life_kept.mpr hk
    rw [hkept, List.mem_singleton] at hmem
    cases hmem
    change l.endsInFlight r.info.id = _ at hq
    rw [hq, List.mem_singleton] at he
    exact ⟨hseen, status, he⟩

/-- The event that has its turn is in flight. -/
theorem mem_endsInFlight {e : Event} {id : ProcessId} (hc : l.context.current = some e)
    (he : e.isEndOf id = true) : e ∈ l.endsInFlight id := by
  unfold endsInFlight
  rw [hc]
  exact List.mem_filter.mpr ⟨List.mem_append_left _ (List.mem_singleton.mpr rfl), he⟩

/-- **Whatever moves a launch has made, every list waits for the end of its process or has
followed it.** -/
theorem following_of_moves (h : Moves Deed.ReportsNoEnd (start config host args) l) :
    l.Following ∧ l.TurnOpen := by
  induction h with
  | refl =>
      refine ⟨⟨?_, ?_⟩, turnOpen_of_none (start_context config host args).current⟩
      · intro _ _ _ hmem
        cases hmem
      · intro _ _ hmem
        cases hmem
  | tail hbefore hlast ih =>
      obtain ⟨hf, hopen⟩ := ih
      have hsound := (sound_start config host args).moves hbefore
      refine ⟨hf.move hsound hopen (fun r w hk q status hc hq => ?_) hlast, hopen.move hlast⟩
      obtain ⟨-, status', heq⟩ := end_of_kept hbefore hk
        (mem_endsInFlight hc (decide_eq_true hq))
      cases heq
      rfl

end Runs

end Launch

end Conductor
