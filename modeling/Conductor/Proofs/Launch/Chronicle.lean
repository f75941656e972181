import Conductor.Proofs.Launch.Loop

/-!
# What moves put on the history

The history of a launch only grows. `HistoryStep` lists what one move can put on it, each with
what held when it was put there, so a question about the order in which things happened is
answered on the history without going through the moves again.
-/

namespace Conductor

/-- A place in a longer list is one in the part added in front, or one in the old list. -/
theorem split_of_append {α : Type} {xs ys newer older : List α} {o : α}
    (h : xs ++ ys = newer ++ o :: older) :
    (∃ rest, newer = xs ++ rest ∧ ys = rest ++ o :: older) ∨
      ∃ rest, xs = newer ++ o :: rest ∧ older = rest ++ ys := by
  rcases List.append_eq_append_iff.mp h with ⟨rest, hnewer, hys⟩ | ⟨rest, hxs, hrest⟩
  · exact .inl ⟨rest, hnewer, hys⟩
  · cases rest with
    | nil => exact .inl ⟨[], by rw [hxs, List.append_nil, List.append_nil], hrest.symm⟩
    | cons o' rest =>
        obtain ⟨rfl, hold⟩ := List.cons.inj hrest
        exact .inr ⟨rest, hxs, hold⟩

/-- What has not been added in front was there. -/
theorem split_of_not_mem {α : Type} {xs ys newer older : List α} {o : α}
    (h : xs ++ ys = newer ++ o :: older) (ho : o ∉ xs) :
    ∃ rest, newer = xs ++ rest ∧ ys = rest ++ o :: older := by
  rcases split_of_append h with hold | ⟨rest, hxs, -⟩
  · exact hold
  · rw [hxs] at ho
    exact absurd List.mem_append_cons_self ho

theorem split_of_cons {α : Type} {x o : α} {xs newer older : List α}
    (h : x :: xs = newer ++ o :: older) :
    (newer = [] ∧ x = o ∧ xs = older) ∨ ∃ rest, newer = x :: rest ∧ xs = rest ++ o :: older := by
  rcases List.cons_eq_append_iff.mp h with ⟨hnewer, hcons⟩ | ⟨rest, hnewer, hrest⟩
  · obtain ⟨rfl, rfl⟩ := List.cons.inj hcons
    exact .inl ⟨hnewer, rfl, rfl⟩
  · exact .inr ⟨rest, hnewer, hrest⟩

variable {p : Deed → Prop} {l m : Launch}

/-- What a move puts on the history, latest first. -/
inductive HistoryStep (l m : Launch) : Prop where
  | aside (os : List Occurrence) (hh : m.history = os ++ l.history)
      (hos : ∀ o ∈ os, o.isAside = true)
  /-- A process is started. -/
  | start (r : RunningProcess) (w : Option Nat) (onExit : List Action)
      (hs : l.Starts m r w onExit)
  /-- An event gets its turn; none has it before. -/
  | turn (e : Event) (hc : l.context.current = none)
      (hs : e.isShutdownRequest = true → l.shutdown = none)
      (hh : m.history = .dispatched e :: l.history)
  /-- The turn of an event ends that asks for no shutdown. -/
  | settle (e : Event) (os : List Occurrence) (hc : l.context.current = some e)
      (hs : e.isShutdownRequest = false) (hh : m.history = os ++ .turnEnded e :: l.history)
      (hos : ∀ o ∈ os, o.isAside = true)
  /-- The turn of a request for a shutdown ends, and the shutdown begins. -/
  | shutdown (reason : String) (dueToSignal : Bool) (os : List Occurrence)
      (hc : l.context.current = some (.shutdownRequested reason dueToSignal))
      (hh : m.history = os ++ .shutdownBegan reason ::
        .turnEnded (.shutdownRequested reason dueToSignal) :: l.history)
      (hos : ∀ o ∈ os, o.isAside = true)
  /-- A handler answers the event that has its turn. -/
  | answer (e : Event) (h : RegisteredHandler) (as : List Action)
      (hc : l.context.current = some e) (hf : l.registry.find? h.id = some h)
      (hm : (h.handler.observe e).1 = true)
      (hh : m.history = .began (.handler h.id) as h.handler.scope :: l.history)
  | resume (cause : BodyCause) (as : List Action) (scope : Option Scope)
      (hcause : ∀ id, cause ≠ .handler id) (hh : m.history = .began cause as scope :: l.history)

theorem Launch.Calm.historyStep (h : l.Calm m) : HistoryStep l m := by
  obtain ⟨os, hos, hq⟩ := h.history
  exact .aside os hos hq

/-- **What a move puts on the history.** -/
theorem Move.history (h : Move p l m) : HistoryStep l m := by
  have hone : ∀ {n : Launch} (o : Occurrence), n.history = o :: l.history → o.isAside = true →
      HistoryStep l n := by
    intro n o hn ho
    refine .aside [o] hn ?_
    intro o' ho'
    rw [List.mem_singleton.mp ho']
    exact ho
  cases h with
  | effect h =>
      rcases h.history with ⟨os, hos, hq⟩ | ⟨-, t, hos⟩ | ⟨r, w, onExit, hs, -⟩
      · exact .aside os hos fun o ho => Occurrence.isAside_of_not (hq o ho).1 (hq o ho).2
      · exact hone _ hos rfl
      · exact .start r w onExit hs
  | take e rest hp hc hs => exact .turn e hc hs rfl
  | ignore e rest hp hc he hs => exact hone (.ignored e) rfl rfl
  | answer e h writer as hc hf hm hy has => exact .answer e h as hc hf hm rfl
  | decline e h writer hc hf hm hy => exact .aside [] rfl (by simp)
  | resume cause as scope hcause has => exact .resume cause as scope hcause rfl
  | close e hc hs he => exact .settle e [] hc hs rfl (by simp)
  | release q status r hc hr =>
      obtain ⟨os, hos, hq⟩ := (Launch.calm_releaseProcess
        (l.closeTurn (.processExited q status)) q.id).history
      exact .settle _ os hc rfl hos hq
  | shutdown reason due hc hb =>
      obtain ⟨deadline, hcalm⟩ := Launch.calm_beginShutdown hb
      obtain ⟨os, hos, hq⟩ := hcalm.history
      exact .shutdown reason due os hc hos hq
  | arrive a hc hp ha => exact (Launch.calm_arrive l a).historyStep
  | notice a n hc hp ha =>
      exact ((Launch.calm_arrive l a).trans (Launch.calm_onNotice _ n)).historyStep
  | elapse id t hc hp ht => exact (Launch.calm_elapse l id t).historyStep
  | kill hc hp hs => exact (Launch.calm_killRemaining l).historyStep

namespace HistoryStep

/-- A body or a process that is new on the history has just begun. -/
theorem mem {o : Occurrence} (h : HistoryStep l m) (hm : o ∈ m.history)
    (haside : o.isAside = false) (hturn : o.marksTurn = false)
    (hshutdown : ∀ reason, o ≠ .shutdownBegan reason) :
    o ∈ l.history ∨
      (∃ r w onExit spec, l.Starts m r w onExit ∧
        (o = .kept r w ∨ o = .started r.info.id spec)) ∨
      (∃ e h as, l.context.current = some e ∧ l.registry.find? h.id = some h ∧
        (h.handler.observe e).1 = true ∧ o = .began (.handler h.id) as h.handler.scope) ∨
      ∃ cause as scope, (∀ id, cause ≠ .handler id) ∧ o = .began cause as scope := by
  have hnot : ∀ {os : List Occurrence}, (∀ o ∈ os, o.isAside = true) → o ∉ os := by
    intro os hos hmem
    rw [hos o hmem] at haside
    cases haside
  cases h with
  | aside os hh hos =>
      rw [hh] at hm
      exact .inl ((List.mem_append.mp hm).resolve_left (hnot hos))
  | start r w onExit hs =>
      obtain ⟨spec, hh⟩ := hs.history
      rw [hh] at hm
      rcases List.mem_cons.mp hm with rfl | hm
      · exact .inr (.inl ⟨r, w, onExit, spec, hs, .inl rfl⟩)
      · rcases List.mem_cons.mp hm with rfl | hm
        · cases haside
        · rcases List.mem_cons.mp hm with rfl | hm
          · exact .inr (.inl ⟨r, w, onExit, spec, hs, .inr rfl⟩)
          · exact .inl hm
  | turn e hc hs hh =>
      rw [hh] at hm
      rcases List.mem_cons.mp hm with rfl | hm
      · cases hturn
      · exact .inl hm
  | settle e os hc hs hh hos =>
      rw [hh] at hm
      rcases List.mem_cons.mp ((List.mem_append.mp hm).resolve_left (hnot hos)) with rfl | hm
      · cases hturn
      · exact .inl hm
  | shutdown reason due os hc hh hos =>
      rw [hh] at hm
      rcases List.mem_cons.mp ((List.mem_append.mp hm).resolve_left (hnot hos)) with heq | hm
      · exact absurd heq (hshutdown reason)
      · rcases List.mem_cons.mp hm with rfl | hm
        · cases hturn
        · exact .inl hm
  | answer e h as hc hf hmatch hh =>
      rw [hh] at hm
      rcases List.mem_cons.mp hm with heq | hm
      · exact .inr (.inr (.inl ⟨e, h, as, hc, hf, hmatch, heq⟩))
      · exact .inl hm
  | resume cause as scope hcause hh =>
      rw [hh] at hm
      rcases List.mem_cons.mp hm with heq | hm
      · exact .inr (.inr (.inr ⟨cause, as, scope, hcause, heq⟩))
      · exact .inl hm

/-- What has happened is never forgotten. -/
theorem mono (h : HistoryStep l m) {o : Occurrence} (ho : o ∈ l.history) :
    o ∈ m.history := by
  cases h with
  | aside os hh hos =>
      rw [hh]
      exact List.mem_append_right os ho
  | start r w onExit hs =>
      obtain ⟨spec, hh⟩ := hs.history
      rw [hh]
      simp [ho]
  | turn e hc hs hh =>
      rw [hh]
      exact List.mem_cons_of_mem _ ho
  | settle e os hc hs hh hos =>
      rw [hh]
      exact List.mem_append_right os (List.mem_cons_of_mem _ ho)
  | shutdown reason due os hc hh hos =>
      rw [hh]
      simp [ho]
  | answer e h as hc hf hm hh =>
      rw [hh]
      exact List.mem_cons_of_mem _ ho
  | resume cause as scope hcause hh =>
      rw [hh]
      exact List.mem_cons_of_mem _ ho

/-- The turn that ends is that of the event that has it. -/
theorem turnEnded (h : HistoryStep l m) {e : Event}
    (he : .turnEnded e ∈ m.history) :
    .turnEnded e ∈ l.history ∨ l.context.current = some e := by
  cases h with
  | aside os hh hos =>
      rw [hh] at he
      refine .inl ((List.mem_append.mp he).resolve_left fun hnew => ?_)
      cases hos _ hnew
  | start r w onExit hs =>
      obtain ⟨spec, hh⟩ := hs.history
      rw [hh] at he
      exact .inl (by simpa using he)
  | turn e' hc hs hh =>
      rw [hh] at he
      exact .inl (by simpa using he)
  | settle e' os hc hs hh hos =>
      rw [hh] at he
      rcases List.mem_append.mp he with hnew | he
      · cases hos _ hnew
      · rcases List.mem_cons.mp he with heq | hold
        · cases heq
          exact .inr hc
        · exact .inl hold
  | shutdown reason due os hc hh hos =>
      rw [hh] at he
      rcases List.mem_append.mp he with hnew | he
      · cases hos _ hnew
      · rcases List.mem_cons.mp (List.mem_of_ne_of_mem (by simp) he) with heq | hold
        · cases heq
          exact .inr hc
        · exact .inl hold
  | answer e' h as hc hf hm hh =>
      rw [hh] at he
      exact .inl (by simpa using he)
  | resume cause as scope hcause hh =>
      rw [hh] at he
      exact .inl (by simpa using he)

/-- The body of a handler begins in the turn of an event that the handler matches. -/
theorem began {hid : Nat} {as : List Action} {scope : Option Scope} (h : HistoryStep l m)
    (hm : .began (.handler hid) as scope ∈ m.history) :
    .began (.handler hid) as scope ∈ l.history ∨
      ∃ e h, l.context.current = some e ∧ l.registry.find? h.id = some h ∧
        (h.handler.observe e).1 = true ∧ h.id = hid := by
  rcases h.mem hm rfl rfl (by simp) with
    hold | ⟨r, w, onExit, spec, -, heq | heq⟩ | ⟨e, g, as', hc, hf, hmatch, heq⟩ |
      ⟨cause, as', scope', hcause, heq⟩
  · exact .inl hold
  · cases heq
  · cases heq
  · cases heq
    exact .inr ⟨e, g, hc, hf, hmatch, rfl⟩
  · cases heq
    exact absurd rfl (hcause hid)

/-- A process is kept when it is started. -/
theorem kept {r : RunningProcess} {w : Option Nat} (h : HistoryStep l m)
    (hm : .kept r w ∈ m.history) :
    .kept r w ∈ l.history ∨ ∃ onExit, l.Starts m r w onExit := by
  rcases h.mem hm rfl rfl (by simp) with
    hold | ⟨r', w', onExit, spec, hs, heq | heq⟩ | ⟨e, g, as, -, -, -, heq⟩ |
      ⟨cause, as, scope, -, heq⟩
  · exact .inl hold
  · cases heq
    exact .inr ⟨onExit, hs⟩
  · cases heq
  · cases heq
  · cases heq

end HistoryStep

namespace Launch

/-- A process that is kept was started at some time before. -/
theorem exists_starts {l₀ : Launch} (h : Moves p l₀ l) {r : RunningProcess} {w : Option Nat}
    (hk : .kept r w ∈ l.history) :
    .kept r w ∈ l₀.history ∨ ∃ l₁ l₂ onExit, Moves p l₀ l₁ ∧ l₁.Starts l₂ r w onExit ∧
      Moves p l₂ l := by
  induction h with
  | refl => exact .inl hk
  | tail hbefore hlast ih =>
      rcases hlast.history.kept hk with hk | ⟨onExit, hs⟩
      · rcases ih hk with hk | ⟨l₁, l₂, onExit, hl₁, hs, hl₂⟩
        · exact .inl hk
        · exact .inr ⟨l₁, l₂, onExit, hl₁, hs, hl₂.tail hlast⟩
      · exact .inr ⟨_, _, onExit, hbefore, hs, .refl⟩

end Launch

end Conductor
