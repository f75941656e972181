import Conductor.Proofs.Launch.Bookkeeping
import Conductor.Proofs.Launch.Finish

/-!
# How a launch ends

A launch ends when nothing is left to wait for, or when it is given up during a shutdown and
what is left is killed. Either way no process is left behind (`no_orphans`), and the exit code
tells whether something had to be killed, or whether a fail-fast launch has failed.
-/

namespace Conductor

namespace Launch

/-- Whether a failure was reported. -/
def hasFailed (l : Launch) : Bool :=
  l.history.any (·.error?.isSome)

/-- A failure is fatal exactly if the launch fails fast. -/
structure FailuresInOrder (config : Config) (l : Launch) : Prop where
  policy : l.config = config
  fatal : l.fatal.isSome = true ↔ config.failurePolicy = .failFast ∧ l.hasFailed = true

variable {p : Deed → Prop} {l m : Launch} {config : Config}

theorem errors_eq_nil_iff : l.errors = [] ↔ l.hasFailed = false := by
  unfold errors occurrences hasFailed
  rw [List.filterMap_eq_nil_iff, List.any_eq_false]
  simp

/-! ## Failures -/

theorem FailuresInOrder.keep (hl : l.FailuresInOrder config) (hc : m.config = l.config)
    (hf : m.fatal = l.fatal) (hh : m.hasFailed = l.hasFailed) : m.FailuresInOrder config where
  policy := hc.trans hl.policy
  fatal := by
    rw [hf, hh]
    exact hl.fatal

theorem FailuresInOrder.effect (hl : l.FailuresInOrder config) (h : Effect p l m) :
    m.FailuresInOrder config := by
  have hpolicy : l.config.failurePolicy = config.failurePolicy := by rw [hl.policy]
  cases h with
  | fail e hlate =>
      refine ⟨hl.policy, fun hsome => ⟨(hl.fatal.mp hsome).1, rfl⟩, ?_⟩
      -- A failure that is not the first one of a fail-fast launch finds an earlier one there.
      rintro ⟨hfast, -⟩
      rcases hlate with hslow | hfatal
      · exact absurd (hpolicy.trans hfast) hslow
      · exact Option.isSome_iff_ne_none.mpr hfatal
  | failLate e hfast _ _ => exact ⟨hl.policy, fun _ => ⟨hpolicy ▸ hfast, rfl⟩, fun _ => rfl⟩
  | failFast e hfast _ _ => exact ⟨hl.policy, fun _ => ⟨hpolicy ▸ hfast, rfl⟩, fun _ => rfl⟩
  | spawn spec seq a t onExit h _ _ _ _ _ _ =>
      obtain ⟨r, -, -, -, -, heq⟩ := (l.withStarted h spec).attend_eq seq a onExit spec.name h
      rw [heq]
      exact hl.keep rfl rfl rfl
  | _ => exact hl.keep rfl rfl rfl

theorem FailuresInOrder.effects (hl : l.FailuresInOrder config) (h : Effects p l m) :
    m.FailuresInOrder config := by
  induction h with
  | refl => exact hl
  | tail _ h ih => exact ih.effect h

theorem errors_append (os : List Occurrence) (hos : m.history = os ++ l.history) :
    m.errors = l.errors ++ os.reverse.filterMap (·.error?) :=
  filterMap_occurrences_append _ hos

/-- No failure is reported and no work begins between the two launches, and no record moves on. -/
structure Undisturbed (l m : Launch) : Prop where
  config : m.config = l.config
  journal : m.journal = l.journal
  fatal : m.fatal = l.fatal
  flag : l.context.shuttingDown = true → m.context.shuttingDown = true
  history : ∃ os, m.history = os ++ l.history ∧ ∀ o ∈ os, o.error? = none ∧ o.beginsWork = false

theorem undisturbed_of_same (hc : m.config = l.config) (hj : m.journal = l.journal)
    (hfatal : m.fatal = l.fatal) (hf : m.context.shuttingDown = l.context.shuttingDown)
    (hh : m.history = l.history) : l.Undisturbed m :=
  ⟨hc, hj, hfatal, fun h => hf.trans h, [], hh, by simp⟩

theorem undisturbed_of_cons {o : Occurrence} (hc : m.config = l.config)
    (hj : m.journal = l.journal) (hfatal : m.fatal = l.fatal)
    (hf : m.context.shuttingDown = l.context.shuttingDown)
    (hh : m.history = o :: l.history) (herror : o.error? = none) (hwork : o.beginsWork = false) :
    l.Undisturbed m :=
  ⟨hc, hj, hfatal, fun h => hf.trans h, [o], hh, by simp [herror, hwork]⟩

theorem Undisturbed.errors (h : l.Undisturbed m) : m.errors = l.errors := by
  obtain ⟨os, hos, hq⟩ := h.history
  exact filterMap_occurrences_of_none hos fun o ho => (hq o ho).1

/-- What fails or begins work in a move does so in its effects, before which nothing is
disturbed. -/
theorem undisturbed_of_move (h : Move p l m) : ∃ k q, l.Undisturbed k ∧ Effects q k m := by
  have hplain : l.Undisturbed m → ∃ k q, l.Undisturbed k ∧ Effects q k m := fun h =>
    ⟨m, p, h, .refl⟩
  cases h with
  | effect h => exact ⟨l, p, undisturbed_of_same rfl rfl rfl rfl rfl, .single h⟩
  | take e rest hp hc hs =>
      exact hplain (undisturbed_of_cons (o := .dispatched e) rfl rfl rfl rfl rfl rfl rfl)
  | ignore e rest hp hc he hs =>
      exact hplain (undisturbed_of_cons (o := .ignored e) rfl rfl rfl rfl rfl rfl rfl)
  | answer e h writer as hc hf hm hy has =>
      exact hplain (undisturbed_of_cons (o := .began (.handler h.id) as h.handler.scope)
        rfl rfl rfl rfl rfl rfl rfl)
  | decline e h writer hc hf hm hy => exact hplain (undisturbed_of_same rfl rfl rfl rfl rfl)
  | resume cause as scope hcause has =>
      exact hplain (undisturbed_of_cons (o := .began cause as scope) rfl rfl rfl rfl rfl rfl rfl)
  | close e hc hs he =>
      exact hplain (undisturbed_of_cons (o := .turnEnded e) rfl rfl rfl rfl rfl rfl rfl)
  | release q status r hc hr =>
      refine hplain ?_
      rcases (l.closeTurn (.processExited q status)).releaseProcess_cases q.id with
          ⟨-, h⟩ | ⟨g, -, -, h⟩
      · rw [h]
        exact undisturbed_of_cons (o := .turnEnded (.processExited q status))
          rfl rfl rfl rfl rfl rfl rfl
      · rw [h]
        refine ⟨rfl, rfl, rfl, id, [.released g, .turnEnded (.processExited q status)], rfl, ?_⟩
        simp [Occurrence.error?, Occurrence.beginsWork]
  | shutdown reason due hc hb =>
      obtain ⟨deadline, heffects⟩ := beginShutdown_effects (p := p) hb
      refine ⟨_, _, ?_, heffects⟩
      refine ⟨rfl, rfl, rfl, fun _ => rfl,
        [.shutdownBegan reason, .turnEnded (.shutdownRequested reason due)], rfl, ?_⟩
      simp [Occurrence.error?, Occurrence.beginsWork]
  | arrive a hc hp ha =>
      exact hplain (undisturbed_of_cons (o := .received a.message) rfl rfl rfl rfl rfl rfl rfl)
  | notice a n hc hp ha =>
      obtain ⟨s, -, heffects⟩ := (l.arrive a).onNotice_effects n
      refine ⟨_, _, ?_, heffects⟩
      exact undisturbed_of_cons (o := .received a.message) rfl rfl rfl rfl rfl rfl rfl
  | elapse id t hc hp ht =>
      refine ⟨_, _, ?_, elapse_effects l id t⟩
      exact undisturbed_of_cons (o := .fired id) rfl rfl rfl rfl rfl rfl rfl
  | kill hc hp hs =>
      rcases killRemaining_effects (p := p) l with h | h
      · refine hplain ?_
        rw [h]
        exact undisturbed_of_same rfl rfl rfl rfl rfl
      · refine ⟨_, _, ?_, h⟩
        exact undisturbed_of_same rfl rfl rfl rfl rfl

theorem FailuresInOrder.undisturbed (hl : l.FailuresInOrder config) (h : l.Undisturbed m) :
    m.FailuresInOrder config := by
  refine hl.keep h.config h.fatal ?_
  rw [Bool.eq_iff_iff, ← Bool.not_eq_false, ← Bool.not_eq_false, ← errors_eq_nil_iff,
    ← errors_eq_nil_iff, h.errors]

theorem FailuresInOrder.move (hl : l.FailuresInOrder config) (h : Move p l m) :
    m.FailuresInOrder config := by
  obtain ⟨k, q, hk, heffects⟩ := undisturbed_of_move h
  exact (hl.undisturbed hk).effects heffects

/-- **At every moment of a launch a failure is fatal exactly if the launch fails fast.** -/
theorem failuresInOrder_of_moves {host : Host} {args : LaunchArguments}
    (h : Moves p (start config host args) l) : l.FailuresInOrder config := by
  induction h with
  | refl => exact ⟨rfl, by simp [start, hasFailed]⟩
  | tail _ hlast ih => exact ih.move hlast

/-! ## What had to be killed -/

theorem forced_activateBody (cause : BodyCause) (as : List Action) (scope : Option Scope)
    (l : Launch) : (activateBody cause as scope l).forced = l.forced := by
  exact (activateBody_effects (Action.every_true as) cause scope l).sameLoop.forced

/-- The handlers of an event leave alone what only the loop changes. -/
theorem sameLoop_answerAll (e : Event) (writer : Nat) (ids : List Nat) (l : Launch) :
    l.SameLoop (answerAll e writer ids l) := by
  induction ids generalizing writer l with
  | nil => exact .refl l
  | cons id rest ih =>
      refine SameLoop.trans ?_ (ih _ _)
      have hbody : ∀ (l' : Launch) (g : RegisteredHandler) (as : List Action), l.SameLoop l' →
          l.SameLoop (activateBody (.handler id) as g.handler.scope (l'.withWriter g writer)) := by
        intro l' g as hl'
        have heffects := activateBody_effects (Action.every_true as) (.handler id) g.handler.scope
          (l'.withWriter g writer)
        have hsame := heffects.sameLoop
        exact hl'.trans ⟨hsame.config, hsame.now, hsame.host, hsame.current, hsame.shutdown,
          hsame.forced⟩
      rcases l.answer_cases e writer id with
          ⟨-, h⟩ | ⟨g, -, ⟨as, l', hl', -, h⟩ | ⟨err, -, h⟩⟩
      · rw [h]
        exact .refl l
      · rw [h]
        rcases hl' with rfl | rfl
        · exact hbody _ g as (.refl _)
        · exact hbody _ g as ⟨rfl, rfl, rfl, rfl, rfl, rfl⟩
      · rw [h]
        have hsame := (report_effect (p := fun _ => True) (l.withWriter g writer) err).sameLoop
        exact ⟨hsame.config, hsame.now, hsame.host, hsame.current, hsame.shutdown, hsame.forced⟩

theorem forced_finishProcess (l : Launch) (id : ProcessId) :
    (l.finishProcess id).forced = l.forced := by
  have hrelease : (l.releaseProcess id).forced = l.forced := by
    rcases l.releaseProcess_cases id with ⟨-, h⟩ | ⟨g, -, -, h⟩
    · rw [h]
    · rw [h]
  unfold finishProcess
  split
  · rfl
  · refine Eq.trans ?_ hrelease
    unfold respawn
    split
    · split
      · rfl
      · split
        · rfl
        · dsimp only
          split
          · exact forced_activateBody _ _ _ _
          · rfl
    · rfl

/-- Nothing is killed in the turn of an event. -/
theorem forced_dispatch {e : Event} (h : l.dispatch e = .ok m) : m.forced = l.forced := by
  rcases dispatch_cases h with ⟨-, -, rfl⟩ | ⟨-, hend⟩
  · rfl
  · have hturn := sameLoop_answerAll e 0 ((l.happen (.dispatched e)).openTurn e).1
      ((l.happen (.dispatched e)).openTurn e).2
    refine Eq.trans ?_ hturn.forced
    cases e with
    | shutdownRequested reason due =>
        obtain ⟨deadline, heffects⟩ := beginShutdown_effects (p := fun _ => True) hend
        exact heffects.sameLoop.forced
    | processExited q status =>
        cases hend
        exact forced_finishProcess _ _
    | _ =>
        cases hend
        rfl

/-- Nothing is killed by a message after which the launch goes on. -/
theorem forced_receive {a : Arrival} (h : l.receive a = .waiting m) : m.forced = l.forced := by
  unfold receive handle at h
  split at h
  · rename_i n _
    cases h
    obtain ⟨s, -, heffects⟩ := (l.arrive a).onNotice_effects n
    exact heffects.sameLoop.forced
  · rename_i id _
    cases h
    unfold fireTimer
    split
    · rfl
    · rw [forced_activateBody]
      exact (elapse_effects (l.arrive a) id _).sameLoop.forced
  · split at h
    · cases h
    · cases h
      exact (requestShutdown_effects (p := fun _ => True) (l.arrive a) _ _).sameLoop.forced
  · split at h
    · cases h
    · cases h
      rfl

/-- What lives goes on living as long as no notice tells otherwise. -/
theorem living_of_effects (h : Effects p l m) {id : ProcessId}
    (hl : ∃ g, l.supervisor.find? id = some g ∧ g.isAlive = true) :
    ∃ g, m.supervisor.find? id = some g ∧ g.isAlive = true := by
  induction h with
  | refl => exact hl
  | tail _ hlast ih =>
      obtain ⟨g, hg, ha⟩ := ih
      have hinsert : ∀ {s t : Supervisor} {k : Nat} {g' : ProcessHandle},
          t.handles = s.handles.insert k g' → g'.isAlive = true → s.find? id = some g →
          ∃ g, t.find? id = some g ∧ g.isAlive = true := by
        intro s t k g' ht ha' hs
        unfold Supervisor.find?
        rw [ht, Table.get?_insert]
        split
        · exact ⟨g', rfl, ha'⟩
        · exact ⟨g, hs, ha⟩
      rcases hlast.handles with hh | ⟨g', -, ha', -, hh⟩ | ⟨id', g', signal, -, ha', hh⟩
      · refine ⟨g, ?_, ha⟩
        unfold Supervisor.find?
        rw [hh]
        exact hg
      · exact hinsert hh ha' hg
      · refine hinsert hh ?_ hg
        unfold ProcessHandle.isAlive
        rw [g'.status_markSent]
        exact ha'

end Launch

variable {config : Config} {host : Host} {args : LaunchArguments} {description : List Action}
  {l : Launch}

/-- Nothing has been killed as long as a launch goes on. -/
theorem Reachable.forced_of_waiting (h : Reachable config host args description (.waiting l)) :
    l.forced = false := by
  generalize hs : Standing.waiting l = s at h
  induction h generalizing l with
  | begin =>
      cases hs
      have hbegin := Launch.activateAll_effects (Action.every_true description)
        (.start config host args)
      exact hbegin.sameLoop.forced
  | dispatch _ _ hd ih =>
      cases hs
      have hbefore := ih rfl
      exact (Launch.forced_dispatch hd).trans hbefore
  | idle _ _ _ => cases hs
  | receive a _ _ _ ih => exact (Launch.forced_receive hs.symm).trans (ih rfl)

/-- When a run ends, it was forced to exactly if something is left, and what is left has been
killed. -/
theorem Reachable.forced_iff_live (h : Reachable config host args description (.ended l)) :
    (l.forced = true ↔ ∃ id handle, l.supervisor.find? id = some handle ∧ handle.isAlive = true) ∧
      l.AllSent .kill := by
  have hkeyed := h.keyed
  have hempty : ∀ n : Launch, n.supervisor.Keyed → n.supervisor.live = [] →
      ∀ id handle, n.supervisor.find? id = some handle → handle.isAlive ≠ true := by
    intro n hn hlive id handle hh ha
    have hmem := hn.mem_live.mpr ⟨handle, hh, ha⟩
    rw [hlive] at hmem
    cases hmem
  rcases h.ended_cases with ⟨hw, hi⟩ | ⟨n, a, hn, hp, hf, rfl⟩
  · have hlive : l.supervisor.live = [] := by
      unfold Launch.isIdle at hi
      simp only [Bool.and_eq_true, List.isEmpty_iff] at hi
      exact hi.1.2
    refine ⟨⟨fun hforced => ?_, ?_⟩, fun id handle hh ha => ?_⟩
    · rw [hw.forced_of_waiting] at hforced
      cases hforced
    · rintro ⟨id, handle, hh, ha⟩
      exact absurd ha (hempty l hkeyed hlive id handle hh)
    · exact absurd ha (hempty l hkeyed hlive id handle hh)
  · have hsound := (hn.sound (Action.every_true description)).arrive a
    have hforced : (n.arrive a).forced = false := hn.forced_of_waiting
    refine ⟨?_, (Launch.killRemaining_winds hsound hf).2⟩
    unfold Launch.killRemaining
    split
    · rename_i hlive
      have hnone := hempty (n.arrive a) hsound.supervisor (List.isEmpty_iff.mp hlive)
      constructor
      · intro hset
        rw [hforced] at hset
        cases hset
      · rintro ⟨id, handle, hh, ha⟩
        exact absurd ha (hnone id handle hh)
    · rename_i hlive
      have heffects : Effects (fun _ => True) _ _ :=
        Launch.signalLive_effects .kill { n.arrive a with forced := true }
      refine ⟨?_, fun _ => heffects.sameLoop.forced⟩
      intro _
      -- Who lived before the signals lives after them, until a notice tells otherwise.
      obtain ⟨id, hid⟩ := List.exists_mem_of_ne_nil _ (mt List.isEmpty_iff.mpr hlive)
      exact ⟨id, Launch.living_of_effects heffects (hsound.supervisor.mem_live.mp hid)⟩

/-- **No process is left behind, and the exit code tells the truth.** When a run has ended, the
end of every process that was started has been seen, or the process was killed; the run counts as
forced exactly if some process was still alive, which is one whose end was not seen; and the exit
code is one exactly if the run was forced, or failed and was to fail fast, else zero. -/
theorem no_orphans (h : Reachable config host args description (.ended l)) :
    (∀ id spec, .started id spec ∈ l.history → l.endSeen id = true ∨
      ∃ handle, l.supervisor.find? id = some handle ∧ handle.killSent = true) ∧
    (∀ id spec, .started id spec ∈ l.history → (id ∈ l.supervisor.live ↔ l.endSeen id = false)) ∧
    (l.finish.forced = true ↔
      ∃ id spec, .started id spec ∈ l.history ∧ id ∈ l.supervisor.live) ∧
    l.finish.exitCode =
      if l.finish.forced = true ∨ (config.failurePolicy = .failFast ∧ l.finish.errors ≠ [])
      then 1 else 0 := by
  obtain ⟨hmoves, -⟩ := h.moves_any
  obtain ⟨hforced, hkilled⟩ := h.forced_iff_live
  have hkeyed : l.supervisor.Keyed := h.keyed
  have hcancel : Effects (fun _ => True) l (l.cancelTimers "launch finished" l.timers.keys) :=
    Launch.cancelTimers_effects _ _ _
  have hfinish : l.finish.forced = l.forced := hcancel.sameLoop.forced
  have hstarted : ∀ id spec, .started id spec ∈ l.history → (l.life id).started = true :=
    fun id spec hs => List.any_eq_true.mpr ⟨_, hs, decide_eq_true rfl⟩
  have halive : ∀ id spec, .started id spec ∈ l.history →
      (id ∈ l.supervisor.live ↔ l.endSeen id = false) := fun id spec hs =>
    hkeyed.mem_live.trans ((Launch.life_sound hmoves id).alive (hstarted id spec hs)).symm
  refine ⟨?_, halive, ?_, ?_⟩
  · intro id spec hs
    cases hseen : l.endSeen id with
    | true => exact .inl rfl
    | false =>
        obtain ⟨handle, hh, ha⟩ := hkeyed.mem_live.mp ((halive id spec hs).mpr hseen)
        exact .inr ⟨handle, hh, hkilled id handle hh ha⟩
  · rw [hfinish, hforced]
    constructor
    · rintro ⟨id, handle, hh, ha⟩
      obtain ⟨o, ho, hstarts⟩ :=
        List.any_eq_true.mp ((Launch.life_sound hmoves id).started_of_handle hh)
      cases o with
      | started id' spec =>
          obtain rfl : id' = id := of_decide_eq_true hstarts
          exact ⟨id', spec, ho, hkeyed.mem_live.mpr ⟨handle, hh, ha⟩⟩
      | _ => cases hstarts
    · rintro ⟨id, spec, -, hlive⟩
      exact ⟨id, hkeyed.mem_live.mp hlive⟩
  · have hfatal := ((Launch.failuresInOrder_of_moves hmoves).effects hcancel).fatal
    have herrors : l.finish.errors ≠ [] ↔
        (l.cancelTimers "launch finished" l.timers.keys).hasFailed = true := by
      rw [← Bool.not_eq_false, Ne, not_iff_not]
      exact Launch.errors_eq_nil_iff
    have htest : (l.finish.fatal.isSome || l.finish.forced) = true ↔
        l.finish.forced = true ∨ (config.failurePolicy = .failFast ∧ l.finish.errors ≠ []) := by
      rw [Bool.or_eq_true, or_comm, herrors, ← hfatal]
      rfl
    unfold Report.exitCode
    exact if_congr htest rfl rfl

/-- Whether the run was given up with the first process alive. -/
def Standing.isAbandoned : Standing → Bool
  | .waiting _ => false
  | .ended l => l.hasStarted ⟨1⟩ && !l.endSeen ⟨1⟩

/-- A launch that is interrupted twice kills the process that does not end. -/
theorem first_killed_by_interrupts :
    ∃ l, Reachable .standard .willing [] [.work 1 []] (.ended l) ∧ l.finish.exitCode = 1 ∧
      ∃ handle, l.supervisor.find? ⟨1⟩ = some handle ∧ handle.killSent = true := by
  have hrun : Reachable.comesTo Standing.isAbandoned ((Launch.begin .standard .willing []
      [.work 1 []]).run 9 [⟨.zero, .willing, .interrupt⟩, ⟨.zero, .willing, .interrupt⟩]) =
      true := by decide +kernel
  obtain ⟨s, hs, hcheck⟩ := Reachable.exists_of_comesTo 9 _ hrun
  cases s with
  | waiting l => cases hcheck
  | ended l =>
      simp only [Standing.isAbandoned, Bool.and_eq_true, Bool.not_eq_true'] at hcheck
      obtain ⟨hstarted, hunseen⟩ := hcheck
      obtain ⟨o, ho, hstarts⟩ := List.any_eq_true.mp hstarted
      cases o with
      | started id spec =>
          obtain rfl : id = ⟨1⟩ := of_decide_eq_true hstarts
          obtain ⟨hleft, hlive, hforced, hcode⟩ := no_orphans hs
          refine ⟨l, hs, ?_, (hleft _ _ ho).resolve_left (by simp [hunseen])⟩
          have halive := (hlive _ _ ho).mpr hunseen
          rw [hcode, if_pos (.inl (hforced.mpr ⟨_, _, ho, halive⟩))]
      | _ => cases hstarts

end Conductor
