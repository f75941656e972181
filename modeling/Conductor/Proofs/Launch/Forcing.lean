import Conductor.Machine.Simulation
import Conductor.Proofs.Launch.FailFast

/-!
# Why a launch is cut short

A launch kills what is left at two messages: at the end of the grace period, and at an interrupt
that comes when a shutdown was asked for. On a machine the first of them comes when the deadline
of the shutdown has passed (`Simulation.timely_of_next?`). The second is at least the second
interrupt, unless the shutdown was asked for in another way (`Reachable.interrupted_cases`).
-/

namespace Conductor

/-- Whether a message arrived. -/
def Occurrence.isArrivalOf (message : Message) : Occurrence → Bool
  | .received m => m = message
  | _ => false

namespace Launch

/-- How many interrupts have been handled. -/
def interrupts (l : Launch) : Nat :=
  l.history.countP (·.isArrivalOf .interrupt)

/-- Only one interrupt was handled, and it came when a shutdown had been asked for. -/
def InterruptedOnce (l : Launch) : Prop :=
  l.interrupts = 1 ∧ ∃ newer older reason due, l.history = newer ++ .received .interrupt :: older ∧
    .emitted (.shutdownRequested reason due) ∈ older

/-- The end of the grace period is told of no sooner than at the deadline. -/
def Timely (l : Launch) (a : Arrival) : Prop :=
  a.message = .graceElapsed → ∀ s, l.shutdown = some s → s.deadline.nanos ≤ a.time.nanos

variable {l n : Launch} {a : Arrival}

/-- The two messages at which a launch is given up. -/
theorem receive_ended_cases (h : n.receive a = .ended l) :
    l = (n.arrive a).killRemaining ∧
      ((a.message = .graceElapsed ∧ ∃ s, n.shutdown = some s) ∨
        (a.message = .interrupt ∧ n.context.shuttingDown = true)) := by
  unfold receive handle at h
  split at h
  · cases h
  · cases h
  · rename_i hm
    split at h
    · rename_i hflag
      exact ⟨(Standing.ended.inj h).symm, .inr ⟨hm, hflag⟩⟩
    · cases h
  · rename_i hm
    split at h
    · rename_i hsome
      exact ⟨(Standing.ended.inj h).symm, .inl ⟨hm, Option.isSome_iff_exists.mp hsome⟩⟩
    · cases h

/-- Killing what is left takes no time, and no message is handled meanwhile. -/
theorem killRemaining_frame (l : Launch) : l.killRemaining.now = l.now ∧
    l.killRemaining.shutdown = l.shutdown ∧
      ∃ os, l.killRemaining.history = os ++ l.history ∧ ∀ o ∈ os, o.isOfLoop = false := by
  rcases killRemaining_effects (p := fun _ => True) l with h | h
  · rw [h]
    exact ⟨rfl, rfl, [], rfl, by simp⟩
  · exact ⟨h.sameLoop.now, h.sameLoop.shutdown, h.grown.history⟩

theorem isArrivalOf_of_isOfLoop {o : Occurrence} (h : o.isOfLoop = false) (m : Message) :
    o.isArrivalOf m = false := by
  cases o <;> first | rfl | cases h

theorem interrupts_append {os : List Occurrence} (hos : n.history = os ++ l.history)
    (h : ∀ o ∈ os, o.isOfLoop = false) : n.interrupts = l.interrupts := by
  have hnone : os.countP (·.isArrivalOf .interrupt) = 0 := by
    rw [List.countP_eq_zero]
    intro o ho
    rw [isArrivalOf_of_isOfLoop (h o ho)]
    exact Bool.false_ne_true
  unfold interrupts
  rw [hos, List.countP_append, hnone, Nat.zero_add]

theorem interrupts_arrive (h : a.message = .interrupt) :
    (n.arrive a).interrupts = n.interrupts + 1 := by
  show (Occurrence.received a.message :: n.history).countP (·.isArrivalOf .interrupt) = _
  rw [List.countP_cons, h]
  rfl

/-- The message at which a launch is given up is on its history. -/
theorem any_isArrivalOf_of_receive {m : Message} (h : n.receive a = .ended l) (ha : a.message = m) :
    l.history.any (·.isArrivalOf m) = true := by
  obtain ⟨rfl, -⟩ := receive_ended_cases h
  obtain ⟨-, -, os, hos, -⟩ := (n.arrive a).killRemaining_frame
  rw [hos, List.any_append, Bool.or_eq_true]
  exact .inr (List.any_eq_true.mpr ⟨_, List.mem_cons_self, by simp [Occurrence.isArrivalOf, ha]⟩)

end Launch

namespace Reachable

variable {config : Config} {host : Host} {args : LaunchArguments} {description : List Action}
  {l n : Launch} {a : Arrival}

/-- What was killed was killed at a message. -/
theorem exists_receive_of_forced (h : Reachable config host args description (.ended l))
    (hforced : l.forced = true) :
    ∃ n a, Reachable config host args description (.waiting n) ∧ n.receive a = .ended l := by
  generalize hs : Standing.ended l = s at h
  cases h with
  | begin => cases hs
  | dispatch _ _ _ => cases hs
  | idle hl _ =>
      cases hs
      rw [hl.forced_of_waiting] at hforced
      cases hforced
  | @receive n a hn _ _ => exact ⟨n, a, hn, rfl⟩

/-- An interrupt that ends a launch is not the first one, or somebody else has asked for the
shutdown. -/
theorem interrupted_cases (hn : Reachable config host args description (.waiting n))
    (hend : n.receive a = .ended l) (ha : a.message = .interrupt) :
    2 ≤ l.interrupts ∨ l.InterruptedOnce := by
  obtain ⟨rfl, ⟨hgrace, -⟩ | ⟨-, hflag⟩⟩ := Launch.receive_ended_cases hend
  · rw [ha] at hgrace
    cases hgrace
  · obtain ⟨-, -, os, hos, hquiet⟩ := (n.arrive a).killRemaining_frame
    have hcount := Launch.interrupts_append hos hquiet
    rw [Launch.interrupts_arrive ha] at hcount
    have hhistory : (n.arrive a).killRemaining.history =
        os ++ .received .interrupt :: n.history := by
      rw [hos, ← ha]
      rfl
    obtain ⟨reason, due, hrequest⟩ := Launch.exists_request hn.moves_any.1 hflag
    cases hbefore : n.interrupts with
    | zero => exact .inr ⟨by omega, os, n.history, reason, due, hhistory, hrequest⟩
    | succ k => exact .inl (by omega)

/-- What ends a launch before its time: the end of the grace period or an interrupt. -/
theorem given_up_cases (hn : Reachable config host args description (.waiting n))
    (hend : n.receive a = .ended l) :
    (a.message = .graceElapsed ∧ l.now = a.time ∧ ∃ s, n.shutdown = some s ∧ l.shutdown = some s) ∨
      2 ≤ l.interrupts ∨ l.InterruptedOnce := by
  obtain ⟨hl, ⟨hgrace, s, hs⟩ | ⟨ha, -⟩⟩ := Launch.receive_ended_cases hend
  · obtain ⟨hnow, hshutdown, -⟩ := (n.arrive a).killRemaining_frame
    subst hl
    exact .inl ⟨hgrace, hnow, s, hs, hshutdown.trans hs⟩
  · exact .inr (hn.interrupted_cases hend ha)

end Reachable

/-! ## On a machine -/

namespace Simulation

variable {s t : Simulation} {m : Message} {l : Launch}

/-- Nothing that a launch does tells it that the grace period is over. -/
theorem graceElapsed_not_mem_withLaunch (hs : .graceElapsed ∉ s.queue) (l : Launch) :
    .graceElapsed ∉ (s.withLaunch l).queue := by
  unfold withLaunch
  rw [List.mem_append, List.mem_filterMap]
  rintro (h | ⟨o, -, ho⟩)
  · exact hs h
  · unfold echo? at ho
    split at ho
    · split at ho <;> cases ho
    · cases ho

/-- What comes next while nobody has sent anything, of the deadline and the notices. -/
theorem awaitOther?_cases (h : s.awaitOther? = some t) :
    (∃ n, t.queue = [.notice n]) ∨
      t.queue = [.graceElapsed] ∧ ∃ shutdown, s.launch.shutdown = some shutdown ∧
        shutdown.deadline.nanos ≤ t.processes.now := by
  have hdue : ∀ shutdown : Shutdown, s.launch.shutdown = some shutdown →
      some { s.atTime shutdown.deadline.nanos with queue := [.graceElapsed] } = some t →
      t.queue = [.graceElapsed] ∧ ∃ shutdown, s.launch.shutdown = some shutdown ∧
        shutdown.deadline.nanos ≤ t.processes.now := by
    intro shutdown hshutdown ht
    cases ht
    exact ⟨rfl, shutdown, hshutdown, Nat.le_max_right _ _⟩
  unfold awaitOther? at h
  split at h
  · cases h
  · rename_i shutdown hshutdown _
    exact .inr (hdue shutdown hshutdown h)
  · cases h
    exact .inl ⟨_, rfl⟩
  · rename_i shutdown _ _ _ hshutdown _
    split at h
    · exact .inr (hdue shutdown hshutdown h)
    · cases h
      exact .inl ⟨_, rfl⟩

theorem await?_cases (h : s.await? = some t) :
    .graceElapsed ∉ t.queue ∨
      t.queue = [.graceElapsed] ∧ ∃ shutdown, s.launch.shutdown = some shutdown ∧
        shutdown.deadline.nanos ≤ t.processes.now := by
  have hother : s.awaitOther? = some t → .graceElapsed ∉ t.queue ∨
      t.queue = [.graceElapsed] ∧ ∃ shutdown, s.launch.shutdown = some shutdown ∧
        shutdown.deadline.nanos ≤ t.processes.now := by
    intro h
    rcases awaitOther?_cases h with ⟨n, hn⟩ | hdue
    · exact .inl (by simp [hn])
    · exact .inr hdue
  unfold await? at h
  split at h
  · exact hother h
  · split at h
    · cases h
      exact .inl (by simp)
    · exact hother h

/-- The message that the grace period is over comes at the deadline, and is never kept waiting. -/
theorem timely_of_next? (hs : .graceElapsed ∉ s.queue) (h : s.next? = some (m, t)) :
    .graceElapsed ∉ t.queue ∧ s.launch.Timely (t.arrival m) := by
  have hqueue : ∀ {u : Simulation} {rest : List Message}, .graceElapsed ∉ u.queue →
      u.queue = m :: rest → .graceElapsed ∉ rest ∧ m ≠ .graceElapsed := by
    intro u rest hu hq
    rw [hq, List.mem_cons, not_or] at hu
    exact ⟨hu.2, Ne.symm hu.1⟩
  unfold next? at h
  split at h
  · rename_i hq
    cases h
    obtain ⟨hrest, hm⟩ := hqueue hs hq
    exact ⟨hrest, fun hgrace => absurd hgrace hm⟩
  · split at h
    · cases h
    · rename_i u hu
      split at h
      · cases h
      · rename_i rest hq
        cases h
        rcases await?_cases hu with hnone | ⟨hgrace, shutdown, hshutdown, hdeadline⟩
        · obtain ⟨hrest, hm⟩ := hqueue hnone hq
          exact ⟨hrest, fun hgrace => absurd hgrace hm⟩
        · rw [hgrace] at hq
          cases hq
          refine ⟨by simp, fun _ s' hs' => ?_⟩
          obtain rfl := Option.some.inj (hshutdown.symm.trans hs')
          exact hdeadline

/-- What was killed in a launch that a machine plays was killed at a message that came in time. -/
theorem exists_timely_of_play {config : Config} {host : Host} {args : LaunchArguments}
    {description : List Action} {bound : Nat}
    (hreach : Reachable config host args description (.waiting s.launch))
    (hs : .graceElapsed ∉ s.queue) (h : s.play bound = .ok l) (hforced : l.forced = true) :
    ∃ n a, Reachable config host args description (.waiting n) ∧ n.receive a = .ended l ∧
      n.Timely a := by
  induction bound generalizing s with
  | zero => cases h
  | succ bound ih =>
      unfold play at h
      split at h
      · cases h
      · rename_i k hk
        cases h
        -- Nothing is killed where nothing is left to wait for.
        unfold Launch.settleEvents at hk
        split at hk
        · cases hk
        · rename_i l' hl'
          split at hk
          · cases hk
            rw [(hreach.drain hl').1.forced_of_waiting] at hforced
            cases hforced
          · cases hk
      · rename_i k hk
        obtain ⟨hk, hp, hi⟩ := hreach.settleEvents hk
        split at h
        · cases h
        · rename_i m t ht
          have hlaunch : t.launch = k := launch_of_next? ht
          obtain ⟨hqueue, htimely⟩ := timely_of_next? (graceElapsed_not_mem_withLaunch hs k) ht
          rw [hlaunch] at h
          split at h
          · rename_i k' hend
            cases h
            exact ⟨k, _, hk, hend, htimely⟩
          · rename_i k' hnext
            have hk' := hk.receive (t.arrival m) hp (hi k rfl)
            rw [hnext] at hk'
            exact ih hk' (graceElapsed_not_mem_withLaunch hqueue k') h

end Simulation

/-- **A launch is cut short for one of two reasons, as long as nobody but the user asks for a
shutdown.** When a run was forced to end, it was at the end of the grace period of its shutdown,
which on a machine comes no sooner than its deadline, or two interrupts had been handled; or it
was at the only interrupt, which came when a shutdown had been asked for in another way. -/
theorem forced_when_due (config : Config) (args : LaunchArguments) (description : List Action) :
    (∀ host l, Reachable config host args description (.ended l) → l.finish.forced = true →
      (∃ n a s, Reachable config host args description (.waiting n) ∧ n.receive a = .ended l ∧
        a.message = .graceElapsed ∧ n.shutdown = some s) ∨
      2 ≤ l.interrupts ∨ l.InterruptedOnce) ∧
    ∀ (machine : Machine) l, machine.conduct config args description = .ok l →
      l.finish.forced = true →
      (∃ s, l.shutdown = some s ∧ s.deadline.nanos ≤ l.now.nanos) ∨
      2 ≤ l.interrupts ∨ l.InterruptedOnce := by
  constructor
  · intro host l h hforced
    rw [l.forced_finish] at hforced
    obtain ⟨n, a, hn, hend⟩ := h.exists_receive_of_forced hforced
    rcases hn.given_up_cases hend with ⟨hgrace, -, s, hs, -⟩ | hinterrupts
    · exact .inl ⟨n, a, s, hn, hend, hgrace, hs⟩
    · exact .inr hinterrupts
  · intro machine l h hforced
    rw [l.forced_finish] at hforced
    obtain ⟨n, a, hn, hend, htimely⟩ := Simulation.exists_timely_of_play .begin
      (Simulation.graceElapsed_not_mem_withLaunch (by simp) _) h hforced
    rcases hn.given_up_cases hend with ⟨hgrace, hnow, s, hs, hs'⟩ | hinterrupts
    · refine .inl ⟨s, hs', ?_⟩
      rw [hnow]
      exact htimely hgrace s hs
    · exact .inr hinterrupts

/-- Whether a run was forced to end with so many interrupts handled, and no word of the end of a
grace period. -/
def Standing.isForcedAfter (interrupts : Nat) : Standing → Bool
  | .waiting _ => false
  | .ended l => l.finish.forced && l.interrupts == interrupts &&
      !l.history.any (·.isArrivalOf .graceElapsed)

theorem exists_isForcedAfter {config : Config} {host : Host} {args : LaunchArguments}
    {description : List Action} {interrupts : Nat} (fuel : Nat) (as : List Arrival)
    (h : Reachable.comesTo (Standing.isForcedAfter interrupts)
      ((Launch.begin config host args description).run fuel as) = true) :
    ∃ l, Reachable config host args description (.ended l) ∧ l.finish.forced = true ∧
      l.interrupts = interrupts ∧ l.history.any (·.isArrivalOf .graceElapsed) = false := by
  obtain ⟨s, hs, hcheck⟩ := Reachable.exists_of_comesTo fuel as h
  cases s with
  | waiting l => cases hcheck
  | ended l =>
      simp only [Standing.isForcedAfter, Bool.and_eq_true, Bool.not_eq_true', beq_iff_eq] at hcheck
      exact ⟨l, hs, hcheck.1.1, hcheck.1.2, hcheck.2⟩

/-- A launch that nobody else asks to shut down is forced to end by the second interrupt. -/
theorem second_interrupt_forces :
    ∃ l, Reachable .standard .willing [] [.work 1 []] (.ended l) ∧ l.finish.forced = true ∧
      2 ≤ l.interrupts := by
  have hrun : Reachable.comesTo (Standing.isForcedAfter 2) ((Launch.begin .standard .willing []
      [.work 1 []]).run 9 [⟨.zero, .willing, .interrupt⟩, ⟨.zero, .willing, .interrupt⟩]) =
      true := by decide +kernel
  obtain ⟨l, hl, hforced, hcount, hquiet⟩ := exists_isForcedAfter 9 _ hrun
  rcases (forced_when_due .standard [] [.work 1 []]).1 .willing l hl hforced with
    ⟨n, a, s, -, hend, hgrace, -⟩ | hinterrupts | ⟨honce, -⟩
  · rw [Launch.any_isArrivalOf_of_receive hend hgrace] at hquiet
    cases hquiet
  · exact ⟨l, hl, hforced, hinterrupts⟩
  · rw [hcount] at honce
    cases honce

/-- It is not so for every run: when a shutdown was asked for in another way, the first interrupt
is enough. -/
theorem not_every_forced_when_due :
    ¬ ∀ l, Reachable .standard .willing [] [.work 1 [], .halt 2 "done"] (.ended l) →
      l.finish.forced = true →
      (∃ n a s, Reachable .standard .willing [] [.work 1 [], .halt 2 "done"] (.waiting n) ∧
        n.receive a = .ended l ∧ a.message = .graceElapsed ∧ n.shutdown = some s) ∨
      2 ≤ l.interrupts := by
  intro hevery
  have hrun : Reachable.comesTo (Standing.isForcedAfter 1) ((Launch.begin .standard .willing []
      [.work 1 [], .halt 2 "done"]).run 9 [⟨.zero, .willing, .interrupt⟩]) = true := by
    decide +kernel
  obtain ⟨l, hl, hforced, hcount, hquiet⟩ := exists_isForcedAfter 9 _ hrun
  rcases hevery l hl hforced with ⟨n, a, s, -, hend, hgrace, -⟩ | hinterrupts
  · rw [Launch.any_isArrivalOf_of_receive hend hgrace] at hquiet
    cases hquiet
  · rw [hcount] at hinterrupts
    cases hinterrupts with
    | step h => cases h

end Conductor
