import Conductor.Proofs.Launch.Ending
import Conductor.Proofs.Launch.Origin
import Conductor.Proofs.Launch.Queue

/-!
# Failures and the policy

Errors are reported in many places: by activations at any depth, by handlers, by processes whose
end is not known, by signals that cannot be sent. Under the fail-fast policy the first of them is
fatal and asks for the shutdown in the same step, so no work begins any more (`FailsFast`). Under
the other policy no error asks for a shutdown: every request is traced to a deed that was
performed, or to an interrupt that came (`Course.asked`).
-/

namespace Conductor

namespace Launch

variable {p : Deed → Prop} {l m n : Launch} {config : Config}

/-! ## Failing fast -/

/-- The first error is the fatal one, and since it was reported the launch shuts down and no work
has begun. -/
structure FailsFast (l : Launch) : Prop where
  fatal : l.fatal = l.errors.head?.map (·.message)
  flag : l.errors ≠ [] → l.context.shuttingDown = true
  quiet : ∀ newer kind message older, l.history = newer ++ .failed kind message :: older →
    ∀ o ∈ newer, o.beginsWork = false

theorem errors_ne_nil {kind message : String} (h : .failed kind message ∈ l.history) :
    l.errors ≠ [] := by
  rw [Ne, errors_eq_nil_iff, Bool.not_eq_false]
  exact List.any_eq_true.mpr ⟨_, h, rfl⟩

/-- What an effect does to the errors: nothing, or it reports one more, which is fatal if it is
the first one of a launch that fails fast. -/
theorem errors_of_effect (h : Effect p l m) :
    (m.fatal = l.fatal ∧ m.errors = l.errors) ∨
      ∃ e : LaunchError, m.errors = l.errors ++ [⟨e.kind, e.message⟩] ∧
        (m.fatal = l.fatal ∧ (l.config.failurePolicy ≠ .failFast ∨ l.fatal ≠ none) ∨
          l.fatal = none ∧ m.fatal = some e.message ∧ m.context.shuttingDown = true) := by
  have hcons : ∀ {k : Launch} (o : Occurrence), k.history = o :: l.history → o.error? = none →
      k.errors = l.errors := by
    intro k o hk ho
    rw [errors_append [o] hk]
    simp [ho]
  have hfailed : ∀ {k : Launch} (e : LaunchError),
      k.history = .failed e.kind e.message :: l.history →
      k.errors = l.errors ++ [⟨e.kind, e.message⟩] := fun e hk =>
    errors_append [.failed e.kind e.message] hk
  cases h with
  | enter a => exact .inl ⟨rfl, hcons (.entered l.journal.size a) rfl rfl⟩
  | leave seq outcome => exact .inl ⟨rfl, hcons (.left seq outcome) rfl rfl⟩
  | line level text => exact .inl ⟨rfl, hcons (.line level text) rfl rfl⟩
  | interrupt => exact .inl ⟨rfl, hcons .interrupted rfl rfl⟩
  | unregister name => exact .inl ⟨rfl, hcons (.unregistered name) rfl rfl⟩
  | emit e he => exact .inl ⟨rfl, hcons (.emitted e) rfl rfl⟩
  | request reason due hl =>
      exact .inl ⟨rfl, hcons (.emitted (.shutdownRequested reason due)) rfl rfl⟩
  | fail e hl => exact .inr ⟨e, hfailed e rfl, .inl ⟨rfl, hl⟩⟩
  | failLate e hpolicy hfatal hl => exact .inr ⟨e, hfailed e rfl, .inr ⟨hfatal, rfl, hl⟩⟩
  | failFast e hpolicy hfatal hl =>
      refine .inr ⟨e, ?_, .inr ⟨hfatal, rfl, rfl⟩⟩
      exact errors_append [.emitted (.shutdownRequested ("fail-fast: " ++ e.message) false),
        .failed e.kind e.message] rfl
  | cancelTimer why id t ht => exact .inl ⟨rfl, hcons (.cancelled id) rfl rfl⟩
  | schedule delay as scope record cancel hl has =>
      exact .inl ⟨rfl, hcons (.scheduled l.nextTimer _) rfl rfl⟩
  | signalled id signal => exact .inl ⟨rfl, hcons (.signalled id signal) rfl rfl⟩
  | spawn spec seq a t onExit h _ _ _ _ _ _ =>
      obtain ⟨r, -, -, -, -, heq⟩ := (l.withStarted h spec).attend_eq seq a onExit spec.name h
      rw [heq]
      refine .inl ⟨rfl, ?_⟩
      rw [errors_append (l := l) [.kept r _, .emitted (.processStarted r.info),
        .started h.id spec] rfl]
      exact List.append_nil _
  | _ => exact .inl ⟨rfl, rfl⟩

/-- What happens once an error was reported is no work. -/
theorem FailsFast.quiet_append (hl : l.FailsFast) {os : List Occurrence}
    (hos : m.history = os ++ l.history) (hq : ∀ o ∈ os, o.beginsWork = false) :
    ∀ newer kind message older, m.history = newer ++ .failed kind message :: older →
      ∀ o ∈ newer, o.beginsWork = false := by
  intro newer kind message older hsplit o ho
  rw [hos] at hsplit
  rcases split_of_append hsplit with ⟨rest, rfl, hold⟩ | ⟨rest, rfl, -⟩
  · rcases List.mem_append.mp ho with ho | ho
    · exact hq o ho
    · exact hl.quiet rest kind message older hold o ho
  · exact hq o (List.mem_append_left _ ho)

/-- **An effect under the fail-fast policy.** -/
theorem FailsFast.effect (hl : l.FailsFast) (hpolicy : l.config.failurePolicy = .failFast)
    (h : Effect p l m) : m.FailsFast := by
  have hfirst : l.fatal = none → l.errors = [] := by
    intro hnone
    have hhead := hl.fatal.symm.trans hnone
    simpa using hhead
  refine ⟨?_, ?_, ?_⟩
  · rcases errors_of_effect h with
      ⟨hfatal, herrors⟩ | ⟨e, herrors, ⟨hfatal, hlate⟩ | ⟨hnone, hfatal, -⟩⟩
    · rw [hfatal, herrors]
      exact hl.fatal
    · -- The first error came before.
      have hsome : l.fatal ≠ none := hlate.resolve_left fun hne => hne hpolicy
      rw [hfatal, herrors, hl.fatal]
      cases hold : l.errors with
      | nil => exact absurd (hl.fatal.trans (by rw [hold]; rfl)) hsome
      | cons first rest => rfl
    · rw [hfatal, herrors, hfirst hnone]
      rfl
  · intro hne
    rcases errors_of_effect h with ⟨-, herrors⟩ | ⟨e, -, ⟨-, hlate⟩ | ⟨-, -, hflag⟩⟩
    · rw [herrors] at hne
      exact h.grown.flag (hl.flag hne)
    · have hsome : l.fatal ≠ none := hlate.resolve_left fun hne => hne hpolicy
      refine h.grown.flag (hl.flag fun hnil => hsome ?_)
      rw [hl.fatal, hnil]
      rfl
    · exact hflag
  · -- Where work begins no shutdown was asked for, so no error was reported before.
    have hbefore : l.context.shuttingDown = false → ∀ kind message,
        .failed kind message ∉ l.history := by
      intro hoff kind message hmem
      have hon := hl.flag (errors_ne_nil hmem)
      rw [hoff] at hon
      cases hon
    rcases h.history with ⟨os, hos, hq⟩ | ⟨hoff, t, hos⟩ | ⟨r, w, onExit, hs, -⟩
    · exact hl.quiet_append hos fun o ho => (hq o ho).2
    · intro newer kind message older hsplit
      have hmem : .failed kind message ∈ m.history := by
        rw [hsplit]
        exact List.mem_append_cons_self
      rw [hos] at hmem
      exact absurd (by simpa using hmem) (hbefore hoff kind message)
    · obtain ⟨spec, hos⟩ := hs.history
      intro newer kind message older hsplit
      have hmem : .failed kind message ∈ m.history := by
        rw [hsplit]
        exact List.mem_append_cons_self
      rw [hos] at hmem
      exact absurd (by simpa using hmem) (hbefore hs.flag kind message)

theorem FailsFast.undisturbed (hl : l.FailsFast) (h : l.Undisturbed m) : m.FailsFast := by
  obtain ⟨os, hos, hq⟩ := h.history
  refine ⟨?_, ?_, hl.quiet_append hos fun o ho => (hq o ho).2⟩
  · rw [h.fatal, h.errors]
    exact hl.fatal
  · rw [h.errors]
    exact fun hne => h.flag (hl.flag hne)

theorem FailsFast.effects (hl : l.FailsFast) (hpolicy : l.config.failurePolicy = .failFast)
    (h : Effects p l m) : m.FailsFast := by
  induction h with
  | refl => exact hl
  | tail hbefore hlast ih =>
      refine ih.effect ?_ hlast
      rw [(Effects.sameLoop hbefore).config]
      exact hpolicy

/-- **At every moment of a launch that is to fail fast, the first error is the fatal one, and
nothing begins after it.** -/
theorem failsFast_of_moves {host : Host} {args : LaunchArguments}
    (hpolicy : config.failurePolicy = .failFast) (h : Moves p (start config host args) l) :
    l.FailsFast := by
  induction h with
  | refl => exact ⟨rfl, by simp [errors, occurrences, start], by simp [start]⟩
  | tail hbefore hlast ih =>
      obtain ⟨k, q, hk, heffects⟩ := undisturbed_of_move hlast
      refine (ih.undisturbed hk).effects ?_ heffects
      rw [hk.config, (failuresInOrder_of_moves hbefore).policy]
      exact hpolicy

/-! ## Going on -/

/-- Performing the deed of the action in the launch asks for a shutdown: as such, or by emitting
the event. -/
def Asks (k : Launch) (b : Action) (reason : String) (dueToSignal : Bool) : Prop :=
  (∃ text, b.deed = .shutdown text ∧ k.context.resolve text = .ok reason ∧ dueToSignal = false) ∨
    b.deed = .emit (.shutdownRequested reason dueToSignal)

/-- Between the two launches of a run that goes on after failures, only the deeds that were
performed have asked for a shutdown. -/
def Requests (performed : Action → Launch → Prop) (l m : Launch) : Prop :=
  m.config = l.config ∧ (l.config.failurePolicy = .goOn → ∃ os, m.history = os ++ l.history ∧
    ∀ reason due, .emitted (.shutdownRequested reason due) ∈ os →
      ∃ b k, performed b k ∧ k.Asks b reason due)

variable {performed performed' : Action → Launch → Prop}

theorem requests_of_same (hc : m.config = l.config) (hh : m.history = l.history) :
    Requests performed l m :=
  ⟨hc, fun _ => ⟨[], hh, by simp⟩⟩

theorem requests_of_cons {o : Occurrence} (hc : m.config = l.config)
    (hh : m.history = o :: l.history)
    (ho : ∀ reason due, o ≠ .emitted (.shutdownRequested reason due)) : Requests performed l m :=
  ⟨hc, fun _ => ⟨[o], hh, fun reason due hmem =>
    absurd (List.mem_singleton.mp hmem).symm (ho reason due)⟩⟩

theorem Requests.mono (h : ∀ b k, performed b k → performed' b k) (hl : Requests performed l m) :
    Requests performed' l m := by
  refine ⟨hl.1, fun hpolicy => ?_⟩
  obtain ⟨os, hos, hq⟩ := hl.2 hpolicy
  refine ⟨os, hos, fun reason due hmem => ?_⟩
  obtain ⟨b, k, hb, hasks⟩ := hq reason due hmem
  exact ⟨b, k, h b k hb, hasks⟩

theorem Requests.trans (h : Requests performed l m) (h' : Requests performed m n) :
    Requests performed l n := by
  refine ⟨h'.1.trans h.1, fun hpolicy => ?_⟩
  obtain ⟨os, hos, hq⟩ := h.2 hpolicy
  obtain ⟨os', hos', hq'⟩ := h'.2 (by rw [h.1]; exact hpolicy)
  refine ⟨os' ++ os, by rw [hos', hos, List.append_assoc], fun reason due hmem => ?_⟩
  rcases List.mem_append.mp hmem with hmem | hmem
  · exact hq' reason due hmem
  · exact hq reason due hmem

/-- A failure asks for nothing when the launch goes on. -/
theorem requests_report (l : Launch) (e : LaunchError) : Requests performed l (l.report e) := by
  have heffect : Effect (fun _ => True) l (l.report e) := report_effect l e
  refine ⟨heffect.sameLoop.config, fun hpolicy => ⟨[.failed e.kind e.message], ?_, by simp⟩⟩
  have hon : ¬ (l.config.failurePolicy = .failFast ∧ l.fatal = none) := by
    rw [hpolicy]
    exact fun h => nomatch h.1
  show ((l.happen (.failed e.kind e.message)).onFailure e.message).history = _
  unfold onFailure
  rw [if_neg (show ¬ ((l.happen (.failed e.kind e.message)).config.failurePolicy = .failFast ∧
    (l.happen (.failed e.kind e.message)).fatal = none) from hon)]
  rfl

theorem requests_fail (l : Launch) (seq : Nat) (d : Deed) (e : LaunchError) :
    Requests performed l (l.fail seq d e).1 :=
  Requests.trans (m := l.advance seq (.failed e.message)) (requests_of_same rfl rfl)
    (requests_report _ e)

theorem requests_gate (l : Launch) (seq : Nat) (a : Action) :
    Requests performed l (l.gate seq a).1 := by
  have hpass : ∀ n : Launch, Requests performed n
      (if n.context.shuttingDown && a.deed.startsWork then
        ((n.advance seq .skipped).note seq "shutdown in progress", some Outcome.skipped)
      else ((n.advance seq .activated).advance seq .running, none)).1 := by
    intro n
    split
    · exact requests_of_same rfl rfl
    · exact requests_of_same rfl rfl
  unfold gate
  cases a.condition with
  | none => exact hpass l
  | some c =>
      have hasked : Requests performed l (l.advance seq .evaluatingCondition) :=
        requests_of_same rfl rfl
      dsimp only
      cases l.context.decide c with
      | error e => exact hasked.trans (requests_fail _ seq a.deed e)
      | ok b =>
          cases b with
          | false => exact hasked.trans (requests_of_same rfl rfl)
          | true => exact hasked.trans (hpass _)

theorem requests_settle (seq : Nat) (d : Deed) (x : Launch × Performed) :
    Requests performed x.1 (settle seq d x).1 := by
  obtain ⟨m, r⟩ := x
  match r with
  | .ok .done => exact requests_of_same rfl rfl
  | .ok .running => exact requests_of_same rfl rfl
  | .error e => exact requests_fail m seq d e

theorem requests_cancelTimers (why : String) (ids : List Nat) (l : Launch) :
    Requests performed l (l.cancelTimers why ids) := by
  have heffects : Effects (fun _ => True) l (l.cancelTimers why ids) :=
    cancelTimers_effects why ids l
  obtain ⟨os, hos, hq⟩ := history_cancelTimers why ids l
  refine ⟨heffects.sameLoop.config, fun _ => ⟨os, hos, fun reason due hmem => ?_⟩⟩
  obtain ⟨id, -, heq⟩ := hq _ hmem
  cases heq

theorem requests_endGroup (l : Launch) (failure : Option LaunchError) :
    Requests performed l (l.endGroup failure) := by
  have hregroup : ∀ groups, Requests performed l { l with groupTimers := groups } := fun groups =>
    requests_of_same rfl rfl
  unfold endGroup
  split
  · exact requests_of_same rfl rfl
  · split
    · exact hregroup _
    · exact (hregroup _).trans (requests_cancelTimers _ _ _)

theorem requests_asked (l : Launch) (d : Deed) : Requests performed l (l.asked d) := by
  have hheard : ∀ y, Requests performed l (l.heard y) := by
    intro y
    unfold heard
    split
    · exact requests_of_cons (o := .interrupted) rfl rfl (by simp)
    · exact requests_of_same rfl rfl
  unfold asked
  split
  · exact hheard _
  · exact hheard _
  · exact requests_of_same rfl rfl

theorem surrounds_requests : Surrounds (Requests fun _ _ => False) where
  refl _ := requests_of_same rfl rfl
  gate := requests_gate
  settle := requests_settle
  skipAll _ _ _ := requests_of_same rfl rfl
  beginGroup _ := requests_of_same rfl rfl
  endGroup := requests_endGroup
  asked := requests_asked

theorem requests_execute (l : Launch) (seq : Nat) (a : Action) (t : ProcessTemplate)
    (onExit : List Action) : Requests performed l (l.execute seq a t onExit).1 := by
  unfold execute
  split
  · exact requests_of_same rfl rfl
  · dsimp only
    split
    · exact requests_of_same rfl rfl
    · rename_i spec _
      split
      · rename_i hs
        rw [startProcess_error hs]
        exact requests_of_same rfl rfl
      · rename_i h l' hs
        obtain ⟨-, -, rfl⟩ := startProcess_ok hs
        obtain ⟨r, -, -, -, -, heq⟩ :=
          attend_eq (withStarted { l with attempts := l.attempts + 1 } h spec) seq a onExit
            spec.name h
        rw [heq]
        exact ⟨rfl, fun _ => ⟨[_, .emitted (.processStarted r.info), _], rfl, by simp⟩⟩

/-- Of the deeds without children those ask for a shutdown that are meant to. -/
theorem requests_performLeaf (l : Launch) (seq : Nat) (a : Action) :
    Requests (fun b k => b = a ∧ k = l) l (l.performLeaf seq a a.deed).1 := by
  cases hd : a.deed with
  | log level message =>
      rw [performLeaf]
      split
      · exact requests_of_same rfl rfl
      · exact requests_of_cons rfl rfl (by simp)
  | execute t onExit => exact requests_execute l seq a t onExit
  | declare argument =>
      rw [performLeaf]
      split
      · exact requests_of_same rfl rfl
      · split <;> exact requests_of_same rfl rfl
  | setVariable target name value =>
      rw [performLeaf]
      split
      · exact requests_of_same rfl rfl
      · split <;> exact requests_of_same rfl rfl
  | setEnv name value =>
      rw [performLeaf]
      split <;> exact requests_of_same rfl rfl
  | unregister name => exact requests_of_cons (o := .unregistered name) rfl rfl (by simp)
  | emit e =>
      refine ⟨rfl, fun _ => ⟨[.emitted e], rfl, fun reason due hmem => ?_⟩⟩
      cases List.mem_singleton.mp hmem
      exact ⟨a, l, ⟨rfl, rfl⟩, .inr hd⟩
  | timer period children cancel =>
      rw [performLeaf]
      split
      · exact requests_of_same rfl rfl
      · split
        · exact requests_of_same rfl rfl
        · exact requests_of_cons (o := .scheduled l.nextTimer _) rfl rfl (by simp)
  | shutdown text =>
      rw [performLeaf]
      split
      · exact requests_of_same rfl rfl
      · rename_i reason hreason
        unfold requestShutdown
        split
        · rename_i heq
          split at heq
          · cases heq
          · cases heq
            refine ⟨rfl, fun _ => ⟨[.emitted (.shutdownRequested reason false)], rfl, ?_⟩⟩
            intro reason' due hmem
            cases List.mem_singleton.mp hmem
            exact ⟨a, l, ⟨rfl, rfl⟩, .inl ⟨text, hd, hreason, rfl⟩⟩
        · rename_i heq
          split at heq
          · cases heq
            exact requests_of_same rfl rfl
          · cases heq
  | unsetVariable | unsetEnv | register | group | splice | compute =>
      exact requests_of_same rfl rfl

/-- **In an activation only deeds ask for a shutdown, unless failures are to.** -/
theorem assembled_requests : Assembled (Requests fun _ _ => False) Requests where
  mono := Requests.mono
  trans := Requests.trans
  around h := h.mono fun _ _ => False.elim
  enter a := requests_of_cons (o := .entered _ a) rfl rfl (by simp)
  leave seq outcome := requests_of_cons (o := .left seq outcome) rfl rfl (by simp)
  leaf {seq a l} _ := requests_performLeaf l seq a
  inside _ h := h

/-- A body asks for a shutdown only by its deeds. -/
theorem requests_activateBody (b : Beginning) :
    Requests (BodyReaches b.actions b.opened) b.launch b.closed := by
  obtain ⟨cause, actions, scope, l⟩ := b
  cases scope with
  | none =>
      have hbegun : Requests (BodyReaches actions (l.happen (.began cause actions none))) l
          (l.happen (.began cause actions none)) := requests_of_cons rfl rfl (by simp)
      exact hbegun.trans (assembled_requests.activateAll surrounds_requests actions _)
  | some scope =>
      have hbegun : Requests (BodyReaches actions
          ((l.happen (.began cause actions (some scope))).inScope scope)) l
          ((l.happen (.began cause actions (some scope))).inScope scope) :=
        requests_of_cons (o := .began cause actions (some scope)) rfl rfl (by simp)
      have hbody := assembled_requests.activateAll surrounds_requests actions
        ((l.happen (.began cause actions (some scope))).inScope scope)
      exact (hbegun.trans hbody).trans (requests_of_same rfl rfl)

/-! ## Between bodies -/

theorem requests_sendSignal (signal : Signal) (id : ProcessId) (l : Launch) :
    Requests performed l (l.sendSignal signal id) := by
  have hsent : ∀ s, Requests performed l { l with supervisor := s } := fun s =>
    requests_of_same rfl rfl
  unfold sendSignal
  split
  · exact requests_of_cons (o := .signalled id signal) rfl rfl (by simp)
  · exact hsent _
  · exact (hsent _).trans (requests_report _ _)

theorem requests_signalLive (signal : Signal) (l : Launch) :
    Requests performed l (l.signalLive signal) := by
  unfold signalLive
  generalize l.supervisor.live = ids
  induction ids generalizing l with
  | nil => exact requests_of_same rfl rfl
  | cons id rest ih => exact (requests_sendSignal signal id l).trans (ih _)

theorem requests_killRemaining (l : Launch) : Requests performed l l.killRemaining := by
  have hforced : Requests performed l { l with forced := true } := requests_of_same rfl rfl
  unfold killRemaining
  split
  · exact requests_of_same rfl rfl
  · exact hforced.trans (requests_signalLive .kill _)

theorem requests_beginShutdown {reason : String} (h : l.beginShutdown reason = .ok m) :
    Requests performed l m := by
  obtain ⟨deadline, -, rfl⟩ := beginShutdown_eq h
  have hbegun : Requests performed l (l.withShutdown reason deadline) :=
    requests_of_cons (o := .shutdownBegan reason) rfl rfl (by simp)
  exact (hbegun.trans (requests_cancelTimers _ _ _)).trans (requests_signalLive .terminate _)

theorem requests_closeTurn (l : Launch) (e : Event) : Requests performed l (l.closeTurn e) :=
  requests_of_cons (o := .turnEnded e) rfl rfl (by simp)

theorem requests_givenUp (l : Launch) (q : ProcessInfo) (status : ExitStatus) :
    Requests performed l (l.givenUp q status) := by
  refine (requests_closeTurn l (.processExited q status)).trans ?_
  unfold givenUp
  rcases (l.closeTurn (.processExited q status)).releaseProcess_cases q.id with
    ⟨-, h⟩ | ⟨g, -, -, h⟩
  · rw [h]
    exact requests_of_same rfl rfl
  · rw [h]
    exact requests_of_cons (o := .released g) rfl rfl (by simp)

theorem requests_onNotice (l : Launch) (n : Notice) : Requests performed l (l.onNotice n) := by
  have htaken (s : Supervisor) : Requests performed l { l with supervisor := s } :=
    requests_of_same rfl rfl
  rcases l.onNotice_cases n with
    ⟨-, h⟩ | ⟨s, -, ⟨-, h⟩ | ⟨r, -, ⟨_, stream, line, -, h⟩ | ⟨_, status, fault, -, h⟩⟩⟩
  · rw [h]
    exact requests_of_same rfl rfl
  · rw [h]
    exact htaken s
  · rw [h]
    exact (htaken s).trans
      (requests_of_cons (o := .emitted (.processOutput r.info stream line)) rfl rfl (by simp))
  · rw [h]
    have hfault (k : Launch) : Requests performed k (k.reportFault r.info.name fault) := by
      cases fault with
      | none => exact requests_of_same rfl rfl
      | some text => exact requests_report k _
    exact ((htaken s).trans (hfault _)).trans
      (requests_of_cons (o := .emitted (.processExited r.info status)) rfl rfl (by simp))

theorem requests_elapse (l : Launch) (id : Nat) (t : Timer) :
    Requests performed l (l.elapse id t) := by
  have htaken : Requests performed l ({ l with timers := l.timers.erase id }.happen (.fired id)) :=
    requests_of_cons (o := .fired id) rfl rfl (by simp)
  unfold elapse
  dsimp only
  split
  · exact htaken
  · exact htaken.trans (requests_of_cons (o := .emitted (.timerElapsed id)) rfl rfl (by simp))

theorem requests_afterTurn {e : Event} (h : (l.closeTurn e).afterTurn e = .ok m)
    (hn : ∀ q status r, e = .processExited q status →
      l.processes.get? q.id.number = some r → (l.givenUp q status).respawnDelay? r = none) :
    Requests performed l m := by
  cases e with
  | shutdownRequested reason due =>
      exact (requests_closeTurn l _).trans (requests_beginShutdown h)
  | processExited q status =>
      cases hr : l.processes.get? q.id.number with
      | none =>
          have hgone : (l.closeTurn (.processExited q status)).processes.get? q.id.number = none :=
            hr
          change Except.ok ((l.closeTurn (.processExited q status)).finishProcess q.id) = .ok m at h
          unfold finishProcess at h
          rw [hgone] at h
          cases h
          exact requests_closeTurn l _
      | some r =>
          rw [afterTurn_processExited hr, respawn_eq, hn q status r rfl hr] at h
          cases h
          exact requests_givenUp l q status
  | _ =>
      cases h
      exact requests_closeTurn l _

/-- A message asks for a shutdown if it is an interrupt and none was asked for. -/
theorem requests_receive {a : Arrival} (ha : ∀ id, a.message = .timerFired id →
    l.timers.get? id = none) :
    Requests performed l (l.receive a).launch ∨
      a.message = .interrupt ∧
        (l.receive a).launch = (l.arrive a).withRequest "interrupted" true := by
  have harrive : Requests performed l (l.arrive a) :=
    requests_of_cons (o := .received a.message) rfl rfl (by simp)
  unfold receive
  cases hm : a.message with
  | notice n => exact .inl (harrive.trans (requests_onNotice _ n))
  | timerFired id =>
      have hnone : (l.arrive a).timers.get? id = none := ha id hm
      have hsame : (l.arrive a).fireTimer id = l.arrive a := by
        unfold fireTimer
        rw [hnone]
      show Requests performed l ((l.arrive a).fireTimer id) ∨ _
      rw [hsame]
      exact .inl harrive
  | interrupt =>
      unfold handle
      dsimp only
      split
      · exact .inl (harrive.trans (requests_killRemaining _))
      · rename_i hf
        exact .inr ⟨rfl, requestShutdown_eq (Bool.eq_false_iff.mpr hf) _ _⟩
  | graceElapsed =>
      unfold handle
      dsimp only
      split
      · exact .inl (harrive.trans (requests_killRemaining _))
      · exact .inl harrive

end Launch

variable {config : Config} {host : Host} {args : LaunchArguments} {description : List Action}
  {bs : List Beginning} {s t : Phase} {b : Beginning} {l m : Launch}

/-- Between two bodies nothing asks for a shutdown but an interrupt. -/
theorem Phase.Passes.requests (h : s.Passes l t m) :
    Launch.Requests (fun _ _ => False) l m ∨
      ∃ a : Arrival, a.message = .interrupt ∧
        m = (l.arrive a).withRequest "interrupted" true := by
  cases h with
  | @ignore _ e rest hp he hs =>
      exact .inl (Launch.requests_of_cons (o := .ignored e) rfl rfl (by simp))
  | @take _ e rest hp hs =>
      exact .inl (Launch.requests_of_cons (o := .dispatched e) rfl rfl (by simp))
  | miss hf => exact .inl (Launch.requests_of_same rfl rfl)
  | @decline _ e writer id ids h err hf hy ha =>
      have hwriter : Launch.Requests (fun _ _ => False) l (l.withWriter h writer) :=
        Launch.requests_of_same rfl rfl
      exact .inl (hwriter.trans (Launch.requests_report _ err))
  | close hm hn => exact .inl (Launch.requests_afterTurn hm hn)
  | postpone hr hd hz =>
      exact .inl ((Launch.requests_givenUp l _ _).trans
        (Launch.requests_of_cons (o := .scheduled _ _) rfl rfl (by simp)))
  | @receive _ a hp hi ha =>
      rcases Launch.requests_receive ha with hm | ⟨hmessage, hm⟩
      · exact .inl hm
      · exact .inr ⟨a, hmessage, hm⟩
  | idle hi => exact .inl (Launch.requests_of_same rfl rfl)

theorem Phase.Begins.requests (h : s.Begins l b t) :
    Launch.Requests (fun _ _ => False) l b.launch := by
  cases h with
  | @answer _ m e writer id ids g as hf hy hm ha =>
      have hasked : Launch.Requests (fun _ _ => False) l m := by
        rcases hm with rfl | rfl
        · exact Launch.requests_of_same rfl rfl
        · exact Launch.requests_of_cons (o := .interrupted) rfl rfl (by simp)
      have hwriter : Launch.Requests (fun _ _ => False) m (m.withWriter g writer) :=
        Launch.requests_of_same rfl rfl
      exact hasked.trans hwriter
  | restart hr hd hz => exact Launch.requests_givenUp l _ _
  | @fire _ a id t hp hi ha ht =>
      have harrive : Launch.Requests (fun _ _ => False) l (l.arrive a) :=
        Launch.requests_of_cons (o := .received a.message) rfl rfl (by simp)
      exact harrive.trans (Launch.requests_elapse _ id t)

/-- Every request for a shutdown is that of a deed that was performed, or of an interrupt that
came. -/
def Launch.Asked (performed : Action → Launch → Prop) (l : Launch) : Prop :=
  ∀ reason due, .emitted (.shutdownRequested reason due) ∈ l.history →
    (∃ b k, performed b k ∧ k.Asks b reason due) ∨
      reason = "interrupted" ∧ due = true ∧ .received .interrupt ∈ l.history

theorem Launch.Asked.requests {performed performed' : Action → Launch → Prop}
    (hl : l.Asked performed) (h : Launch.Requests performed' l m)
    (hpolicy : l.config.failurePolicy = .goOn) (hp : ∀ b k, performed b k → performed' b k) :
    m.Asked performed' := by
  obtain ⟨os, hos, hq⟩ := h.2 hpolicy
  intro reason due hmem
  rw [hos] at hmem ⊢
  rcases List.mem_append.mp hmem with hmem | hmem
  · exact .inl (hq reason due hmem)
  · rcases hl reason due hmem with ⟨b, k, hb, hasks⟩ | ⟨hreason, hdue, hcame⟩
    · exact .inl ⟨b, k, hp b k hb, hasks⟩
    · exact .inr ⟨hreason, hdue, List.mem_append_right os hcame⟩

namespace Course

theorem policy (h : Course config host args description bs s l) : l.config = config :=
  (Launch.failuresInOrder_of_moves h.strides.moves).policy

/-- **When a launch goes on after failures, every request for a shutdown is that of a deed or of
an interrupt.** -/
theorem asked (hpolicy : config.failurePolicy = .goOn)
    (h : Course config host args description bs s l) :
    l.Asked (HasPerformed config host args description bs) := by
  induction h with
  | begin =>
      have hall := Launch.assembled_requests.activateAll Launch.surrounds_requests description
        (.start config host args)
      have hstart : (Launch.start config host args).Asked
          (BodyReaches description (.start config host args)) := fun reason due hmem => by
        cases hmem
      exact hstart.requests (hall.mono fun _ _ => .inl) hpolicy fun _ _ => .inl
  | @pass bs s t l m hbefore hp ih =>
      have hgoes := hbefore.policy ▸ hpolicy
      rcases hp.requests with hm | ⟨a, ha, rfl⟩
      · exact ih.requests (hm.mono fun _ _ => False.elim) hgoes fun _ _ => id
      · intro reason due hmem
        have hcame : .received .interrupt ∈ (l.arrive a).history := by
          rw [← ha]
          exact List.mem_cons_self
        rcases List.mem_cons.mp hmem with heq | hmem
        · cases heq
          exact .inr ⟨rfl, rfl, List.mem_cons_of_mem _ hcame⟩
        · have hold := (List.mem_cons.mp hmem).resolve_left (by simp)
          rcases ih reason due hold with hdeed | ⟨hreason, hdue, -⟩
          · exact .inl hdeed
          · exact .inr ⟨hreason, hdue, List.mem_cons_of_mem _ hcame⟩
  | @body bs s t l b hbefore hb ih =>
      have hgoes := hbefore.policy ▸ hpolicy
      have hopened := ih.requests (hb.requests.mono fun _ _ => False.elim) hgoes fun _ _ => id
      refine hopened.requests ((Launch.requests_activateBody b).mono ?_) ?_ fun _ _ => .cons
      · exact fun a k h => .inr ⟨b, List.mem_cons_self, h⟩
      · rw [hb.requests.1]
        exact hgoes

end Course

/-- Who shuts down has asked for it with an event. -/
theorem Launch.exists_request {p : Deed → Prop} (h : Moves p (.start config host args) l)
    (hf : l.context.shuttingDown = true) :
    ∃ reason due, .emitted (.shutdownRequested reason due) ∈ l.history := by
  have hqueue := queueInOrder_of_moves h
  have horder := shutdownInOrder_of_moves h
  have hturned : l.requestReasons ≠ [] →
      ∃ reason due, .emitted (.shutdownRequested reason due) ∈ l.history := by
    intro hne
    obtain ⟨reason, hreason⟩ := List.exists_mem_of_ne_nil _ hne
    obtain ⟨due, hdue⟩ := mem_requestReasons.mp hreason
    exact ⟨reason, due, hqueue.emitted hdue⟩
  have hrequested := horder.requested
  unfold shutdownReason? at hrequested
  rcases horder.asked hf with hbegun | ⟨e, he, hreq⟩
  · obtain ⟨shutdown, hs⟩ := Option.isSome_iff_exists.mp hbegun
    rw [hs] at hrequested
    exact hturned (by rw [hrequested]; simp)
  · cases e with
    | shutdownRequested reason due =>
        rcases List.mem_append.mp he with hc | hp
        · have hc := Option.mem_toList.mp hc
          rw [show l.context.current = some (.shutdownRequested reason due) from hc,
            horder.turn reason due hc] at hrequested
          exact hturned (by rw [hrequested]; simp [Event.shutdownReason?])
        · exact ⟨reason, due, hqueue.emitted_of_pending hp⟩
    | _ => cases hreq

/-- **Failures follow the policy.** At every moment of a launch that fails fast, also in the middle
of activations, there is a fatal failure exactly if an error was reported, and it is the first one;
from then on the launch shuts down, and no process is started and no timer scheduled. In a launch
that goes on no failure is ever fatal, and one that is reported changes neither the flag nor the
queue: on the course that the run takes, every request for a shutdown is that of a deed that was
performed, or of an interrupt that came, and nobody else has set the flag. -/
theorem failures_follow_policy :
    (config.failurePolicy = .failFast → ∀ p l, Moves p (.start config host args) l →
      (l.fatal.isSome = true ↔ l.errors ≠ []) ∧ l.fatal = l.errors.head?.map (·.message) ∧
      (l.errors ≠ [] → l.context.shuttingDown = true) ∧
      ∀ newer kind message older, l.history = newer ++ .failed kind message :: older →
        ∀ o ∈ newer, o.beginsWork = false) ∧
    (config.failurePolicy = .goOn →
      (∀ p l, Moves p (.start config host args) l → l.fatal = none ∧
        (∀ e, (l.report e).context = l.context) ∧
        (l.context.shuttingDown = true →
          ∃ reason due, .emitted (.shutdownRequested reason due) ∈ l.history)) ∧
      ∀ description x, Reachable config host args description x →
        ∃ bs, Course config host args description bs x.phase x.launch ∧
          x.launch.Asked (HasPerformed config host args description bs)) := by
  refine ⟨fun hpolicy p l hl => ?_, fun hpolicy => ⟨fun p l hl => ⟨?_, fun e => ?_, ?_⟩, ?_⟩⟩
  · have hfast := Launch.failsFast_of_moves hpolicy hl
    refine ⟨?_, hfast.fatal, hfast.flag, hfast.quiet⟩
    rw [hfast.fatal]
    cases l.errors <;> simp
  · have hnot := mt (Launch.failuresInOrder_of_moves hl).fatal.mp
      (by rw [hpolicy]; exact fun h => nomatch h.1)
    exact Option.not_isSome_iff_eq_none.mp hnot
  · have hgoes : l.config.failurePolicy ≠ .failFast := by
      rw [(Launch.failuresInOrder_of_moves hl).policy, hpolicy]
      exact nofun
    unfold Launch.report Launch.onFailure
    rw [if_neg (fun h => hgoes h.1)]
    rfl
  · exact Launch.exists_request hl
  · intro description x hx
    obtain ⟨bs, hcourse⟩ := hx.course
    exact ⟨bs, hcourse, hcourse.asked hpolicy⟩

/-- The standard configuration, failing fast. -/
def Config.failingFast : Config :=
  { Config.standard with failurePolicy := .failFast }

/-- A worker, a file that is missing, and a second worker. -/
def workAroundMissing : List Action :=
  [.work 1 [], .mk ⟨2⟩ none (.splice (.file "missing" fun _ => .actions []) [] true), .work 3 []]

/-- The missing file is fatal to a launch that fails fast, which starts one of the workers only;
a launch that goes on does not shut down. -/
theorem missing_file_follows_policy :
    (∃ l, Reachable .failingFast .willing [] workAroundMissing (.waiting l) ∧
      l.errors.length = 1 ∧ l.fatal.isSome = true ∧ l.context.shuttingDown = true ∧
      l.supervisor.live = [⟨1⟩]) ∧
    ∃ l, Reachable .standard .willing [] workAroundMissing (.waiting l) ∧ l.errors.length = 1 ∧
      l.fatal = none ∧ l.supervisor.live = [⟨1⟩, ⟨2⟩] := by
  constructor
  · have hs : Reachable .failingFast .willing [] workAroundMissing
        (.waiting (.begin .failingFast .willing [] workAroundMissing)) := .begin
    have hone : (Launch.begin .failingFast .willing [] workAroundMissing).errors.length = 1 := by
      decide +kernel
    have hlive :
        (Launch.begin .failingFast .willing [] workAroundMissing).supervisor.live = [⟨1⟩] := by
      decide +kernel
    generalize Launch.begin .failingFast .willing [] workAroundMissing = l at hs hone hlive
    obtain ⟨hfatal, -, hflag, -⟩ := failures_follow_policy.1 rfl _ l hs.moves_any.1
    have hne : l.errors ≠ [] := List.ne_nil_of_length_pos (by omega)
    exact ⟨l, hs, hone, hfatal.mpr hne, hflag hne, hlive⟩
  · have hs : Reachable .standard .willing [] workAroundMissing
        (.waiting (.begin .standard .willing [] workAroundMissing)) := .begin
    have hone : (Launch.begin .standard .willing [] workAroundMissing).errors.length = 1 := by
      decide +kernel
    have hlive : (Launch.begin .standard .willing [] workAroundMissing).supervisor.live =
        [⟨1⟩, ⟨2⟩] := by decide +kernel
    generalize Launch.begin .standard .willing [] workAroundMissing = l at hs hone hlive
    obtain ⟨hfatal, -, -⟩ := (failures_follow_policy.2 rfl).1 _ l hs.moves_any.1
    exact ⟨l, hs, hone, hfatal, hlive⟩

end Conductor
