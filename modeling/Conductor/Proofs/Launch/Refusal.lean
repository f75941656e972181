import Conductor.Proofs.Launch.Completion
import Conductor.Proofs.Launch.Plan
import Conductor.Proofs.Launch.Queue

/-!
# Refused activations

While a launch shuts down, actions that start processes or schedule timers are not let through.
A shutdown action, a fatal failure and an interrupt set the flag with the request that they queue,
so nothing starts in the turn of the request any more (`Heeds`, `flag_of_emitted`). An action that
emits the event of a request sets no flag: the flag is set when the turn of the event is over
(`exists_turnEnded`), and what its handlers start before that is started.
-/

namespace Conductor

/-- The deed emits no event that asks for a shutdown. -/
def Deed.EmitsNoRequest (d : Deed) : Prop :=
  ∀ reason due, d ≠ .emit (.shutdownRequested reason due)

/-- The stage in which an activation has ended stays, whatever moves the launch makes. -/
theorem Journal.EndedAs.moves {p : Deed → Prop} {l m : Launch} {k : Nat} {s : Stage}
    (hk : l.journal.EndedAs k s) (h : Moves p l m) : m.journal.EndedAs k s := by
  induction h with
  | refl => exact hk
  | tail _ hlast ih =>
      obtain ⟨n, q, hn, heffects⟩ := Launch.undisturbed_of_move hlast
      have hsame := hn.journal.symm ▸ ih
      exact hsame.effects heffects

namespace Launch

variable {p : Deed → Prop} {l m n : Launch} {a : Action} {seq : Nat}

/-! ## What is refused -/

/-- The action is not let through. Its record says that it is skipped, for good, unless it has a
condition that cannot be decided. -/
inductive Refuses (l : Launch) (a : Action) : Prop where
  | skip (ho : (activate a l).2 = .skipped)
      (hs : ∀ p m, Moves p (activate a l).1 m →
        m.journal.stage? l.journal.size = some .skipped)
  | undecided (c : Condition) (e : LaunchError) (hc : a.condition = some c)
      (he : l.context.decide c = .error e)
      (ho : (activate a l).2 = .failed a.deed.escalates e.message)
      (hs : ∀ p m, Moves p (activate a l).1 m →
        m.journal.stage? l.journal.size = some (.failed e.message))

/-- How the condition of an action is answered that would start something. -/
theorem gate_of_shuttingDown (hf : l.context.shuttingDown = true)
    (hw : a.deed.startsWork = true) (hs : l.journal.stage? seq = some .pending) :
    ((l.gate seq a).2 = some .skipped ∧ (l.gate seq a).1.journal.EndedAs seq .skipped) ∨
      ∃ c e, a.condition = some c ∧ l.context.decide c = .error e ∧
        (l.gate seq a).2 = some (.failed a.deed.escalates e.message) ∧
        (l.gate seq a).1.journal.EndedAs seq (.failed e.message) := by
  have hstopped : (l.context.shuttingDown && a.deed.startsWork) = true := by rw [hf, hw]; rfl
  unfold gate
  cases hc : a.condition with
  | none =>
      dsimp only
      rw [if_pos hstopped]
      have hskipped : (l.advance seq .skipped).journal.EndedAs seq .skipped :=
        ⟨Journal.stage?_advance_self hs rfl, rfl⟩
      exact .inl ⟨rfl, hskipped.note seq _⟩
  | some c =>
      have hasked : (l.advance seq .evaluatingCondition).journal.stage? seq =
          some .evaluatingCondition := Journal.stage?_advance_self hs rfl
      have hskipped : ((l.advance seq .evaluatingCondition).advance seq .skipped).journal.EndedAs
          seq .skipped := ⟨Journal.stage?_advance_self hasked rfl, rfl⟩
      dsimp only
      cases he : l.context.decide c with
      | error e =>
          refine .inr ⟨c, e, rfl, he, rfl, ?_⟩
          have hfailed : ((l.advance seq .evaluatingCondition).advance seq
              (.failed e.message)).journal.EndedAs seq (.failed e.message) :=
            ⟨Journal.stage?_advance_self hasked rfl, rfl⟩
          exact hfailed.effect (report_effect (p := fun _ => True) _ e)
      | ok b =>
          cases b with
          | false => exact .inl ⟨rfl, hskipped⟩
          | true =>
              dsimp only
              rw [if_pos (show ((l.advance seq .evaluatingCondition).context.shuttingDown &&
                a.deed.startsWork) = true from hstopped)]
              exact .inl ⟨rfl, hskipped.note seq _⟩

/-- **While a launch shuts down, an action is refused that would start a process or schedule a
timer.** -/
theorem refuses_of_shuttingDown (hf : l.context.shuttingDown = true)
    (hw : a.deed.startsWork = true) : l.Refuses a := by
  have hpending : (l.enter a).2.journal.stage? l.journal.size = some .pending :=
    (Journal.stage?_enter l.journal a _).trans (if_pos rfl)
  have hactivate := activate_eq a l
  cases hg : (l.enter a).2.gate l.journal.size a with
  | mk k outcome =>
      have hgate := gate_of_shuttingDown (l := (l.enter a).2) hf hw hpending
      rw [hg] at hgate hactivate
      -- Both records are closed when the action is left, and stay so.
      have hleft : ∀ {s : Stage}, k.journal.EndedAs l.journal.size s →
          ∀ {o : Outcome}, outcome = some o → (activate a l).2 = o ∧
            ∀ p m, Moves p (activate a l).1 m → m.journal.stage? l.journal.size = some s := by
        rintro s hs o rfl
        rw [hactivate]
        refine ⟨rfl, fun p m hm => ?_⟩
        have hended : (leave l.journal.size (k, o)).1.journal.EndedAs l.journal.size s := hs
        exact (hended.moves hm).1
      rcases hgate with ⟨ho, hs⟩ | ⟨c, e, hc, he, ho, hs⟩
      · obtain ⟨houtcome, hstage⟩ := hleft hs ho
        exact .skip houtcome hstage
      · obtain ⟨houtcome, hstage⟩ := hleft hs ho
        exact .undecided c e hc he houtcome hstage

/-! ## When the flag is set -/

/-- Between the two launches the flag is set by every request for a shutdown, but for those that a
deed emits. -/
structure Heeds (p : Deed → Prop) (l m : Launch) : Prop where
  flag : l.context.shuttingDown = true → m.context.shuttingDown = true
  history : ∃ os, m.history = os ++ l.history ∧
    ∀ reason due, .emitted (.shutdownRequested reason due) ∈ os →
      m.context.shuttingDown = true ∨ p (.emit (.shutdownRequested reason due))

theorem heeds_of_same (hf : m.context.shuttingDown = l.context.shuttingDown)
    (hh : m.history = l.history) : l.Heeds p m :=
  ⟨hf.trans, [], hh, by simp⟩

theorem heeds_of_cons {o : Occurrence} (hf : m.context.shuttingDown = l.context.shuttingDown)
    (hh : m.history = o :: l.history)
    (ho : ∀ reason due, o ≠ .emitted (.shutdownRequested reason due)) : l.Heeds p m := by
  refine ⟨hf.trans, [o], hh, fun reason due hmem => ?_⟩
  exact absurd (List.mem_singleton.mp hmem).symm (ho reason due)

theorem Heeds.trans (h : l.Heeds p m) (h' : m.Heeds p n) : l.Heeds p n := by
  obtain ⟨os, hos, hq⟩ := h.history
  obtain ⟨os', hos', hq'⟩ := h'.history
  refine ⟨h'.flag ∘ h.flag, os' ++ os, by rw [hos', hos, List.append_assoc], ?_⟩
  intro reason due hmem
  rcases List.mem_append.mp hmem with hmem | hmem
  · exact hq' reason due hmem
  · exact (hq reason due hmem).imp_left h'.flag

theorem heeds_of_effect (h : Effect p l m) : l.Heeds p m := by
  cases h with
  | emit e he =>
      refine ⟨id, [.emitted e], rfl, fun reason due hmem => ?_⟩
      cases List.mem_singleton.mp hmem
      exact .inr he
  | request reason due hl =>
      exact ⟨fun _ => rfl, [.emitted (.shutdownRequested reason due)], rfl, fun _ _ _ => .inl rfl⟩
  | failFast e hpolicy hfatal hl =>
      exact ⟨fun _ => rfl, [.emitted (.shutdownRequested ("fail-fast: " ++ e.message) false),
        .failed e.kind e.message], rfl, fun _ _ _ => .inl rfl⟩
  | spawn spec seq a t onExit h _ _ _ _ _ _ =>
      obtain ⟨r, -, -, -, -, heq⟩ := (l.withStarted h spec).attend_eq seq a onExit spec.name h
      rw [heq]
      exact ⟨id, [.kept r _, .emitted (.processStarted r.info), .started h.id spec], rfl,
        by simp⟩
  | enter | leave | line | interrupt | unregister | fail | failLate | cancelTimer | schedule
  | signalled => exact heeds_of_cons rfl rfl (by simp)
  | _ => exact heeds_of_same rfl rfl

theorem heeds_of_effects (h : Effects p l m) : l.Heeds p m := by
  induction h with
  | refl => exact heeds_of_same rfl rfl
  | tail _ hlast ih => exact ih.trans (heeds_of_effect hlast)

theorem heeds_onNotice (l : Launch) (n : Notice) : l.Heeds p (l.onNotice n) := by
  have htaken : ∀ s, l.Heeds p { l with supervisor := s } := fun s => heeds_of_same rfl rfl
  have hemit : ∀ (k : Launch) (e : Event), e.isShutdownRequest = false → k.Heeds p (k.emit e) := by
    intro k e he
    refine heeds_of_cons (o := .emitted e) rfl rfl fun reason due heq => ?_
    cases heq
    cases he
  rcases l.onNotice_cases n with
    ⟨-, h⟩ | ⟨s, -, ⟨-, h⟩ | ⟨r, -, ⟨_, _, _, -, h⟩ | ⟨_, status, fault, -, h⟩⟩⟩
  · rw [h]
    exact heeds_of_same rfl rfl
  · rw [h]
    exact htaken s
  · rw [h]
    exact (htaken s).trans (hemit _ _ rfl)
  · obtain ⟨k, hk, hend⟩ := processEnded_effects (p := p) { l with supervisor := s } r status fault
    rw [h, hend]
    exact ((htaken s).trans (heeds_of_effects hk)).trans (hemit k _ rfl)

theorem heeds_elapse (l : Launch) (id : Nat) (t : Timer) : l.Heeds p (l.elapse id t) := by
  have htaken : l.Heeds p ({ l with timers := l.timers.erase id }.happen (.fired id)) :=
    heeds_of_cons rfl rfl (by simp)
  unfold elapse
  dsimp only
  split
  · exact htaken
  · exact htaken.trans (heeds_of_cons (o := .emitted (.timerElapsed id)) rfl rfl (by simp))

theorem heeds_closeTurn (l : Launch) (e : Event) : l.Heeds p (l.closeTurn e) :=
  heeds_of_cons (o := .turnEnded e) rfl rfl (by simp)

/-- **In a move only deeds ask for a shutdown without setting the flag.** -/
theorem heeds_of_move (h : Move p l m) : l.Heeds p m := by
  cases h with
  | effect h => exact heeds_of_effect h
  | take e rest hp hc hs => exact heeds_of_cons (o := .dispatched e) rfl rfl (by simp)
  | ignore e rest hp hc he hs => exact heeds_of_cons (o := .ignored e) rfl rfl (by simp)
  | answer e h writer as hc hf hm hy has =>
      exact heeds_of_cons (o := .began (.handler h.id) as h.handler.scope) rfl rfl (by simp)
  | decline e h writer hc hf hm hy => exact heeds_of_same rfl rfl
  | resume cause as scope hcause has =>
      exact heeds_of_cons (o := .began cause as scope) rfl rfl (by simp)
  | close e hc hs he => exact heeds_closeTurn l e
  | release q status r hc hr =>
      refine (heeds_closeTurn l (.processExited q status)).trans ?_
      rcases (l.closeTurn (.processExited q status)).releaseProcess_cases q.id with
          ⟨-, h⟩ | ⟨g, -, -, h⟩
      · rw [h]
        exact heeds_of_same rfl rfl
      · rw [h]
        exact heeds_of_cons (o := .released g) rfl rfl (by simp)
  | shutdown reason due hc hb =>
      obtain ⟨deadline, heffects⟩ := beginShutdown_effects (p := p) hb
      have hbegun : (l.closeTurn (.shutdownRequested reason due)).Heeds p
          ((l.closeTurn (.shutdownRequested reason due)).withShutdown reason deadline) :=
        ⟨fun _ => rfl, [.shutdownBegan reason], rfl, by simp⟩
      exact ((heeds_closeTurn l _).trans hbegun).trans (heeds_of_effects heffects)
  | arrive a hc hp ha => exact heeds_of_cons (o := .received a.message) rfl rfl (by simp)
  | notice a n hc hp ha =>
      have harrive : l.Heeds p (l.arrive a) :=
        heeds_of_cons (o := .received a.message) rfl rfl (by simp)
      exact harrive.trans (heeds_onNotice _ n)
  | elapse id t hc hp ht => exact heeds_elapse l id t
  | kill hc hp hs =>
      rcases killRemaining_effects (p := p) l with h | h
      · rw [h]
        exact heeds_of_same rfl rfl
      · have hforced : l.Heeds p { l with forced := true } := heeds_of_same rfl rfl
        exact hforced.trans (heeds_of_effects h)

variable {config : Config} {host : Host} {args : LaunchArguments}

/-- **A request that no deed has emitted has set the flag.** -/
theorem flag_of_emitted (h : Moves p (start config host args) l) {reason : String} {due : Bool}
    (he : .emitted (.shutdownRequested reason due) ∈ l.history)
    (hp : ¬ p (.emit (.shutdownRequested reason due))) : l.context.shuttingDown = true := by
  have hheeds : (start config host args).Heeds p l := by
    clear he
    induction h with
    | refl => exact heeds_of_same rfl rfl
    | tail _ hlast ih => exact ih.trans (heeds_of_move hlast)
  obtain ⟨os, hos, hq⟩ := hheeds.history
  have hnew : l.history = os := hos.trans (List.append_nil os)
  exact (hq reason due (hnew ▸ he)).resolve_right hp

/-! ## Moments of a launch -/

/-- When an event gets its turn. -/
theorem exists_dispatched (h : Moves p (start config host args) l) {e : Event}
    {newer older : List Occurrence} (hl : l.history = newer ++ .dispatched e :: older) :
    ∃ k, Moves p (start config host args) k ∧ Moves p k l ∧ k.history = .dispatched e :: older := by
  induction h generalizing newer with
  | refl => simp [start] at hl
  | @tail k l hbefore hlast ih =>
      have hthere := hbefore.tail hlast
      rcases queues_of_move hlast with ⟨os, hos, hnot, -⟩ | ⟨e', rest, o, -, -, hos, ho⟩
      · rw [hos] at hl
        have hdispatched : .dispatched e ∉ os := by
          intro hmem
          cases hnot _ hmem
        obtain ⟨rest, -, hold⟩ := split_of_not_mem hl hdispatched
        obtain ⟨n, hn, hk, hh⟩ := ih hold
        exact ⟨n, hn, hk.tail hlast, hh⟩
      · rw [hos] at hl
        rcases split_of_cons hl with ⟨-, rfl, rfl⟩ | ⟨rest, -, hold⟩
        · exact ⟨l, hthere, .refl, hos⟩
        · obtain ⟨n, hn, hk, hh⟩ := ih hold
          exact ⟨n, hn, hk.tail hlast, hh⟩

/-- The shutdown that follows the turn of a request leaves the flag set, and starts nothing. -/
theorem turnEnded_of_beginShutdown (hl : l.Sound p) {reason : String} {e : Event}
    (hb : (l.closeTurn e).beginShutdown reason = .ok m) {e' : Event}
    {newer older : List Occurrence} (hm : m.history = newer ++ .turnEnded e' :: older) :
    (∃ rest, l.history = rest ++ .turnEnded e' :: older) ∨
      m.context.shuttingDown = true ∧ ∀ o ∈ newer, o.beginsWork = false := by
  obtain ⟨deadline, heffects⟩ := beginShutdown_effects (p := p) hb
  have hsound : ((l.closeTurn e).withShutdown reason deadline).Sound p :=
    (hl.closeTurn _).withShutdown reason deadline
  have hwinds := winds_of_effects hsound rfl heffects
  obtain ⟨os, hos, hq⟩ := hwinds.history
  have hquiet : ∀ o ∈ os ++ [.shutdownBegan reason], o.beginsWork = false := by
    intro o ho
    rcases List.mem_append.mp ho with ho | ho
    · exact hq o ho
    · rw [List.mem_singleton.mp ho]
      rfl
  have hall : m.history = (os ++ [.shutdownBegan reason]) ++ .turnEnded e :: l.history := by
    rw [hos, List.append_assoc]
    rfl
  rw [hall] at hm
  -- This turn, or one that was over before.
  rcases split_of_append hm with ⟨rest, rfl, hold⟩ | ⟨rest, hnew, -⟩
  · rcases split_of_cons hold with ⟨rfl, -, -⟩ | ⟨rest', -, hold⟩
    · rw [List.append_nil]
      exact .inr ⟨hwinds.flag rfl, hquiet⟩
    · exact .inl ⟨rest', hold⟩
  · refine .inr ⟨hwinds.flag rfl, fun o ho => hquiet o ?_⟩
    rw [hnew]
    exact List.mem_append_left _ ho

/-- A move after which the turn of a request for a shutdown is over leaves the flag set, and
starts nothing. -/
theorem turnEnded_of_move (h : Move p l m) (hl : l.Sound p) {reason : String} {due : Bool}
    {newer older : List Occurrence}
    (hm : m.history = newer ++ .turnEnded (.shutdownRequested reason due) :: older) :
    (∃ rest, l.history = rest ++ .turnEnded (.shutdownRequested reason due) :: older) ∨
      m.context.shuttingDown = true ∧ ∀ o ∈ newer, o.beginsWork = false := by
  have hstep : ∀ os, m.history = os ++ l.history →
      .turnEnded (.shutdownRequested reason due) ∉ os →
      ∃ rest, l.history = rest ++ .turnEnded (.shutdownRequested reason due) :: older := by
    intro os hos hnot
    rw [hos] at hm
    obtain ⟨rest, -, hold⟩ := split_of_not_mem hm hnot
    exact ⟨rest, hold⟩
  have haside : l.Calm m →
      ∃ rest, l.history = rest ++ .turnEnded (.shutdownRequested reason due) :: older := by
    intro hcalm
    obtain ⟨os, hos, hq⟩ := hcalm.history
    refine hstep os hos fun hmem => ?_
    cases hq _ hmem
  cases h with
  | effect h =>
      obtain ⟨os, hos, hq⟩ := h.grown.history
      refine .inl (hstep os hos fun hmem => ?_)
      cases hq _ hmem
  | take e rest hp hc hs => exact .inl (hstep [.dispatched e] rfl (by simp))
  | ignore e rest hp hc he hs => exact .inl (hstep [.ignored e] rfl (by simp))
  | answer e h writer as hc hf hm hy has => exact .inl (hstep [.began _ _ _] rfl (by simp))
  | decline e h writer hc hf hm hy => exact .inl (hstep [] rfl (by simp))
  | resume cause as scope hcause has => exact .inl (hstep [.began _ _ _] rfl (by simp))
  | close e hc hs he =>
      refine .inl (hstep [.turnEnded e] rfl fun hmem => ?_)
      cases List.mem_singleton.mp hmem
      cases hs
  | release q status r hc hr =>
      obtain ⟨os, hos, hq⟩ := (calm_releaseProcess (l.closeTurn (.processExited q status))
        q.id).history
      refine .inl (hstep (os ++ [.turnEnded (.processExited q status)]) (by rw [hos]; simp; rfl) ?_)
      intro hmem
      rcases List.mem_append.mp hmem with hmem | hmem
      · cases hq _ hmem
      · cases List.mem_singleton.mp hmem
  | shutdown reason' due' hc hb => exact turnEnded_of_beginShutdown hl hb hm
  | arrive a hc hp ha => exact .inl (haside (calm_arrive l a))
  | notice a n hc hp ha => exact .inl (haside ((calm_arrive l a).trans (calm_onNotice _ n)))
  | elapse id t hc hp ht => exact .inl (haside (calm_elapse l id t))
  | kill hc hp hs => exact .inl (haside (calm_killRemaining l))

/-- When the turn of a request for a shutdown is over. -/
theorem exists_turnEnded (h : Moves p (start config host args) l) {reason : String} {due : Bool}
    {newer older : List Occurrence}
    (hl : l.history = newer ++ .turnEnded (.shutdownRequested reason due) :: older) :
    ∃ k os, Moves p (start config host args) k ∧ Moves p k l ∧
      k.history = os ++ .turnEnded (.shutdownRequested reason due) :: older ∧
      k.context.shuttingDown = true ∧ ∀ o ∈ os, o.beginsWork = false := by
  induction h generalizing newer with
  | refl => simp [start] at hl
  | @tail k l hbefore hlast ih =>
      rcases turnEnded_of_move hlast ((sound_start _ _ _).moves hbefore) hl with
        ⟨rest, hold⟩ | ⟨hflag, hquiet⟩
      · obtain ⟨n, os, hn, hk, hh⟩ := ih hold
        exact ⟨n, os, hn, hk.tail hlast, hh⟩
      · exact ⟨l, newer, hbefore.tail hlast, .refl, hl, hflag, hquiet⟩

/-- The history since a moment, read off two ways. -/
theorem quiet_since (h : Moves p (start config host args) l) (hl : Moves p l m)
    (hf : l.context.shuttingDown = true) {newer older : List Occurrence} {o : Occurrence}
    (os : List Occurrence) (ho : l.history = os ++ o :: older)
    (hos : ∀ o ∈ os, o.beginsWork = false)
    (hm : m.history = newer ++ o :: older) :
    m.context.shuttingDown = true ∧ ∀ o ∈ newer, o.beginsWork = false := by
  have hwinds := hl.winds ((sound_start config host args).moves h) hf
  obtain ⟨later, hlater, hq⟩ := hwinds.history
  have hnewer : newer = later ++ os := by
    rw [hlater, ho, ← List.append_assoc] at hm
    exact (List.append_cancel_right hm).symm
  refine ⟨hwinds.flag hf, fun o' ho' => ?_⟩
  rw [hnewer] at ho'
  rcases List.mem_append.mp ho' with ho' | ho'
  · exact hq o' ho'
  · exact hos o' ho'

end Launch

variable {config : Config} {host : Host} {args : LaunchArguments}

/-- **Nothing starts once a shutdown is on its way.** At every moment of a launch, also in the
middle of activations: once it shuts down it always will, no process is started and no timer
scheduled any more, and every action that would do so is refused. A launch shuts down from the
moment at which the request is queued, and so in its whole turn, unless an action of the
description emits the event of this request itself; then it does when the turn is over. -/
theorem nothing_starts_since_request :
    (∀ p l, Moves p (.start config host args) l →
      (l.context.shuttingDown = true → ∀ m, Moves p l m → m.context.shuttingDown = true ∧
        (∃ os, m.history = os ++ l.history ∧ ∀ o ∈ os, o.beginsWork = false) ∧
        ∀ a, a.deed.startsWork = true → m.Refuses a) ∧
      (∀ reason due, ¬ p (.emit (.shutdownRequested reason due)) →
        .emitted (.shutdownRequested reason due) ∈ l.history → l.context.shuttingDown = true) ∧
      ∀ newer reason due older,
        (l.history = newer ++ .dispatched (.shutdownRequested reason due) :: older ∧
          ¬ p (.emit (.shutdownRequested reason due))) ∨
        l.history = newer ++ .turnEnded (.shutdownRequested reason due) :: older →
          l.context.shuttingDown = true ∧ ∀ o ∈ newer, o.beginsWork = false) ∧
    ∀ description x, Reachable config host args description x →
      (∀ a ∈ description, a.Every Deed.EmitsNoRequest) →
        ∀ newer reason due older,
          x.launch.history = newer ++ .dispatched (.shutdownRequested reason due) :: older →
            x.launch.context.shuttingDown = true ∧ ∀ o ∈ newer, o.beginsWork = false := by
  have hturn : ∀ p l, Moves p (.start config host args) l → ∀ newer reason due older,
      l.history = newer ++ .dispatched (.shutdownRequested reason due) :: older →
      ¬ p (.emit (.shutdownRequested reason due)) →
        l.context.shuttingDown = true ∧ ∀ o ∈ newer, o.beginsWork = false := by
    intro p l hl newer reason due older hsplit hp
    obtain ⟨k, hk, hlater, hh⟩ := Launch.exists_dispatched hl hsplit
    have hemitted := (Launch.queueInOrder_of_moves hk).emitted (e := .shutdownRequested reason due)
      (by rw [hh]; exact List.mem_cons_self)
    exact Launch.quiet_since hk hlater (Launch.flag_of_emitted hk hemitted hp) [] hh
      (by simp) hsplit
  refine ⟨fun p l hl => ⟨fun hf m hm => ?_, fun reason due hp he => ?_, ?_⟩, ?_⟩
  · have hwinds := hm.winds ((Launch.sound_start config host args).moves hl) hf
    have hflag := hwinds.flag hf
    exact ⟨hflag, hwinds.history, fun a hw => Launch.refuses_of_shuttingDown hflag hw⟩
  · exact Launch.flag_of_emitted hl he hp
  · rintro newer reason due older (⟨hsplit, hp⟩ | hsplit)
    · exact hturn p l hl newer reason due older hsplit hp
    · obtain ⟨k, os, hk, hlater, hh, hflag, hquiet⟩ := Launch.exists_turnEnded hl hsplit
      exact Launch.quiet_since hk hlater hflag os hh hquiet hsplit
  · intro description x hx hall newer reason due older hsplit
    exact hturn _ _ (hx.moves hall).1 newer reason due older hsplit fun h => h reason due rfl

/-- An action that registers a handler for requests for a shutdown. -/
def Action.onShutdown (bits : BitVec 128) (children : List Action) : Action :=
  .mk ⟨bits⟩ none (.register (.mk none .shutdown (.actions children) false none))

/-- An action that emits the event of a request for a shutdown. -/
def Action.emitShutdown (bits : BitVec 128) (reason : String) : Action :=
  .mk ⟨bits⟩ none (.emit (.shutdownRequested reason false))

namespace Occurrence

/-- Whether an occurrence of the kind has come since a request for a shutdown got its turn. -/
def sinceRequest (q : Occurrence → Bool) : List Occurrence → Bool
  | [] => false
  | o :: older => (q o && older.any (·.requestReason?.isSome)) || sinceRequest q older

theorem exists_of_sinceRequest {q : Occurrence → Bool} {os : List Occurrence}
    (h : sinceRequest q os = true) :
    ∃ newer reason due older, os = newer ++ .dispatched (.shutdownRequested reason due) :: older ∧
      newer.any q = true := by
  induction os with
  | nil => cases h
  | cons o os ih =>
      rw [sinceRequest, Bool.or_eq_true, Bool.and_eq_true] at h
      rcases h with ⟨ho, hany⟩ | h
      · obtain ⟨d, hd, hreason⟩ := List.any_eq_true.mp hany
        obtain ⟨newer, older, rfl⟩ := List.append_of_mem hd
        cases d with
        | dispatched e =>
            cases e with
            | shutdownRequested reason due =>
                exact ⟨o :: newer, reason, due, older, rfl, by simp [ho]⟩
            | _ => cases hreason
        | _ => cases hreason
      · obtain ⟨newer, reason, due, older, rfl, hq⟩ := ih h
        exact ⟨o :: newer, reason, due, older, rfl, by simp [hq]⟩

/-- Whether an action is activated that would start something. -/
def attemptsWork : Occurrence → Bool
  | .entered _ a => a.deed.startsWork
  | _ => false

end Occurrence

/-- A handler of requests for a shutdown that schedules a timer. -/
def tickOnShutdown : Action :=
  .onShutdown 1 [.later 2 "1" [] false]

/-- When a shutdown action asks for the shutdown, the handler's timer is come to in the turn of the
request, and is refused. -/
theorem halt_refuses_tick :
    ∃ x newer reason due older, Reachable .standard .willing [] [tickOnShutdown, .halt 3 "done"] x ∧
      x.launch.history = newer ++ .dispatched (.shutdownRequested reason due) :: older ∧
      newer.any (·.attemptsWork) = true ∧ (∀ o ∈ newer, o.beginsWork = false) ∧
      x.launch.Refuses (.later 2 "1" [] false) := by
  have hall : ∀ a ∈ [tickOnShutdown, .halt 3 "done"], a.Every Deed.EmitsNoRequest := by
    simp [tickOnShutdown, Action.onShutdown, Action.later, Action.halt, Action.Every, Deed.Every,
      Handler.Every, Body.Every, everyDeed, Deed.EmitsNoRequest]
  have hrun : Reachable.comesTo (fun s => Occurrence.sinceRequest (·.attemptsWork) s.launch.history)
      ((Launch.begin .standard .willing [] [tickOnShutdown, .halt 3 "done"]).run 9 []) = true := by
    decide +kernel
  obtain ⟨x, hx, hcheck⟩ := Reachable.exists_of_comesTo 9 [] hrun
  obtain ⟨newer, reason, due, older, hsplit, hany⟩ := Occurrence.exists_of_sinceRequest hcheck
  obtain ⟨hmoments, hruns⟩ := @nothing_starts_since_request .standard .willing []
  obtain ⟨hflag, hquiet⟩ := hruns _ x hx hall newer reason due older hsplit
  obtain ⟨hsince, -⟩ := hmoments _ _ hx.moves_any.1
  obtain ⟨-, -, hrefuses⟩ := hsince hflag _ .refl
  exact ⟨x, newer, reason, due, older, hx, hsplit, hany, hquiet, hrefuses _ rfl⟩

/-- It is not so that nothing starts in the turn of every request for a shutdown: when an action
emits the event, the handler's timer is scheduled. -/
theorem not_every_request_refuses_tick :
    ¬ ∀ x, Reachable .standard .willing [] [tickOnShutdown, .emitShutdown 3 "done"] x →
      ∀ newer reason due older,
        x.launch.history = newer ++ .dispatched (.shutdownRequested reason due) :: older →
          ∀ o ∈ newer, o.beginsWork = false := by
  intro hevery
  have hrun : Reachable.comesTo (fun s => Occurrence.sinceRequest (·.beginsWork) s.launch.history)
      ((Launch.begin .standard .willing [] [tickOnShutdown, .emitShutdown 3 "done"]).run 9 []) =
      true := by decide +kernel
  obtain ⟨x, hx, hcheck⟩ := Reachable.exists_of_comesTo 9 [] hrun
  obtain ⟨newer, reason, due, older, hsplit, hany⟩ := Occurrence.exists_of_sinceRequest hcheck
  obtain ⟨o, ho, hbegins⟩ := List.any_eq_true.mp hany
  rw [hevery x hx newer reason due older hsplit o ho] at hbegins
  cases hbegins

end Conductor
