import Conductor.Report
import Conductor.Proofs.Launch.Bookkeeping
import Conductor.Proofs.Launch.Winding

/-!
# The shutdown of a launch

A shutdown is asked for, queued as an event, and begins when that event has had its turn. The
three are noted in different places and at different times; `ShutdownInOrder` says how they fit
together. It holds from the start and every move keeps it (`shutdownInOrder_of_moves`).
-/

namespace Conductor

/-- Why a shutdown is asked for, if the event asks for one. -/
def Event.shutdownReason? : Event → Option String
  | .shutdownRequested reason _ => some reason
  | _ => none

namespace Occurrence

/-- The reason of a request for a shutdown that gets its turn. -/
def requestReason? : Occurrence → Option String
  | .dispatched e => e.shutdownReason?
  | _ => none

/-- The reason of a shutdown that begins. -/
def begunReason? : Occurrence → Option String
  | .shutdownBegan reason => some reason
  | _ => none

/-- Whether an event of the given name gets its turn that an action made up. -/
def dispatchesCustom (name : String) : Occurrence → Bool
  | .dispatched (.custom kind _) => kind = name
  | _ => false

theorem begunReason?_of_isOfLoop {o : Occurrence} (h : o.isOfLoop = false) :
    o.begunReason? = none := by
  cases o <;> first | rfl | cases h

theorem requestReason?_of_isOfLoop {o : Occurrence} (h : o.isOfLoop = false) :
    o.requestReason? = none := by
  cases o <;> first | rfl | cases h

end Occurrence

namespace Launch

/-- The reasons of the requests for a shutdown that have got their turn, latest first. -/
def requestReasons (l : Launch) : List String :=
  l.history.filterMap (·.requestReason?)

/-- The reasons of the shutdowns that have begun, latest first. -/
def begunReasons (l : Launch) : List String :=
  l.history.filterMap (·.begunReason?)

/-- The reason of the shutdown that has begun, else of the one whose request has its turn. -/
def shutdownReason? (l : Launch) : Option String :=
  (l.shutdown.map (·.reason)).or (l.context.current.bind (·.shutdownReason?))

/-- How the request for a shutdown, its turn and its record fit together. -/
structure ShutdownInOrder (l : Launch) : Prop where
  /-- One shutdown begins, and it is on record. -/
  begun : l.begunReasons = (l.shutdown.map (·.reason)).toList
  /-- One request gets a turn, and its reason is the one on record. -/
  requested : l.requestReasons = l.shutdownReason?.toList
  /-- No request has its turn once the shutdown has begun. -/
  turn : ∀ reason due, l.context.current = some (.shutdownRequested reason due) → l.shutdown = none
  /-- Who has asked for a shutdown is answered by it, or by an event that is on its way. -/
  asked : l.context.shuttingDown = true → l.shutdown.isSome = true ∨
    ∃ e ∈ l.context.current.toList ++ l.context.pending, e.isShutdownRequest = true

/-- What a shutdown that has begun has done: every living process was asked to end, and only
timers are left that outlive the shutdown. -/
structure Settled (l : Launch) : Prop where
  terminated : l.AllSent .terminate
  timers : ∀ id t, l.timers.get? id = some t → t.cancelOnShutdown = false

variable {p : Deed → Prop} {l m : Launch} {os : List Occurrence}

theorem Settled.winds (hl : l.Settled) (h : l.Winds m) : m.Settled where
  terminated := hl.terminated.winds h
  timers := fun id t ht => hl.timers id t (h.timers id t ht)

/-! ## The shutdown begins -/

/-- **The shutdown that begins asks every living process to end and cancels the timers that do
not outlive it.** -/
theorem settled_beginShutdown (hl : l.Sound p) {reason : String}
    (h : l.beginShutdown reason = .ok m) : m.Settled := by
  obtain ⟨deadline, -, rfl⟩ := beginShutdown_eq h
  have hcancel : Effects p (l.withShutdown reason deadline) _ :=
    cancelTimers_effects "cancelled by shutdown" l.cancelledByShutdown _
  have hsound := (hl.withShutdown reason deadline).effects hcancel
  have hflag := hcancel.grown.flag rfl
  refine ⟨allSent_signalLive hsound hflag .terminate, ?_⟩
  intro id t ht
  have hsignal := winds_of_effects hsound hflag (signalLive_effects .terminate _)
  obtain ⟨hnot, hget⟩ := timers_cancelTimers (hsignal.timers id t ht)
  cases hc : t.cancelOnShutdown with
  | false => rfl
  | true =>
      -- It would have been among those that were taken away.
      refine absurd (Table.mem_keys_iff.mpr ⟨t, ?_⟩) hnot
      exact Table.get?_filter_eq_some_iff.mpr ⟨hget, hc⟩

/-! ## What leaves the shutdown alone -/

theorem filterMap_eq_nil {f : Occurrence → Option String} (h : ∀ o ∈ os, f o = none) :
    os.filterMap f = [] :=
  List.filterMap_eq_nil_iff.mpr h

theorem begunReasons_append (hos : m.history = os ++ l.history) :
    m.begunReasons = os.filterMap (·.begunReason?) ++ l.begunReasons := by
  unfold begunReasons
  rw [hos, List.filterMap_append]

theorem requestReasons_append (hos : m.history = os ++ l.history) :
    m.requestReasons = os.filterMap (·.requestReason?) ++ l.requestReasons := by
  unfold requestReasons
  rw [hos, List.filterMap_append]

/-- What leaves the record, the turn and the flag alone, and tells of no shutdown, keeps
everything in order; events may be queued meanwhile. -/
theorem ShutdownInOrder.keep (hl : l.ShutdownInOrder) (hs : m.shutdown = l.shutdown)
    (hc : m.context.current = l.context.current) (hos : m.history = os ++ l.history)
    (hbegun : ∀ o ∈ os, o.begunReason? = none) (hrequest : ∀ o ∈ os, o.requestReason? = none)
    (hf : m.context.shuttingDown = true → l.context.shuttingDown = true ∨
      ∃ e ∈ m.context.pending, e.isShutdownRequest = true)
    (hp : ∀ e ∈ l.context.pending, e ∈ m.context.pending) : m.ShutdownInOrder where
  begun := by
    rw [begunReasons_append hos, filterMap_eq_nil hbegun, hs]
    exact hl.begun
  requested := by
    unfold shutdownReason?
    rw [requestReasons_append hos, filterMap_eq_nil hrequest, hs, hc]
    exact hl.requested
  turn := by
    rw [hs, hc]
    exact hl.turn
  asked := by
    intro hflag
    rw [hs, hc]
    rcases hf hflag with hold | ⟨e, he, hreq⟩
    · rcases hl.asked hold with hbegun | ⟨e, he, hreq⟩
      · exact .inl hbegun
      · refine .inr ⟨e, ?_, hreq⟩
        rcases List.mem_append.mp he with he | he
        · exact List.mem_append_left _ he
        · exact List.mem_append_right _ (hp e he)
    · exact .inr ⟨e, List.mem_append_right _ he, hreq⟩

theorem ShutdownInOrder.effect (hl : l.ShutdownInOrder) (h : Effect p l m) :
    m.ShutdownInOrder := by
  obtain ⟨os, hos, hq⟩ := h.grown.history
  have hpending : ∀ e ∈ l.context.pending, e ∈ m.context.pending := by
    intro e he
    rcases h.pending with hp | ⟨e', hp, -⟩
    · rw [hp]
      exact he
    · rw [hp]
      exact List.mem_append_left _ he
  refine hl.keep h.sameLoop.shutdown h.sameLoop.current hos
    (fun o ho => Occurrence.begunReason?_of_isOfLoop (hq o ho))
    (fun o ho => Occurrence.requestReason?_of_isOfLoop (hq o ho)) (fun hflag => ?_) hpending
  rcases h.flag with hsame | ⟨-, reason, due, hp⟩
  · rw [hsame] at hflag
    exact .inl hflag
  · refine .inr ⟨.shutdownRequested reason due, ?_, rfl⟩
    rw [hp]
    exact List.mem_append_right _ (List.mem_singleton.mpr rfl)

theorem ShutdownInOrder.effects (hl : l.ShutdownInOrder) (h : Effects p l m) :
    m.ShutdownInOrder := by
  induction h with
  | refl => exact hl
  | tail _ h ih => exact ih.effect h

/-- Only the context's other parts, the tables and the history may change, and nothing tells of
the shutdown. -/
theorem ShutdownInOrder.happen (hl : l.ShutdownInOrder) (os : List Occurrence)
    (hs : m.shutdown = l.shutdown)
    (hc : m.context.current = l.context.current)
    (hf : m.context.shuttingDown = l.context.shuttingDown)
    (hp : m.context.pending = l.context.pending) (hos : m.history = os ++ l.history)
    (hq : ∀ o ∈ os, o.begunReason? = none ∧ o.requestReason? = none) : m.ShutdownInOrder := by
  refine hl.keep hs hc hos (fun o ho => (hq o ho).1) (fun o ho => (hq o ho).2) ?_ ?_
  · rw [hf]
    exact Or.inl
  · rw [hp]
    exact fun _ he => he

/-! ## Moves -/

theorem ShutdownInOrder.releaseProcess (hl : l.ShutdownInOrder) (id : ProcessId) :
    (l.releaseProcess id).ShutdownInOrder := by
  rcases l.releaseProcess_cases id with ⟨-, h⟩ | ⟨g, -, -, h⟩
  · rw [h]
    exact hl.happen [] rfl rfl rfl rfl rfl (by simp)
  · rw [h]
    refine hl.happen [.released g] rfl rfl rfl rfl rfl ?_
    simp [Occurrence.begunReason?, Occurrence.requestReason?]

/-- The turn of an event ends that asks for no shutdown. -/
theorem ShutdownInOrder.closeTurn (hl : l.ShutdownInOrder) {e : Event}
    (hc : l.context.current = some e) (he : e.isShutdownRequest = false) :
    (l.closeTurn e).ShutdownInOrder where
  begun := hl.begun
  requested := by
    have hnone : e.shutdownReason? = none := by
      cases e <;> first | rfl | cases he
    have hsame : (l.closeTurn e).shutdownReason? = l.shutdownReason? := by
      unfold Launch.shutdownReason?
      rw [hc, Option.bind_some, hnone]
      rfl
    rw [hsame]
    exact hl.requested
  turn := by
    intro reason due hcurrent
    cases hcurrent
  asked := by
    intro hflag
    rcases hl.asked hflag with hbegun | ⟨e', hmem, hreq⟩
    · exact .inl hbegun
    · refine .inr ⟨e', ?_, hreq⟩
      rw [hc] at hmem
      rcases List.mem_cons.mp hmem with rfl | hmem
      · rw [he] at hreq
        cases hreq
      · exact hmem

/-- An event gets its turn, and it asks for a shutdown only when none has begun. -/
theorem ShutdownInOrder.take (hl : l.ShutdownInOrder) {e : Event} {rest : List Event}
    (hp : l.context.pending = e :: rest) (hc : l.context.current = none)
    (hs : e.isShutdownRequest = true → l.shutdown = none) :
    (((l.withoutNext rest).happen (.dispatched e)).openTurn e).2.ShutdownInOrder where
  begun := hl.begun
  requested := by
    have hbefore := hl.requested
    unfold Launch.shutdownReason? at hbefore
    rw [hc, Option.bind_none, Option.or_none] at hbefore
    show (Occurrence.dispatched e :: l.history).filterMap (·.requestReason?) =
      ((l.shutdown.map (·.reason)).or e.shutdownReason?).toList
    -- A request gets its turn only when no shutdown has begun and no other had its turn.
    cases hreason : e.shutdownReason? with
    | none =>
        have hnone : (Occurrence.dispatched e).requestReason? = none := hreason
        rw [List.filterMap_cons_none hnone, Option.or_none]
        exact hbefore
    | some reason =>
        have hreq : e.isShutdownRequest = true := by
          cases e <;> first | rfl | cases hreason
        have hsome : (Occurrence.dispatched e).requestReason? = some reason := hreason
        rw [hs hreq] at hbefore ⊢
        rw [List.filterMap_cons_some hsome]
        exact congrArg (reason :: ·) hbefore
  turn := by
    rintro reason due ⟨⟩
    exact hs rfl
  asked := by
    intro hflag
    rcases hl.asked hflag with hbegun | ⟨e', hmem, hreq⟩
    · exact .inl hbegun
    · refine .inr ⟨e', ?_, hreq⟩
      rw [hc, hp] at hmem
      exact hmem

/-- The shutdown begins with the end of the turn of its request, and its record stays. -/
theorem ShutdownInOrder.shutdown (hl : l.ShutdownInOrder) {reason : String} {due : Bool}
    (hc : l.context.current = some (.shutdownRequested reason due)) (deadline : Duration) :
    ((l.closeTurn (.shutdownRequested reason due)).withShutdown reason deadline).ShutdownInOrder
    where
  begun := by
    have hbefore := hl.begun
    rw [hl.turn reason due hc] at hbefore
    exact congrArg (reason :: ·) hbefore
  requested := by
    have hbefore := hl.requested
    unfold Launch.shutdownReason? at hbefore
    rw [hl.turn reason due hc, hc] at hbefore
    exact hbefore
  turn := by
    intro _ _ hcurrent
    cases hcurrent
  asked := fun _ => .inl rfl

/-- **Every move keeps the shutdown in order.** -/
theorem ShutdownInOrder.move (hl : l.ShutdownInOrder) (h : Move p l m) : m.ShutdownInOrder := by
  have hone : ∀ {n : Launch} (o : Occurrence), n.shutdown = l.shutdown →
      n.context.current = l.context.current →
      n.context.shuttingDown = l.context.shuttingDown →
      n.context.pending = l.context.pending → n.history = o :: l.history →
      o.begunReason? = none ∧ o.requestReason? = none → n.ShutdownInOrder := by
    intro n o hs hc hf hp hos hq
    have hhistory : n.history = [o] ++ l.history := hos
    apply hl.happen [o] hs hc hf hp hhistory
    intro o' ho'
    rw [List.mem_singleton.mp ho']
    exact hq
  cases h with
  | effect h => exact hl.effect h
  | take e rest hp hc hs => exact hl.take hp hc hs
  | ignore e rest hp hc he hs =>
      refine ⟨hl.begun, hl.requested, hl.turn, fun _ => .inl hs⟩
  | answer e h writer as hc hf hm hy has => exact hone _ rfl rfl rfl rfl rfl ⟨rfl, rfl⟩
  | decline e h writer hc hf hm hy => exact hl.happen [] rfl rfl rfl rfl rfl (by simp)
  | resume cause as scope hcause has => exact hone _ rfl rfl rfl rfl rfl ⟨rfl, rfl⟩
  | close e hc hs he => exact hl.closeTurn hc hs
  | release q status r hc hr => exact (hl.closeTurn hc rfl).releaseProcess q.id
  | shutdown reason due hc hb =>
      obtain ⟨deadline, heffects⟩ := beginShutdown_effects (p := p) hb
      exact (hl.shutdown hc deadline).effects heffects
  | arrive a hc hp ha => exact hone (.received a.message) rfl rfl rfl rfl rfl ⟨rfl, rfl⟩
  | notice a n hc hp ha =>
      have harrived : (l.arrive a).ShutdownInOrder :=
        hone (.received a.message) rfl rfl rfl rfl rfl ⟨rfl, rfl⟩
      obtain ⟨s, -, heffects⟩ := (l.arrive a).onNotice_effects n
      have htaken : ({ l.arrive a with supervisor := s } : Launch).ShutdownInOrder :=
        harrived.happen [] rfl rfl rfl rfl rfl (by simp)
      exact htaken.effects heffects
  | elapse id t hc hp ht =>
      have htaken : ({ l with timers := l.timers.erase id }.happen (.fired id)).ShutdownInOrder :=
        hone (.fired id) rfl rfl rfl rfl rfl ⟨rfl, rfl⟩
      exact htaken.effects (elapse_effects l id t)
  | kill hc hp hs =>
      rcases killRemaining_effects (p := p) l with h | h
      · rw [h]
        exact hl
      · have hforced : ({ l with forced := true } : Launch).ShutdownInOrder :=
          hl.happen [] rfl rfl rfl rfl rfl (by simp)
        exact hforced.effects h

/-- The record of the shutdown is made at the end of the turn of a request, and the shutdown
has done its work then. -/
theorem shutdown_of_move (hl : l.Sound p) (h : Move p l m) : m.shutdown = l.shutdown ∨
    (∃ reason due, l.context.current = some (.shutdownRequested reason due)) ∧ m.Settled := by
  cases h with
  | effect h => exact .inl h.sameLoop.shutdown
  | release q status r hc hr =>
      left
      rcases (l.closeTurn (.processExited q status)).releaseProcess_cases q.id with
          ⟨-, h⟩ | ⟨g, -, -, h⟩
      · rw [h]
        rfl
      · rw [h]
        rfl
  | shutdown reason due hc hb =>
      exact .inr ⟨⟨reason, due, hc⟩, settled_beginShutdown (hl.closeTurn _) hb⟩
  | notice a n hc hp ha =>
      obtain ⟨s, -, heffects⟩ := (l.arrive a).onNotice_effects n
      exact .inl heffects.sameLoop.shutdown
  | elapse id t hc hp ht => exact .inl (elapse_effects l id t).sameLoop.shutdown
  | kill hc hp hs =>
      left
      rcases killRemaining_effects (p := p) l with h | h
      · rw [h]
      · exact h.sameLoop.shutdown
  | _ => exact .inl rfl

/-! ## Whole runs -/

section Runs

variable {config : Config} {host : Host} {args : LaunchArguments}

/-- When no event is on its way, a shutdown that was asked for has begun. -/
theorem ShutdownInOrder.begun_of_quiet (hl : l.ShutdownInOrder) (hc : l.context.current = none)
    (hp : l.context.pending = []) (hf : l.context.shuttingDown = true) :
    l.shutdown.isSome = true := by
  rcases hl.asked hf with hbegun | ⟨e, he, -⟩
  · exact hbegun
  · rw [hc, hp] at he
    cases he

theorem shutdownInOrder_start (config : Config) (host : Host) (args : LaunchArguments) :
    (start config host args).ShutdownInOrder := by
  have hquiet := start_context config host args
  refine ⟨rfl, ?_, fun _ _ _ => rfl, ?_⟩
  · unfold shutdownReason?
    rw [hquiet.current]
    rfl
  · intro hflag
    rw [hquiet.flag] at hflag
    cases hflag

/-- **The shutdown is in order at every moment of a launch.** -/
theorem shutdownInOrder_of_moves (h : Moves p (start config host args) l) :
    l.ShutdownInOrder := by
  induction h with
  | refl => exact shutdownInOrder_start config host args
  | tail _ hlast ih => exact ih.move hlast

/-- **Once the shutdown has begun, it has done its work for good.** -/
theorem settled_of_moves (h : Moves p (start config host args) l)
    (hs : l.shutdown.isSome = true) : l.Settled := by
  induction h with
  | refl => cases hs
  | tail hbefore hlast ih =>
      have hsound := (sound_start config host args).moves hbefore
      rcases shutdown_of_move hsound hlast with hsame | ⟨-, hsettled⟩
      · rw [hsame] at hs
        exact (ih hs).winds (hlast.winds hsound (hsound.flag hs))
      -- The record is new, so the shutdown has begun with this move.
      · exact hsettled

/-- The record of a shutdown that has begun stays as it is. -/
theorem shutdown_of_moves (hl : Moves p (start config host args) l) (h : Moves p l m)
    (hs : l.shutdown.isSome = true) : m.shutdown = l.shutdown := by
  induction h with
  | refl => rfl
  | @tail n m hbefore hlast ih =>
      have hmoves := hl.trans hbefore
      rcases shutdown_of_move ((sound_start config host args).moves hmoves) hlast with
          hsame | ⟨⟨reason, due, hc⟩, -⟩
      · exact hsame.trans ih
      · -- A request would not have got its turn.
        have hnone := (shutdownInOrder_of_moves hmoves).turn reason due hc
        rw [← ih, hnone] at hs
        cases hs

end Runs

/-! ## The report -/

/-- An occurrence stands under that name in the timeline as a request that gets its turn, or as
an event that an action made up. -/
theorem count_timelineEntry (o : Occurrence) :
    o.timelineEntry?.toList.count (.event "shutdown_requested" none) =
      o.requestReason?.toList.length +
        if o.dispatchesCustom "shutdown_requested" then 1 else 0 := by
  cases o with
  | dispatched e =>
      cases e with
      | custom kind payload =>
          by_cases hkind : kind = "shutdown_requested"
          · simp [Occurrence.timelineEntry?, Occurrence.requestReason?,
              Occurrence.dispatchesCustom, Event.name, Event.process?, Event.shutdownReason?, hkind]
          · simp [Occurrence.timelineEntry?, Occurrence.requestReason?,
              Occurrence.dispatchesCustom, Event.name, Event.process?, Event.shutdownReason?, hkind]
      | _ =>
          simp [Occurrence.timelineEntry?, Occurrence.requestReason?,
            Occurrence.dispatchesCustom, Event.name, Event.process?, Event.shutdownReason?]
  | line level text =>
      simp [Occurrence.timelineEntry?, Occurrence.requestReason?, Occurrence.dispatchesCustom]
  | _ => rfl

/-- The timeline shows the requests for a shutdown that had their turn, and what else goes by
that name. -/
theorem count_timeline (l : Launch) :
    l.timeline.count (.event "shutdown_requested" none) =
      l.requestReasons.length + l.history.countP (·.dispatchesCustom "shutdown_requested") := by
  have hall : ∀ os : List Occurrence,
      (os.filterMap Occurrence.timelineEntry?).count (.event "shutdown_requested" none) =
        (os.filterMap (·.requestReason?)).length +
          os.countP (·.dispatchesCustom "shutdown_requested") := by
    intro os
    induction os with
    | nil => rfl
    | cons o rest ih =>
        have hone := count_timelineEntry o
        have hentry : (o :: rest).filterMap Occurrence.timelineEntry? =
            o.timelineEntry?.toList ++ rest.filterMap Occurrence.timelineEntry? := by
          cases h : o.timelineEntry? <;> simp [h]
        have hreason : (o :: rest).filterMap (·.requestReason?) =
            o.requestReason?.toList ++ rest.filterMap (·.requestReason?) := by
          cases h : o.requestReason? <;> simp [h]
        rw [hentry, hreason, List.count_append, List.length_append, List.countP_cons, ih]
        omega
  unfold timeline occurrences
  rw [List.filterMap_reverse, List.count_reverse]
  exact hall l.history

theorem shutdownReason_finish (l : Launch) :
    l.finish.shutdownReason = l.shutdown.map (·.reason) := by
  have hsame : Effects (fun _ => True) l (l.cancelTimers "launch finished" l.timers.keys) :=
    cancelTimers_effects _ _ _
  show (l.cancelTimers "launch finished" l.timers.keys).shutdown.map (·.reason) = _
  rw [hsame.sameLoop.shutdown]

theorem mem_requestReasons {reason : String} :
    reason ∈ l.requestReasons ↔
      ∃ due, .dispatched (.shutdownRequested reason due) ∈ l.history := by
  unfold requestReasons
  rw [List.mem_filterMap]
  constructor
  · rintro ⟨o, ho, hreason⟩
    cases o with
    | dispatched e =>
        cases e with
        | shutdownRequested reason' due =>
            cases hreason
            exact ⟨due, ho⟩
        | _ => cases hreason
    | _ => cases hreason
  · rintro ⟨due, ho⟩
    exact ⟨_, ho, rfl⟩

end Launch

variable {config : Config} {host : Host} {args : LaunchArguments} {description : List Action}
  {s : Standing}

/-- **A launch shuts down once and for all.** At every moment at most one shutdown has begun and
at most one request for one has had its turn, whose reason is the one reported; and if a shutdown
was asked for it has begun, or a request is queued or has its turn. From the moment it has begun
every living process has been asked to end, only timers are pending that outlive it, and no
process is started and no timer scheduled. When no event waits, a shutdown was asked for exactly
if it has begun.

The timeline tells events apart by their names only, and an action may emit an event of any name
that it makes up, also of this one. Such an event asks for nothing and begins no shutdown. That is
why it is counted here: the entries under the name are those of requests, at most one, and those
of made-up events. -/
theorem shutdown_once (h : Reachable config host args description s) :
    Moves (fun _ => True) (.start config host args) s.launch ∧
    (s.launch.context.pending = [] →
      (s.launch.context.shuttingDown = true ↔ s.launch.shutdown.isSome = true)) ∧
    (∀ reason, s.launch.finish.shutdownReason = some reason ↔
      ∃ due, .dispatched (.shutdownRequested reason due) ∈ s.launch.history) ∧
    (s.launch.requestReasons.length ≤ 1 ∧
      s.launch.timeline.count (.event "shutdown_requested" none) =
        s.launch.requestReasons.length +
          s.launch.history.countP (·.dispatchesCustom "shutdown_requested")) ∧
    ∀ l m, Moves (fun _ => True) (.start config host args) l → Moves (fun _ => True) l m →
      l.begunReasons.length ≤ 1 ∧ l.requestReasons.length ≤ 1 ∧
      (l.context.shuttingDown = true → l.shutdown.isSome = true ∨
        ∃ e ∈ l.context.current.toList ++ l.context.pending, e.isShutdownRequest = true) ∧
      (l.shutdown.isSome = true → m.shutdown = l.shutdown ∧
        (∀ id handle, m.supervisor.find? id = some handle → handle.isAlive = true →
          handle.terminateSent = true) ∧
        (∀ id t, m.timers.get? id = some t → t.cancelOnShutdown = false) ∧
        ∃ os, m.history = os ++ l.history ∧ ∀ o ∈ os, o.beginsWork = false) := by
  obtain ⟨hmoves, hc⟩ := h.moves_any
  have horder := Launch.shutdownInOrder_of_moves hmoves
  have htoList : ∀ o : Option String, o.toList.length ≤ 1 := by
    intro o
    cases o with
    | none => exact Nat.zero_le 1
    | some _ => exact Nat.le_refl 1
  have hrequests : s.launch.requestReasons = (s.launch.shutdown.map (·.reason)).toList := by
    have hrequested := horder.requested
    unfold Launch.shutdownReason? at hrequested
    rw [hc, Option.bind_none, Option.or_none] at hrequested
    exact hrequested
  refine ⟨hmoves, fun hp => ⟨fun hflag => ?_, ?_⟩, fun reason => ?_,
    ⟨?_, Launch.count_timeline s.launch⟩, fun l m hl hm =>
    ⟨?_, ?_, ?_, fun hs => ⟨?_, ?_, ?_, ?_⟩⟩⟩
  · rcases horder.asked hflag with hbegun | ⟨e, he, -⟩
    · exact hbegun
    · rw [hc, hp] at he
      cases he
  · exact ((Launch.sound_start config host args).moves hmoves).flag
  · rw [Launch.shutdownReason_finish, ← Launch.mem_requestReasons, hrequests, Option.mem_toList]
  · rw [hrequests]
    exact htoList _
  · rw [(Launch.shutdownInOrder_of_moves hl).begun]
    exact htoList _
  · rw [(Launch.shutdownInOrder_of_moves hl).requested]
    exact htoList _
  · exact (Launch.shutdownInOrder_of_moves hl).asked
  · exact Launch.shutdown_of_moves hl hm hs
  · have hlater : m.shutdown.isSome = true := by
      rw [Launch.shutdown_of_moves hl hm hs]
      exact hs
    exact (Launch.settled_of_moves (hl.trans hm) hlater).terminated
  · have hlater : m.shutdown.isSome = true := by
      rw [Launch.shutdown_of_moves hl hm hs]
      exact hs
    exact (Launch.settled_of_moves (hl.trans hm) hlater).timers
  · have hsound := (Launch.sound_start config host args).moves hl
    exact (hm.winds hsound (hsound.flag hs)).history

/-- An action that asks for a shutdown. -/
def Action.halt (bits : BitVec 128) (reason : String) : Action :=
  .mk ⟨bits⟩ none (.shutdown [.text reason])

/-- Whether a shutdown was asked for, no event waits, and the first process is alive. -/
def Standing.isHalting (s : Standing) : Bool :=
  s.launch.context.shuttingDown && s.launch.context.pending.isEmpty &&
    s.launch.supervisor.live == [⟨1⟩]

/-- A process that is running when the shutdown begins is asked to end. -/
theorem first_terminated_by_halt :
    ∃ s, Reachable .standard .willing [] [.work 1 [], .halt 2 "done"] s ∧
      s.launch.shutdown.isSome = true ∧
      ∃ handle, s.launch.supervisor.find? ⟨1⟩ = some handle ∧ handle.isAlive = true ∧
        handle.terminateSent = true := by
  have hrun : Reachable.comesTo Standing.isHalting ((Launch.begin .standard .willing []
      [.work 1 [], .halt 2 "done"]).run 9 []) = true := by decide +kernel
  obtain ⟨s, hs, hcheck⟩ := Reachable.exists_of_comesTo 9 [] hrun
  simp only [Standing.isHalting, Bool.and_eq_true, List.isEmpty_iff, beq_iff_eq] at hcheck
  obtain ⟨⟨hflag, hp⟩, hlive⟩ := hcheck
  obtain ⟨handle, hh, ha⟩ :=
    hs.keyed.mem_live.mp (by rw [hlive]; exact List.mem_singleton.mpr rfl)
  obtain ⟨hmoves, hquiet, -, -, hever⟩ := shutdown_once hs
  have hbegun := (hquiet hp).mp hflag
  obtain ⟨-, -, -, hdone⟩ := hever _ _ hmoves .refl
  obtain ⟨-, hterminated, -⟩ := hdone hbegun
  exact ⟨s, hs, hbegun, handle, hh, ha, hterminated ⟨1⟩ handle hh ha⟩

end Conductor
