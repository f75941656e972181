import Conductor.Proofs.Launch.Finish
import Conductor.Proofs.Launch.OnExit
import Conductor.Proofs.Launch.Shutdown

/-!
# The queue of events

Events are queued from many places: by actions at any depth, by processes that start, write and
end, by timers and by requests for a shutdown. They are taken one at a time, from the other end.
`QueueInOrder` compares the two sequences, and what is taken with what the timeline shows; every
move keeps it, so nothing is lost, doubled or put in another place. The second part is about the
bodies of handlers: whatever one puts on the history stands in the turn of its event.
-/

namespace Conductor

/-- The place of an event in the timeline. -/
def Event.timelineEntry (e : Event) : TimelineEntry :=
  .event e.name (e.process?.map (·.name))

/-- Whether the entry is that of an event. -/
def TimelineEntry.isEvent : TimelineEntry → Bool
  | .event .. => true
  | .line _ => false

namespace Occurrence

/-- The event that is queued. -/
def emitted? : Occurrence → Option Event
  | .emitted e => some e
  | _ => none

/-- The event that is taken from the queue. -/
def taken? : Occurrence → Option Event
  | .dispatched e => some e
  | .ignored e => some e
  | _ => none

end Occurrence

/-- The events that were taken from the queue, oldest first, each with whether a shutdown had
begun by then. -/
def takenIn : List Occurrence → List (Event × Bool)
  | [] => []
  | o :: older =>
      match o.taken? with
      | none => takenIn older
      | some e => takenIn older ++ [(e, older.any (·.begunReason?.isSome))]

/-- Whether an event that was taken is passed on to handlers: a request for a shutdown that has
begun is not. -/
def isHeard (x : Event × Bool) : Bool :=
  !(x.1.isShutdownRequest && x.2)

/-- What the timeline shows of a part of the history, oldest first. -/
def shown (os : List Occurrence) : List TimelineEntry :=
  os.reverse.filterMap Occurrence.timelineEntry?

namespace Launch

/-- The events that were queued, oldest first. -/
def emissions (l : Launch) : List Event :=
  l.occurrences.filterMap (·.emitted?)

/-- The events that were taken from the queue, oldest first, each with whether a shutdown had
begun by then. -/
def takings (l : Launch) : List (Event × Bool) :=
  takenIn l.history

/-- What was queued is what was taken, followed by what waits; and the timeline shows what was
taken, without the requests for a shutdown that had begun. -/
structure QueueInOrder (l : Launch) : Prop where
  taken : l.emissions = l.takings.map (·.1) ++ l.context.pending
  timeline : l.timeline.filter (·.isEvent) = (l.takings.filter isHeard).map (·.1.timelineEntry)

/-- Between the two launches events were queued, and none was taken. -/
def Queues (l m : Launch) : Prop :=
  ∃ os, m.history = os ++ l.history ∧ (∀ o ∈ os, o.taken? = none) ∧
    m.context.pending = l.context.pending ++ os.reverse.filterMap (·.emitted?)

variable {p : Deed → Prop} {l m n : Launch}

theorem Queues.refl (l : Launch) : l.Queues l :=
  ⟨[], rfl, by simp, by simp⟩

theorem Queues.trans (h : l.Queues m) (h' : m.Queues n) : l.Queues n := by
  obtain ⟨os, hos, hq, hp⟩ := h
  obtain ⟨os', hos', hq', hp'⟩ := h'
  refine ⟨os' ++ os, ?_, ?_, ?_⟩
  · rw [hos', hos, List.append_assoc]
  · intro o ho
    rcases List.mem_append.mp ho with ho | ho
    · exact hq' o ho
    · exact hq o ho
  · rw [hp', hp, List.reverse_append, List.filterMap_append, List.append_assoc]

/-- The queue stays as it is, and nothing is said of it. -/
theorem queues_of_same (os : List Occurrence) (hp : m.context.pending = l.context.pending)
    (hos : m.history = os ++ l.history)
    (hq : ∀ o ∈ os, o.taken? = none ∧ o.emitted? = none) : l.Queues m := by
  have hnone : os.reverse.filterMap (·.emitted?) = [] :=
    List.filterMap_eq_nil_iff.mpr fun o ho => (hq o (List.mem_reverse.mp ho)).2
  exact ⟨os, hos, fun o ho => (hq o ho).1, by rw [hp, hnone, List.append_nil]⟩

/-- One occurrence that says nothing of the queue. -/
theorem queues_of_happen {o : Occurrence} (hp : m.context.pending = l.context.pending)
    (hos : m.history = o :: l.history) (ht : o.taken? = none) (he : o.emitted? = none) :
    l.Queues m := by
  have hone : m.history = [o] ++ l.history := hos
  apply queues_of_same [o] hp hone
  intro o' ho'
  rw [List.mem_singleton.mp ho']
  exact ⟨ht, he⟩

theorem queues_emit (l : Launch) (e : Event) : l.Queues (l.emit e) :=
  ⟨[.emitted e], rfl, by simp [Occurrence.taken?], rfl⟩

/-! ## What queues events -/

/-- **An effect puts on the history what it puts in the queue.** -/
theorem queues_of_effect (h : Effect p l m) : l.Queues m := by
  cases h with
  | emit e he => exact queues_emit l e
  | request reason due hl =>
      exact ⟨[.emitted (.shutdownRequested reason due)], rfl, by simp [Occurrence.taken?], rfl⟩
  | failFast e hpolicy hfatal hl =>
      refine ⟨[.emitted (.shutdownRequested ("fail-fast: " ++ e.message) false),
        .failed e.kind e.message], rfl, by simp [Occurrence.taken?], rfl⟩
  | spawn spec seq a t onExit h hid hh hl hd ha _ =>
      obtain ⟨r, -, -, -, -, heq⟩ := (l.withStarted h spec).attend_eq seq a onExit spec.name h
      rw [heq]
      exact ⟨[_, .emitted (.processStarted r.info), .started h.id spec], rfl,
        by simp [Occurrence.taken?], rfl⟩
  | enter a => exact queues_of_happen rfl rfl rfl rfl
  | leave seq outcome => exact queues_of_happen rfl rfl rfl rfl
  | line level text => exact queues_of_happen rfl rfl rfl rfl
  | interrupt => exact queues_of_happen rfl rfl rfl rfl
  | unregister name => exact queues_of_happen rfl rfl rfl rfl
  | fail e hl => exact queues_of_happen rfl rfl rfl rfl
  | failLate e hpolicy hfatal hl => exact queues_of_happen rfl rfl rfl rfl
  | cancelTimer why id t ht => exact queues_of_happen rfl rfl rfl rfl
  | schedule delay as scope record cancel hl has => exact queues_of_happen rfl rfl rfl rfl
  | signalled id signal => exact queues_of_happen rfl rfl rfl rfl
  | _ => exact queues_of_same [] rfl rfl (by simp)

theorem queues_of_effects (h : Effects p l m) : l.Queues m := by
  induction h with
  | refl => exact .refl l
  | tail _ hlast ih => exact ih.trans (queues_of_effect hlast)

theorem queues_releaseProcess (l : Launch) (id : ProcessId) : l.Queues (l.releaseProcess id) := by
  rcases l.releaseProcess_cases id with ⟨-, h⟩ | ⟨g, -, -, h⟩
  · rw [h]
    exact queues_of_same [] rfl rfl (by simp)
  · rw [h]
    exact queues_of_happen rfl rfl rfl rfl

theorem queues_closeTurn (l : Launch) (e : Event) : l.Queues (l.closeTurn e) :=
  queues_of_happen rfl rfl rfl rfl

/-- **A move takes the oldest event, or it queues events.** -/
theorem queues_of_move (h : Move p l m) : l.Queues m ∨
    ∃ e rest o, l.context.pending = e :: rest ∧ m.context.pending = rest ∧
      m.history = o :: l.history ∧
      ((o = .dispatched e ∧ (e.isShutdownRequest = true → l.shutdown = none)) ∨
        (o = .ignored e ∧ e.isShutdownRequest = true ∧ l.shutdown.isSome = true)) := by
  cases h with
  | effect h => exact .inl (queues_of_effect h)
  | take e rest hp hc hs => exact .inr ⟨e, rest, _, hp, rfl, rfl, .inl ⟨rfl, hs⟩⟩
  | ignore e rest hp hc he hs => exact .inr ⟨e, rest, _, hp, rfl, rfl, .inr ⟨rfl, he, hs⟩⟩
  | answer e h writer as hc hf hm hy has => exact .inl (queues_of_happen rfl rfl rfl rfl)
  | decline e h writer hc hf hm hy => exact .inl (queues_of_same [] rfl rfl (by simp))
  | resume cause as scope hcause has => exact .inl (queues_of_happen rfl rfl rfl rfl)
  | close e hc hs he => exact .inl (queues_closeTurn l e)
  | release q status r hc hr =>
      exact .inl ((queues_closeTurn l _).trans (queues_releaseProcess _ q.id))
  | shutdown reason due hc hb =>
      obtain ⟨deadline, heffects⟩ := beginShutdown_effects (p := p) hb
      have hbegun : (l.closeTurn (.shutdownRequested reason due)).Queues
          ((l.closeTurn (.shutdownRequested reason due)).withShutdown reason deadline) :=
        queues_of_happen rfl rfl rfl rfl
      exact .inl (((queues_closeTurn l _).trans hbegun).trans (queues_of_effects heffects))
  | arrive a hc hp ha => exact .inl (queues_of_happen rfl rfl rfl rfl)
  | notice a n hc hp ha =>
      have harrived : l.Queues (l.arrive a) := queues_of_happen rfl rfl rfl rfl
      obtain ⟨s, -, heffects⟩ := (l.arrive a).onNotice_effects n
      have htaken : (l.arrive a).Queues { l.arrive a with supervisor := s } :=
        queues_of_same [] rfl rfl (by simp)
      exact .inl ((harrived.trans htaken).trans (queues_of_effects heffects))
  | elapse id t hc hp ht =>
      have htaken : l.Queues ({ l with timers := l.timers.erase id }.happen (.fired id)) :=
        queues_of_happen rfl rfl rfl rfl
      exact .inl (htaken.trans (queues_of_effects (elapse_effects l id t)))
  | kill hc hp hs =>
      rcases killRemaining_effects (p := p) l with h | h
      · rw [h]
        exact .inl (.refl l)
      · have hforced : l.Queues { l with forced := true } := queues_of_same [] rfl rfl (by simp)
        exact .inl (hforced.trans (queues_of_effects h))

/-! ## The two sequences -/

theorem takenIn_append_of_none {os : List Occurrence} (h : ∀ o ∈ os, o.taken? = none)
    (older : List Occurrence) : takenIn (os ++ older) = takenIn older := by
  induction os with
  | nil => rfl
  | cons o rest ih =>
      have hnone : o.taken? = none := h o List.mem_cons_self
      rw [List.cons_append, takenIn, hnone]
      exact ih fun o' ho' => h o' (List.mem_cons_of_mem o ho')

theorem emissions_append {os : List Occurrence} (hos : m.history = os ++ l.history) :
    m.emissions = l.emissions ++ os.reverse.filterMap (·.emitted?) :=
  filterMap_occurrences_append _ hos

theorem timeline_append {os : List Occurrence} (hos : m.history = os ++ l.history) :
    m.timeline = l.timeline ++ shown os :=
  filterMap_occurrences_append _ hos

/-- What was not taken is not shown as an event. -/
theorem filter_shown_eq_nil {os : List Occurrence} (h : ∀ o ∈ os, o.taken? = none) :
    (shown os).filter (·.isEvent) = [] := by
  apply List.filter_eq_nil_iff.mpr
  intro x hx
  obtain ⟨o, ho, hentry⟩ := List.mem_filterMap.mp hx
  have hnone := h o (List.mem_reverse.mp ho)
  cases o with
  | dispatched e => cases hnone
  | line level text =>
      cases hentry
      exact Bool.false_ne_true
  | _ => cases hentry

theorem QueueInOrder.queues (hl : l.QueueInOrder) (h : l.Queues m) : m.QueueInOrder := by
  obtain ⟨os, hos, hq, hp⟩ := h
  have htakings : m.takings = l.takings := by
    unfold takings
    rw [hos]
    exact takenIn_append_of_none hq l.history
  constructor
  · rw [emissions_append hos, htakings, hp, hl.taken, List.append_assoc]
  · rw [timeline_append hos, htakings, List.filter_append, filter_shown_eq_nil hq,
      List.append_nil]
    exact hl.timeline

/-- Whether a shutdown has begun is read off its record. -/
theorem any_begunReason? (hl : l.ShutdownInOrder) :
    l.history.any (·.begunReason?.isSome) = l.shutdown.isSome := by
  have hbegun : l.begunReasons = _ := hl.begun
  cases hs : l.shutdown with
  | none =>
      rw [hs] at hbegun
      apply List.any_eq_false.mpr
      intro o ho
      have hnone := List.filterMap_eq_nil_iff.mp hbegun o ho
      simp [hnone]
  | some s =>
      rw [hs] at hbegun
      have hmem : s.reason ∈ l.begunReasons := by
        rw [hbegun]
        exact List.mem_singleton.mpr rfl
      obtain ⟨o, ho, hreason⟩ := List.mem_filterMap.mp hmem
      exact List.any_eq_true.mpr ⟨o, ho, by simp [hreason]⟩

/-- **Every move keeps the queue in order.** -/
theorem QueueInOrder.move (hl : l.QueueInOrder) (horder : l.ShutdownInOrder)
    (h : Move p l m) : m.QueueInOrder := by
  rcases queues_of_move h with hqueues | ⟨e, rest, o, hp, hp', hos, ho⟩
  · exact hl.queues hqueues
  · have hone : m.history = [o] ++ l.history := hos
    have hbegun := any_begunReason? horder
    have htaken : o.taken? = some e ∧ o.emitted? = none := by
      rcases ho with ⟨rfl, -⟩ | ⟨rfl, -⟩
      · exact ⟨rfl, rfl⟩
      · exact ⟨rfl, rfl⟩
    have htakings : m.takings = l.takings ++ [(e, l.shutdown.isSome)] := by
      unfold takings
      rw [hos, takenIn, htaken.1, hbegun]
    constructor
    · -- The oldest event goes from the queue to those that were taken.
      rw [emissions_append hone, htakings, hp', hl.taken, hp]
      simp [htaken.2]
    · rw [timeline_append hone, htakings, List.filter_append, List.filter_append,
        List.map_append, hl.timeline]
      congr 1
      rcases ho with ⟨rfl, hs⟩ | ⟨rfl, hreq, hs⟩
      · have hheard : isHeard (e, l.shutdown.isSome) = true := by
          unfold isHeard
          cases hreq : e.isShutdownRequest with
          | false => rfl
          | true =>
              rw [hs hreq]
              rfl
        rw [List.filter_cons_of_pos hheard]
        rfl
      · have hheard : ¬ isHeard (e, l.shutdown.isSome) = true := by
          simp [isHeard, hreq, hs]
        rw [List.filter_cons_of_neg hheard]
        rfl

/-- **The queue is in order at every moment of a launch.** -/
theorem queueInOrder_of_moves {config : Config} {host : Host} {args : LaunchArguments}
    (h : Moves p (start config host args) l) : l.QueueInOrder := by
  have hquiet := start_context config host args
  induction h with
  | refl =>
      constructor
      · rw [hquiet.pending]
        rfl
      · rfl
  | tail hbefore hlast ih => exact ih.move (shutdownInOrder_of_moves hbefore) hlast

/-- The events that were queued are on the history. -/
theorem mem_emissions {e : Event} : e ∈ l.emissions ↔ .emitted e ∈ l.history := by
  unfold emissions
  rw [List.mem_filterMap]
  constructor
  · rintro ⟨o, ho, hemitted⟩
    cases o with
    | emitted e' =>
        cases hemitted
        exact List.mem_reverse.mp ho
    | _ => cases hemitted
  · intro he
    exact ⟨.emitted e, List.mem_reverse.mpr he, rfl⟩

/-- An event that was dispatched was queued. -/
theorem QueueInOrder.emitted (hl : l.QueueInOrder) {e : Event} (he : .dispatched e ∈ l.history) :
    .emitted e ∈ l.history := by
  have htaken : ∀ os : List Occurrence, .dispatched e ∈ os → e ∈ (takenIn os).map (·.1) := by
    intro os
    induction os with
    | nil => simp
    | cons o rest ih =>
        intro hmem
        rw [takenIn]
        rcases List.mem_cons.mp hmem with heq | hold
        · subst heq
          simp [Occurrence.taken?]
        · split
          · exact ih hold
          · rw [List.map_append]
            exact List.mem_append_left _ (ih hold)
  rw [← mem_emissions, hl.taken]
  exact List.mem_append_left _ (htaken l.history he)

/-- An event that waits was queued. -/
theorem QueueInOrder.emitted_of_pending (hl : l.QueueInOrder) {e : Event}
    (he : e ∈ l.context.pending) : .emitted e ∈ l.history := by
  rw [← mem_emissions, hl.taken]
  exact List.mem_append_right _ he

/-! ## The bodies of handlers -/

/-- The body of a handler began when `older` had happened, and its activation put `body` on the
history. -/
def IsResponse (id : Nat) (as : List Action) (scope : Option Scope)
    (body older : List Occurrence) : Prop :=
  ∃ k : Launch, k.history = older ∧
    (activateBody (.handler id) as scope k).history =
      body ++ .began (.handler id) as scope :: older

/-- Wherever the body of a handler begins, an event has its turn, and the activation of the body
is over before the turn ends. `tail` is what came after the body. -/
def AnswersInTurn (l : Launch) : Prop :=
  ∀ newer id as scope older, l.history = newer ++ .began (.handler id) as scope :: older →
    ∃ e tail body earlier before,
      newer = tail ++ body ∧ older = earlier ++ .dispatched e :: before ∧
      IsResponse id as scope body older ∧ (∀ o ∈ body ++ earlier, o.marksTurn = false) ∧
      ((l.context.current = some e ∧ ∀ o ∈ tail, o.marksTurn = false) ∨
        ∃ after later, tail = after ++ .turnEnded e :: later ∧ ∀ o ∈ later, o.marksTurn = false)

theorem history_activateBody (cause : BodyCause) (as : List Action) (scope : Option Scope)
    (l : Launch) : ∃ body,
      (activateBody cause as scope l).history = body ++ .began cause as scope :: l.history ∧
        ∀ o ∈ body, o.isOfLoop = false :=
  (activateBody_effects (Action.every_true as) cause scope l).grown.history

/-- What is put on the history afterwards belongs to the turn that is open, ends it, or comes
when no event has its turn. -/
theorem AnswersInTurn.keep (hl : l.AnswersInTurn) (os : List Occurrence)
    (hos : m.history = os ++ l.history)
    (hq : ∀ o ∈ os, ∀ id as scope, o ≠ .began (.handler id) as scope)
    (ht : l.context.current = none ∨
      (m.context.current = l.context.current ∧ ∀ o ∈ os, o.marksTurn = false) ∨
      ∃ e after, l.context.current = some e ∧ os = after ++ [.turnEnded e]) :
    m.AnswersInTurn := by
  intro newer id as scope older hsplit
  rw [hos] at hsplit
  rcases split_of_append hsplit with ⟨rest, rfl, hold⟩ | ⟨rest, hnew, -⟩
  · obtain ⟨e, tail, body, earlier, before, rfl, hbefore, hresponse, hmarks, hplace⟩ :=
      hl rest id as scope older hold
    refine ⟨e, os ++ tail, body, earlier, before, (List.append_assoc os tail body).symm, hbefore,
      hresponse, hmarks, ?_⟩
    rcases hplace with ⟨hc, htail⟩ | ⟨after, later, rfl, hlater⟩
    · rcases ht with hnone | ⟨hsame, hmark⟩ | ⟨e', after, hc', rfl⟩
      · rw [hnone] at hc
        cases hc
      · refine .inl ⟨hsame.trans hc, fun o ho => ?_⟩
        rcases List.mem_append.mp ho with ho | ho
        · exact hmark o ho
        · exact htail o ho
      · -- The turn ends, and what came after the body lies before its end.
        rw [hc'] at hc
        cases hc
        exact .inr ⟨after, tail, by simp, htail⟩
    · exact .inr ⟨os ++ after, later, by simp, hlater⟩
  · refine absurd rfl (hq (.began (.handler id) as scope) ?_ id as scope)
    rw [hnew]
    exact List.mem_append_right _ List.mem_cons_self

theorem ne_began_of_isOfLoop {o : Occurrence} (h : o.isOfLoop = false) (id : Nat)
    (as : List Action) (scope : Option Scope) : o ≠ .began (.handler id) as scope := by
  rintro rfl
  cases h

theorem ne_began_of_isAside {o : Occurrence} (h : o.isAside = true) (id : Nat)
    (as : List Action) (scope : Option Scope) : o ≠ .began (.handler id) as scope := by
  rintro rfl
  cases h

theorem AnswersInTurn.effects (hl : l.AnswersInTurn) (h : Effects p l m) : m.AnswersInTurn := by
  obtain ⟨os, hos, hq⟩ := h.grown.history
  exact hl.keep os hos (fun o ho => ne_began_of_isOfLoop (hq o ho))
    (.inr (.inl ⟨h.sameLoop.current, fun o ho => Occurrence.marksTurn_of_isOfLoop (hq o ho)⟩))

/-- What is calm and comes when no event has its turn. -/
theorem AnswersInTurn.calm (hl : l.AnswersInTurn) (h : l.Calm m)
    (hc : l.context.current = none) : m.AnswersInTurn := by
  obtain ⟨os, hos, hq⟩ := h.history
  exact hl.keep os hos (fun o ho => ne_began_of_isAside (hq o ho)) (.inl hc)

/-- A body that is not that of a handler begins when no event has its turn. -/
theorem AnswersInTurn.resume (hl : l.AnswersInTurn) (hc : l.context.current = none)
    {cause : BodyCause} (hcause : ∀ id, cause ≠ .handler id) (as : List Action)
    (scope : Option Scope) : (activateBody cause as scope l).AnswersInTurn := by
  obtain ⟨body, hbody, hq⟩ := history_activateBody cause as scope l
  have hos : (activateBody cause as scope l).history =
      (body ++ [.began cause as scope]) ++ l.history := by
    rw [hbody, List.append_assoc]
    rfl
  refine hl.keep _ hos (fun o ho id as' scope' => ?_) (.inl hc)
  rcases List.mem_append.mp ho with ho | ho
  · exact ne_began_of_isOfLoop (hq o ho) id as' scope'
  · rw [List.mem_singleton.mp ho]
    intro heq
    cases heq
    exact hcause id rfl

/-- The body of a handler is activated in the turn of the event. -/
theorem AnswersInTurn.answer (hl : l.AnswersInTurn) (hopen : l.TurnOpen) {e : Event}
    {h : RegisteredHandler} (hc : l.context.current = some e) (writer : Nat) (as : List Action) :
    (activateBody (.handler h.id) as h.handler.scope (l.withWriter h writer)).AnswersInTurn := by
  obtain ⟨body, hbody, hq⟩ :=
    history_activateBody (.handler h.id) as h.handler.scope (l.withWriter h writer)
  have hturn := sameTurn_activateBody (.handler h.id) as h.handler.scope (l.withWriter h writer)
  have hos : (activateBody (.handler h.id) as h.handler.scope (l.withWriter h writer)).history =
      (body ++ [.began (.handler h.id) as h.handler.scope]) ++ l.history := by
    rw [hbody, List.append_assoc]
    rfl
  intro newer id as' scope older hsplit
  rw [hos] at hsplit
  rcases split_of_append hsplit with ⟨rest, rfl, hold⟩ | ⟨rest, hnew, rfl⟩
  · -- A body that began before; this one comes later in the same turn.
    obtain ⟨e', tail, body', earlier, before, rfl, hbefore, hresponse, hmarks, hplace⟩ :=
      hl rest id as' scope older hold
    refine ⟨e', (body ++ [.began (.handler h.id) as h.handler.scope]) ++ tail, body', earlier,
      before, (List.append_assoc _ tail body').symm, hbefore, hresponse, hmarks, ?_⟩
    rcases hplace with ⟨hc', htail⟩ | ⟨after, later, rfl, hlater⟩
    · refine .inl ⟨hturn.current.trans hc', fun o ho => ?_⟩
      rcases List.mem_append.mp ho with ho | ho
      · rcases List.mem_append.mp ho with ho | ho
        · exact Occurrence.marksTurn_of_isOfLoop (hq o ho)
        · rw [List.mem_singleton.mp ho]
          rfl
      · exact htail o ho
    · exact .inr ⟨_, later, (List.append_assoc _ after _).symm, hlater⟩
  · -- This body; nothing that it does looks like the beginning of one.
    obtain ⟨earlier, before, hopened, hmark⟩ := hopen e hc
    obtain ⟨rfl, rfl, hlast⟩ : newer = body ∧ rest = [] ∧
        Occurrence.began (.handler h.id) as h.handler.scope = .began (.handler id) as' scope := by
      rcases split_of_append hnew with ⟨rest', rfl, hrest⟩ | ⟨rest', hbody', -⟩
      · cases rest' with
        | nil =>
            obtain ⟨heq, hnil⟩ := List.cons.inj hrest
            exact ⟨List.append_nil body, hnil.symm, heq⟩
        | cons o rest' =>
            have hlength := congrArg List.length hrest
            simp at hlength
      · refine absurd rfl (ne_began_of_isOfLoop (hq (.began (.handler id) as' scope) ?_) id as'
          scope)
        rw [hbody']
        exact List.mem_append_right _ List.mem_cons_self
    cases hlast
    refine ⟨e, [], newer, earlier, before, rfl, hopened, ⟨l.withWriter h writer, rfl, hbody⟩, ?_,
      .inl ⟨hturn.current.trans hc, by simp⟩⟩
    intro o ho
    rcases List.mem_append.mp ho with ho | ho
    · exact Occurrence.marksTurn_of_isOfLoop (hq o ho)
    · exact hmark o ho

/-- **Every stride keeps the bodies of handlers in their turns.** -/
theorem AnswersInTurn.stride (hl : l.AnswersInTurn) (hopen : l.TurnOpen) (h : Stride p l m) :
    m.AnswersInTurn := by
  have hclose : ∀ {e : Event} {n : Launch}, l.context.current = some e → (l.closeTurn e).Calm n →
      n.AnswersInTurn := by
    intro e n hc hcalm
    have hclosed : (l.closeTurn e).AnswersInTurn :=
      hl.keep [.turnEnded e] rfl (by simp) (.inr (.inr ⟨e, [], hc, rfl⟩))
    exact hclosed.calm hcalm rfl
  cases h with
  | describe as _ has => exact hl.effects (activateAll_effects has l)
  | take e rest hp hc hs => exact hl.keep [.dispatched e] rfl (by simp) (.inl hc)
  | ignore e rest hp hc he hs => exact hl.keep [.ignored e] rfl (by simp) (.inl hc)
  | interrupt e hc => exact hl.effects (p := p) (.single .interrupt)
  | answer e h writer as hc hf hm hy has => exact hl.answer hopen hc writer as
  | decline e h writer err hc hf hm hy =>
      have hwriter : (l.withWriter h writer).AnswersInTurn :=
        hl.keep [] rfl (by simp) (.inr (.inl ⟨rfl, by simp⟩))
      exact hwriter.effects (p := p) (.single (report_effect _ err))
  | close e hc hs he => exact hclose hc (.refl _)
  | release q status r hc hr => exact hclose hc (calm_releaseProcess _ q.id)
  | respawn r hc hf ha => exact hl.resume hc (by simp) _ _
  | postpone r delay hc hf ha => exact hl.effects (.single (.schedule _ _ _ _ _ hf ha))
  | shutdown reason due hc hb =>
      have hclosed : (l.closeTurn (.shutdownRequested reason due)).AnswersInTurn :=
        hclose hc (.refl _)
      obtain ⟨deadline, hcalm⟩ := calm_beginShutdown hb
      have hbegun : ((l.closeTurn (.shutdownRequested reason due)).withShutdown reason
          deadline).AnswersInTurn :=
        hclosed.keep [.shutdownBegan reason] rfl (by simp) (.inl rfl)
      exact hbegun.calm hcalm rfl
  | arrive a hc hp hn ht => exact hl.calm (calm_arrive l a) hc
  | request reason due hc hf => exact hl.effects (p := p) (.single (.request reason due hf))
  | notice a n hc hp ha => exact hl.calm ((calm_arrive l a).trans (calm_onNotice _ n)) hc
  | fire a id t hc hp ha ht has =>
      have hcalm := (calm_arrive l a).trans (calm_elapse (l.arrive a) id t)
      exact (hl.calm hcalm hc).resume (hcalm.current.trans hc) (by simp) _ _
  | kill hc hp hs => exact hl.calm (calm_killRemaining l) hc

theorem answersInTurn_of_strides {config : Config} {host : Host} {args : LaunchArguments}
    (h : Strides p (start config host args) l) : l.AnswersInTurn := by
  have hquiet := start_context config host args
  induction h with
  | refl =>
      intro newer id as scope older hsplit
      have hnil : newer ++ .began (.handler id) as scope :: older = [] := hsplit.symm
      simp at hnil
  | tail hbefore hlast ih =>
      exact ih.stride ((turnOpen_of_none hquiet.current).moves (Strides.moves hbefore)) hlast

end Launch

variable {config : Config} {host : Host} {args : LaunchArguments} {description : List Action}
  {l : Launch}

theorem shown_append (newer older : List Occurrence) :
    shown (newer ++ older) = shown older ++ shown newer := by
  unfold shown
  rw [List.reverse_append, List.filterMap_append]

/-- Within a turn the timeline shows lines only. -/
theorem isEvent_of_mem_shown {os : List Occurrence} (h : ∀ o ∈ os, o.marksTurn = false)
    {x : TimelineEntry} (hx : x ∈ shown os) : x.isEvent = false := by
  obtain ⟨o, ho, hentry⟩ := List.mem_filterMap.mp hx
  have hmark := h o (List.mem_reverse.mp ho)
  cases o with
  | dispatched e => cases hmark
  | line level text =>
      cases hentry
      rfl
  | _ => cases hentry

/-- **Events are neither lost, doubled nor put in another order.** When a run has ended, the
events that were taken from the queue are those that were queued, in the same order, and the
queue is empty. The timeline shows the events that were taken, in that order, without the
requests for a shutdown that came when one had begun. The body of every handler was activated in
the turn of an event, and all that the activation put on the history, lines among it, stands
before the turn ends: in the timeline the lines of the body come after the entry of the event,
with no entry of another event in between. -/
theorem queue_in_order (h : Reachable config host args description (.ended l)) :
    l.takings.map (·.1) = l.emissions ∧
    l.finish.timeline.filter (·.isEvent) = (l.takings.filter isHeard).map (·.1.timelineEntry) ∧
    l.closing.context.pending = [] ∧
    ∀ newer id as scope older, l.history = newer ++ .began (.handler id) as scope :: older →
      ∃ e after later body earlier before,
        newer = after ++ .turnEnded e :: (later ++ body) ∧
        older = earlier ++ .dispatched e :: before ∧
        Launch.IsResponse id as scope body older ∧
        l.finish.timeline = shown before ++
          e.timelineEntry :: (shown earlier ++ shown body ++ shown later) ++ shown after ∧
        ∀ x ∈ shown earlier ++ shown body ++ shown later, x.isEvent = false := by
  obtain ⟨hstrides, hc⟩ := h.strides (Action.every_true description)
  have horder := Launch.queueInOrder_of_moves hstrides.moves
  have hanswers := Launch.answersInTurn_of_strides hstrides
  have hempty := h.pending_of_ended
  refine ⟨?_, ?_, ?_, ?_⟩
  · have htaken := horder.taken
    change l.emissions = l.takings.map (·.1) ++ l.context.pending at htaken
    rw [htaken, hempty, List.append_nil]
  · rw [l.timeline_finish]
    exact horder.timeline
  · rw [l.context_closing]
    exact hempty
  · intro newer id as scope older hsplit
    obtain ⟨e, tail, body, earlier, before, rfl, rfl, hresponse, hmarks, hplace⟩ :=
      hanswers newer id as scope older hsplit
    rcases hplace with ⟨hcurrent, -⟩ | ⟨after, later, rfl, hlater⟩
    · -- No event has its turn when a run has ended.
      rw [hc] at hcurrent
      cases hcurrent
    · have htimeline : l.timeline = shown l.history := rfl
      have hevent : ∀ os : List Occurrence,
          shown (.dispatched e :: os) = shown os ++ [e.timelineEntry] := fun os =>
        shown_append [.dispatched e] os
      have hended : ∀ os : List Occurrence, shown (.turnEnded e :: os) = shown os := fun os =>
        (shown_append [.turnEnded e] os).trans (List.append_nil _)
      have hbegan : ∀ os : List Occurrence,
          shown (.began (.handler id) as scope :: os) = shown os := fun os =>
        (shown_append [.began (.handler id) as scope] os).trans (List.append_nil _)
      refine ⟨e, after, later, body, earlier, before, by simp, rfl, hresponse, ?_, ?_⟩
      · rw [l.timeline_finish, htimeline, hsplit]
        simp [shown_append, hevent, hended, hbegan]
      · intro x hx
        rcases List.mem_append.mp hx with hx | hx
        · refine isEvent_of_mem_shown hmarks ?_
          rw [shown_append]
          exact hx
        · exact isEvent_of_mem_shown hlater hx

/-- An action that registers a handler for the events of a kind. -/
def Action.listen (bits : BitVec 128) (name : Option String) (once : Bool) (kind : String)
    (children : List Action) : Action :=
  .mk ⟨bits⟩ none (.register (.mk name (.custom kind) (.actions children) once none))

/-- An action that emits an event of a kind. -/
def Action.ring (bits : BitVec 128) (kind : String) : Action :=
  .mk ⟨bits⟩ none (.emit (.custom kind .null))

/-- Whether the run has ended and has shown two events, with a line between them. -/
def Standing.hasEchoed : Standing → Bool
  | .waiting _ => false
  | .ended l => l.finish.timeline = [.event "ping" none, .line "pong", .event "ping" none]

/-- An event that comes twice and is answered once: the line of its handler stands between. -/
theorem ping_taken_as_queued :
    ∃ l, Reachable .standard .willing []
        [.listen 1 none true "ping" [.say 2 "pong"], .ring 3 "ping", .ring 4 "ping"] (.ended l) ∧
      l.finish.timeline = [.event "ping" none, .line "pong", .event "ping" none] ∧
      l.takings.map (·.1) = l.emissions ∧ l.closing.context.pending = [] := by
  have hrun : Reachable.comesTo Standing.hasEchoed ((Launch.begin .standard .willing []
      [.listen 1 none true "ping" [.say 2 "pong"], .ring 3 "ping", .ring 4 "ping"]).run 9 []) =
      true := by decide +kernel
  obtain ⟨s, hs, hcheck⟩ := Reachable.exists_of_comesTo 9 _ hrun
  cases s with
  | waiting l => cases hcheck
  | ended l =>
      obtain ⟨htaken, -, hempty, -⟩ := queue_in_order hs
      exact ⟨l, hs, of_decide_eq_true hcheck, htaken, hempty⟩

end Conductor
