import Conductor.Proofs.Launch.Chronicle
import Conductor.Proofs.Launch.Plan

/-!
# The course of a launch

The bodies that a launch activates after its description begin one after the other: those of
handlers in the turn of an event, that of a process that is started again when the turn of its
end is over, and those of timers that fire. `Course` goes through a launch from one of them to
the next and lists them, each with the launch in which it begins (`Beginning`), so what holds
when a body begins can be traced to what happened before.

`Reachable.course` says that every run takes such a course.
-/

namespace Conductor

/-- A body that begins. -/
structure Beginning where
  cause : BodyCause
  actions : List Action
  /-- The bindings under which it is activated, if it has some of its own. -/
  scope : Option Scope
  /-- The launch just before. -/
  launch : Launch

namespace Beginning

/-- What is put on the history when the body begins. -/
def occurrence (b : Beginning) : Occurrence :=
  .began b.cause b.actions b.scope

/-- The launch in which the first action of the body is activated. -/
def opened (b : Beginning) : Launch :=
  match b.scope with
  | none => b.launch.happen b.occurrence
  | some scope => (b.launch.happen b.occurrence).inScope scope

/-- The launch when the body is over. -/
def closed (b : Beginning) : Launch :=
  Launch.activateBody b.cause b.actions b.scope b.launch

/-- Bindings of its own stand on top of the others. -/
theorem scopes_opened {b : Beginning} {scope : Scope} (h : b.scope = some scope) :
    b.opened.context.scopes = b.launch.context.scopes.push scope := by
  unfold opened
  rw [h]
  rfl

end Beginning

/-- Where a launch stands between two bodies. -/
inductive Phase where
  /-- No event has its turn. -/
  | waiting
  /-- An event has its turn; the handlers of these numbers are still to be asked, the first of
  them as the given writer. -/
  | turn (e : Event) (writer : Nat) (ids : List Nat)
  | ended

def Standing.phase : Standing → Phase
  | .waiting _ => .waiting
  | .ended _ => .ended

namespace Launch

/-- The delay after which a process is to be started again, if it is. -/
def respawnDelay? (l : Launch) (r : RunningProcess) : Option Duration :=
  match r.action.deed with
  | .execute t _ =>
      if l.context.shuttingDown then none
      else t.respawn.map fun seconds => (Duration.ofSeconds? seconds).getD .zero
  | _ => none

/-- The launch in which the turn of the end of a process is over and the process is given up. -/
def givenUp (l : Launch) (q : ProcessInfo) (status : ExitStatus) : Launch :=
  (l.closeTurn (.processExited q status)).releaseProcess q.id

end Launch

namespace Phase

/-- From a launch in the first phase the next thing is a body, which leads to the second one. -/
inductive Begins : Phase → Launch → Beginning → Phase → Prop where
  /-- A handler answers the event of the turn; its function may ask for an interrupt first. -/
  | answer {l m : Launch} {e : Event} {writer id : Nat} {ids : List Nat} {h : RegisteredHandler}
      {as : List Action} (hf : l.registry.find? id = some h)
      (hy : (h.handler.body.produce e l.context).answer? = some as)
      (hm : m = l ∨ m = l.interrupt)
      (ha : l.answer e writer id =
        Launch.activateBody (.handler id) as h.handler.scope (m.withWriter h writer)) :
      Begins (.turn e writer (id :: ids)) l
        ⟨.handler id, as, h.handler.scope, m.withWriter h writer⟩ (.turn e (writer + 1) ids)
  /-- The end of a process has had its turn, and the process is started again at once. -/
  | restart {l : Launch} {q : ProcessInfo} {status : ExitStatus} {writer : Nat}
      {r : RunningProcess} {delay : Duration} (hr : l.processes.get? q.id.number = some r)
      (hd : (l.givenUp q status).respawnDelay? r = some delay) (hz : delay.isZero = true) :
      Begins (.turn (.processExited q status) writer []) l
        ⟨.respawn r.info.id, [r.action], some r.scope, l.givenUp q status⟩ .waiting
  /-- A timer fires that is pending. -/
  | fire {l : Launch} {a : Arrival} {id : Nat} {t : Timer} (hp : l.context.pending = [])
      (hi : l.isIdle = false) (ha : a.message = .timerFired id)
      (ht : l.timers.get? id = some t) :
      Begins .waiting l ⟨.timer id, t.actions, some t.scope, (l.arrive a).elapse id t⟩ .waiting

/-- From a launch in the first phase the next thing is no body, and leads to another launch in
the second one. -/
inductive Passes : Phase → Launch → Phase → Launch → Prop where
  /-- A request for a shutdown that has begun is dropped. -/
  | ignore {l : Launch} {e : Event} {rest : List Event} (hp : l.context.pending = e :: rest)
      (he : e.isShutdownRequest = true) (hs : l.shutdown.isSome = true) :
      Passes .waiting l .waiting ((l.withoutNext rest).happen (.ignored e))
  /-- The turn of the oldest waiting event begins. -/
  | take {l : Launch} {e : Event} {rest : List Event} (hp : l.context.pending = e :: rest)
      (hs : e.isShutdownRequest = true → l.shutdown = none) :
      Passes .waiting l (.turn e 0 (((l.withoutNext rest).happen (.dispatched e)).openTurn e).1)
        (((l.withoutNext rest).happen (.dispatched e)).openTurn e).2
  /-- The handler that is asked next is gone. -/
  | miss {l : Launch} {e : Event} {writer id : Nat} {ids : List Nat}
      (hf : l.registry.find? id = none) :
      Passes (.turn e writer (id :: ids)) l (.turn e (writer + 1) ids) l
  /-- The handler that is asked next fails. -/
  | decline {l : Launch} {e : Event} {writer id : Nat} {ids : List Nat} {h : RegisteredHandler}
      {err : LaunchError} (hf : l.registry.find? id = some h)
      (hy : (h.handler.body.produce e l.context).answer? = none)
      (ha : l.answer e writer id = (l.withWriter h writer).report err) :
      Passes (.turn e writer (id :: ids)) l (.turn e (writer + 1) ids)
        ((l.withWriter h writer).report err)
  /-- The turn of an event ends after which no process is started again. -/
  | close {l m : Launch} {e : Event} {writer : Nat} (hm : (l.closeTurn e).afterTurn e = .ok m)
      (hn : ∀ q status r, e = .processExited q status →
        l.processes.get? q.id.number = some r → (l.givenUp q status).respawnDelay? r = none) :
      Passes (.turn e writer []) l .waiting m
  /-- The end of a process has had its turn, and the process is to be started again after a
  delay. -/
  | postpone {l : Launch} {q : ProcessInfo} {status : ExitStatus} {writer : Nat}
      {r : RunningProcess} {delay : Duration} (hr : l.processes.get? q.id.number = some r)
      (hd : (l.givenUp q status).respawnDelay? r = some delay) (hz : delay.isZero = false) :
      Passes (.turn (.processExited q status) writer []) l .waiting
        ((l.givenUp q status).schedule delay [r.action] r.scope none true)
  /-- A message arrives that makes no timer fire. -/
  | receive {l : Launch} {a : Arrival} (hp : l.context.pending = []) (hi : l.isIdle = false)
      (ha : ∀ id, a.message = .timerFired id → l.timers.get? id = none) :
      Passes .waiting l (l.receive a).phase (l.receive a).launch
  /-- Nothing is left to wait for. -/
  | idle {l : Launch} (hi : l.isIdle = true) : Passes .waiting l .ended l

end Phase

/-- A launch of a description has come to a phase, and these bodies have begun until then, the
latest first. -/
inductive Course (config : Config) (host : Host) (args : LaunchArguments)
    (description : List Action) : List Beginning → Phase → Launch → Prop where
  | begin : Course config host args description [] .waiting (.begin config host args description)
  | pass {bs : List Beginning} {s t : Phase} {l m : Launch}
      (h : Course config host args description bs s l) (hp : s.Passes l t m) :
      Course config host args description bs t m
  | body {bs : List Beginning} {s t : Phase} {l : Launch} {b : Beginning}
      (h : Course config host args description bs s l) (hb : s.Begins l b t) :
      Course config host args description (b :: bs) t b.closed

variable {config : Config} {host : Host} {args : LaunchArguments} {description : List Action}
  {bs : List Beginning} {s t : Phase} {b : Beginning} {l m : Launch}

/-! ## Every run takes a course -/

namespace Launch

theorem respawn_eq (l : Launch) (r : RunningProcess) :
    l.respawn r = match l.respawnDelay? r with
      | none => l
      | some delay =>
          if delay.isZero then activateBody (.respawn r.info.id) [r.action] (some r.scope) l
          else l.schedule delay [r.action] r.scope none true := by
  unfold respawn respawnDelay?
  cases r.action.deed with
  | execute t onExit =>
      dsimp only
      cases t.respawn with
      | none => cases l.context.shuttingDown <;> rfl
      | some seconds => cases l.context.shuttingDown <;> rfl
  | _ => rfl

/-- What follows the turn of the end of a process that is kept. -/
theorem afterTurn_processExited {q : ProcessInfo} {status : ExitStatus} {r : RunningProcess}
    (hr : l.processes.get? q.id.number = some r) :
    (l.closeTurn (.processExited q status)).afterTurn (.processExited q status) =
      .ok ((l.givenUp q status).respawn r) := by
  show Except.ok ((l.closeTurn (.processExited q status)).finishProcess q.id) = _
  have hkept : (l.closeTurn (.processExited q status)).processes.get? q.id.number = some r := hr
  unfold finishProcess
  rw [hkept]
  rfl

theorem respawn_of_isZero {r : RunningProcess} {delay : Duration}
    (hd : l.respawnDelay? r = some delay) (hz : delay.isZero = true) :
    l.respawn r = activateBody (.respawn r.info.id) [r.action] (some r.scope) l := by
  rw [respawn_eq, hd]
  exact if_pos hz

theorem respawn_of_not_isZero {r : RunningProcess} {delay : Duration}
    (hd : l.respawnDelay? r = some delay) (hz : delay.isZero = false) :
    l.respawn r = l.schedule delay [r.action] r.scope none true := by
  rw [respawn_eq, hd]
  exact if_neg (by rw [hz]; exact Bool.false_ne_true)

theorem receive_timerFired {a : Arrival} {id : Nat} {t : Timer} (ha : a.message = .timerFired id)
    (ht : l.timers.get? id = some t) :
    l.receive a =
      .waiting (activateBody (.timer id) t.actions (some t.scope) ((l.arrive a).elapse id t)) := by
  have hpending : (l.arrive a).timers.get? id = some t := ht
  unfold receive
  rw [ha]
  show Standing.waiting ((l.arrive a).fireTimer id) = _
  unfold fireTimer
  rw [hpending]

end Launch

namespace Course

/-- The handlers are asked one after the other, until none is left to ask. -/
theorem answerAll {e : Event} {writer : Nat} {ids : List Nat}
    (h : Course config host args description bs (.turn e writer ids) l) :
    ∃ bs' writer', Course config host args description bs' (.turn e writer' [])
      (Launch.answerAll e writer ids l) := by
  induction ids generalizing bs writer l with
  | nil => exact ⟨bs, writer, h⟩
  | cons id rest ih =>
      have hnext : ∃ bs', Course config host args description bs' (.turn e (writer + 1) rest)
          (l.answer e writer id) := by
        rcases l.answer_cases e writer id with
          ⟨hf, ha⟩ | ⟨g, hf, ⟨as, m, hm, hy, ha⟩ | ⟨err, hy, ha⟩⟩
        · rw [ha]
          exact ⟨bs, h.pass (.miss hf)⟩
        · rw [ha]
          exact ⟨_, h.body (.answer hf hy hm ha)⟩
        · rw [ha]
          exact ⟨bs, h.pass (.decline hf hy ha)⟩
      obtain ⟨bs', hbs'⟩ := hnext
      exact ih hbs'

/-- The turn of an event ends, with a body if a process is started again at once. -/
theorem afterTurn {e : Event} {writer : Nat}
    (h : Course config host args description bs (.turn e writer []) l)
    (hm : (l.closeTurn e).afterTurn e = .ok m) :
    ∃ bs', Course config host args description bs' .waiting m := by
  by_cases hn : ∀ q status r, e = .processExited q status →
      l.processes.get? q.id.number = some r → (l.givenUp q status).respawnDelay? r = none
  · exact ⟨bs, h.pass (.close hm hn)⟩
  · simp only [Classical.not_forall, exists_prop] at hn
    obtain ⟨q, status, r, rfl, hr, hsome⟩ := hn
    obtain ⟨delay, hd⟩ := Option.ne_none_iff_exists'.mp hsome
    rw [Launch.afterTurn_processExited hr] at hm
    cases hm
    cases hz : delay.isZero with
    | true =>
        rw [Launch.respawn_of_isZero hd hz]
        exact ⟨_, h.body (.restart hr hd hz)⟩
    | false =>
        rw [Launch.respawn_of_not_isZero hd hz]
        exact ⟨bs, h.pass (.postpone hr hd hz)⟩

theorem dispatch {e : Event} {rest : List Event}
    (h : Course config host args description bs .waiting l) (hp : l.context.pending = e :: rest)
    (hd : (l.withoutNext rest).dispatch e = .ok m) :
    ∃ bs', Course config host args description bs' .waiting m := by
  rcases Launch.dispatch_cases hd with ⟨he, hs, rfl⟩ | ⟨hs, hend⟩
  · exact ⟨bs, h.pass (.ignore hp he hs)⟩
  · obtain ⟨bs', writer, hasked⟩ := (h.pass (.take hp hs)).answerAll
    exact hasked.afterTurn hend

theorem receive (h : Course config host args description bs .waiting l)
    (hp : l.context.pending = []) (hi : l.isIdle = false) (a : Arrival) :
    ∃ bs', Course config host args description bs' (l.receive a).phase (l.receive a).launch := by
  by_cases ha : ∀ id, a.message = .timerFired id → l.timers.get? id = none
  · exact ⟨bs, h.pass (.receive hp hi ha)⟩
  · simp only [Classical.not_forall, exists_prop] at ha
    obtain ⟨id, ha, hsome⟩ := ha
    obtain ⟨t, ht⟩ := Option.ne_none_iff_exists'.mp hsome
    rw [Launch.receive_timerFired ha ht]
    exact ⟨_, h.body (.fire hp hi ha ht)⟩

end Course

/-- **Every run takes a course.** -/
theorem Reachable.course {x : Standing} (h : Reachable config host args description x) :
    ∃ bs, Course config host args description bs x.phase x.launch := by
  induction h with
  | begin => exact ⟨[], .begin⟩
  | dispatch _ hp hd ih =>
      obtain ⟨bs, hbs⟩ := ih
      exact hbs.dispatch hp hd
  | idle _ hi ih =>
      obtain ⟨bs, hbs⟩ := ih
      exact ⟨bs, hbs.pass (.idle hi)⟩
  | receive a _ hp hi ih =>
      obtain ⟨bs, hbs⟩ := ih
      exact hbs.receive hp hi a

/-! ## A course is made of strides -/

/-- The launch is in the phase: the event that has its turn is the one of the phase, and the
handlers that are still to be asked match it. -/
def Phase.Fits (l : Launch) : Phase → Prop
  | .turn e _ ids => l.context.current = some e ∧ l.Matches e ids
  | _ => l.context.current = none

/-- The launches of a course come from one another as the loop goes on. -/
structure Phase.LeadsTo (p : Deed → Prop) (l : Launch) (t : Phase) (m : Launch) : Prop where
  strides : Strides p l m
  fits : t.Fits m

variable {p : Deed → Prop}

/-- Once a handler has been asked, the next one is to be asked. -/
theorem Phase.leadsTo_answer {e : Event} {writer id : Nat} {ids : List Nat} (hl : l.Sound p)
    (hfits : Phase.Fits l (.turn e writer (id :: ids))) :
    Phase.LeadsTo p l (.turn e (writer + 1) ids) (l.answer e writer id) := by
  obtain ⟨hc, hm⟩ := hfits
  have hturn := Launch.sameTurn_answer l e writer id
  have hrest : l.Matches e ids := fun i hi => hm i (List.mem_cons_of_mem id hi)
  exact ⟨Launch.answer_strides hl hc (hm id List.mem_cons_self).2 writer,
    hturn.current.trans hc, hrest.sameTurn hturn⟩

/-- Once no handler is left to ask, the turn ends. -/
theorem Phase.leadsTo_afterTurn {e : Event} {writer : Nat} (hl : l.Sound p)
    (hfits : Phase.Fits l (.turn e writer [])) (hm : (l.closeTurn e).afterTurn e = .ok m) :
    Phase.LeadsTo p l .waiting m where
  strides := Launch.afterTurn_strides hl hfits.1 hm
  fits := (Launch.sameTurn_afterTurn hm).current

theorem Phase.leadsTo_receive (hl : l.Sound p) (hfits : Phase.Fits l .waiting)
    (hp : l.context.pending = []) (a : Arrival) :
    Phase.LeadsTo p l (l.receive a).phase (l.receive a).launch where
  strides := Launch.receive_strides hl hfits hp a
  fits := by
    have hquiet : (l.receive a).launch.context.current = none :=
      (Launch.sameTurn_receive l a).current.trans hfits
    cases hx : l.receive a with
    | waiting n =>
        rw [hx] at hquiet
        exact hquiet
    | ended n =>
        rw [hx] at hquiet
        exact hquiet

theorem Phase.Passes.leadsTo (hl : l.Sound p) (hfits : s.Fits l) (h : s.Passes l t m) :
    Phase.LeadsTo p l t m := by
  cases h with
  | ignore hp he hs => exact ⟨.single (.ignore _ _ hp hfits he hs), hfits⟩
  | @take _ e rest hp hs =>
      have htaken : ((l.withoutNext rest).happen (.dispatched e)).registry.Sound := hl.registry
      exact ⟨.single (.take e rest hp hfits hs), rfl, Launch.matches_openTurn htaken⟩
  | @miss _ e writer id ids hf =>
      have hasked := Phase.leadsTo_answer hl hfits
      rcases l.answer_cases e writer id with ⟨-, ha⟩ | ⟨g, hg, -⟩
      · rw [ha] at hasked
        exact hasked
      · rw [hf] at hg
        cases hg
  | decline hf hy ha =>
      rw [← ha]
      exact Phase.leadsTo_answer hl hfits
  | close hm hn => exact Phase.leadsTo_afterTurn hl hfits hm
  | postpone hr hd hz =>
      refine Phase.leadsTo_afterTurn hl hfits ?_
      rw [Launch.afterTurn_processExited hr, Launch.respawn_of_not_isZero hd hz]
  | receive hp hi ha => exact Phase.leadsTo_receive hl hfits hp _
  | idle hi => exact ⟨.refl, hfits⟩

theorem Phase.Begins.leadsTo (hl : l.Sound p) (hfits : s.Fits l) (h : s.Begins l b t) :
    Phase.LeadsTo p l t b.closed := by
  cases h with
  | answer hf hy hm ha =>
      have hasked := Phase.leadsTo_answer hl hfits
      rw [ha] at hasked
      exact hasked
  | restart hr hd hz =>
      refine Phase.leadsTo_afterTurn hl hfits ?_
      rw [Launch.afterTurn_processExited hr, Launch.respawn_of_isZero hd hz]
      rfl
  | @fire _ a id t hp hi ha ht =>
      have hreceived := Phase.leadsTo_receive hl hfits hp a
      rw [Launch.receive_timerFired ha ht] at hreceived
      exact hreceived

namespace Course

/-- **A course is a sequence of strides.** -/
theorem leadsTo (hall : ∀ a ∈ description, a.Every p)
    (h : Course config host args description bs s l) :
    Phase.LeadsTo p (.start config host args) s l := by
  have hstart : (Launch.start config host args).Sound p := Launch.sound_start config host args
  induction h with
  | begin =>
      have hbegin : Reachable config host args description
          (.waiting (.begin config host args description)) := .begin
      obtain ⟨hstrides, hc⟩ := hbegin.strides hall
      exact ⟨hstrides, hc⟩
  | pass _ hp ih =>
      have hnext := hp.leadsTo (hstart.strides ih.strides) ih.fits
      exact ⟨ih.strides.trans hnext.strides, hnext.fits⟩
  | body _ hb ih =>
      have hnext := hb.leadsTo (hstart.strides ih.strides) ih.fits
      exact ⟨ih.strides.trans hnext.strides, hnext.fits⟩

theorem strides (h : Course config host args description bs s l) :
    Strides (fun _ => True) (.start config host args) l :=
  (h.leadsTo (Action.every_true description)).strides

/-- Each body began at the end of the course before it. -/
theorem exists_begins {later earlier : List Beginning}
    (h : Course config host args description bs s l) (hbs : bs = later ++ b :: earlier) :
    ∃ s' l' t', Course config host args description earlier s' l' ∧ Phase.Begins s' l' b t' := by
  induction h generalizing later with
  | begin => simp at hbs
  | pass _ _ ih => exact ih hbs
  | body hbefore hb ih =>
      rcases split_of_cons hbs with ⟨-, rfl, rfl⟩ | ⟨rest, -, hrest⟩
      · exact ⟨_, _, _, hbefore, hb⟩
      · exact ih hrest

end Course

end Conductor
