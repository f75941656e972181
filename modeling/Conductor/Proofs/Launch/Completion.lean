import Conductor.Proofs.Launch.Ending
import Conductor.Proofs.Launch.Timing

/-!
# Nothing is left open

The record of a process stays open until the notice of its end is handled, and that of a timer
action until its timer is over; the books (`Launch.Booked`) say that no other record is open
between two strides. `ClosesSeen` says that the notice closes the record for good. At the end of
a run that was not forced the end of every process was seen and no timer is left, so nothing is
open.
-/

namespace Conductor

/-- Whether a process is kept, or its end is told. -/
def Occurrence.isOfProcess : Occurrence → Bool
  | .kept .. => true
  | .received (.notice (.exited ..)) => true
  | _ => false

variable {p : Deed → Prop} {l m : Launch} {k : Nat}

/-! ## Records that have ended -/

/-- The stage in which an activation has ended is never left. -/
theorem Journal.EndedAs.effect {s : Stage} (hk : l.journal.EndedAs k s) (h : Effect p l m) :
    m.journal.EndedAs k s := by
  cases h with
  | enter a => exact hk.enter a
  | advance seq stage => exact hk.advance seq stage
  | note seq text => exact hk.note seq text
  | skip a why => exact hk.skip a why
  | cancelTimer why id t ht =>
      show (t.close why l.journal).EndedAs k s
      unfold Timer.close
      split
      · exact hk
      · exact (hk.note _ _).advance _ _
  | spawn spec seq a t onExit h _ _ _ _ _ _ =>
      obtain ⟨r, -, -, -, -, heq⟩ := (l.withStarted h spec).attend_eq seq a onExit spec.name h
      rw [heq]
      exact hk.note _ _
  | _ => exact hk

theorem Journal.EndedAs.effects {s : Stage} (hk : l.journal.EndedAs k s) (h : Effects p l m) :
    m.journal.EndedAs k s := by
  induction h with
  | refl => exact hk
  | tail _ hlast ih => exact ih.effect hlast

theorem Journal.HasEnded.effect (hk : l.journal.HasEnded k) (h : Effect p l m) :
    m.journal.HasEnded k := by
  obtain ⟨s, hs⟩ := hk
  exact ⟨s, hs.effect h⟩

theorem Journal.HasEnded.effects (hk : l.journal.HasEnded k) (h : Effects p l m) :
    m.journal.HasEnded k := by
  obtain ⟨s, hs⟩ := hk
  exact ⟨s, hs.effects h⟩

namespace Launch

/-- An end that was seen was seen before, or is told since. -/
theorem endSeen_of_append {id : ProcessId} {os : List Occurrence}
    (hh : m.history = os ++ l.history) (h : m.endSeen id = true) :
    (∃ status fault, .received (.notice (.exited id status fault)) ∈ os) ∨
      l.endSeen id = true := by
  obtain ⟨o, ho, htold⟩ := List.any_eq_true.mp h
  unfold since at ho
  rw [hh] at ho
  rcases mem_of_mem_takeWhile_append ho with hnew | hold
  · left
    unfold Occurrence.tellsEndOf at htold
    split at htold
    · obtain rfl : _ = id := of_decide_eq_true htold
      exact ⟨_, _, hnew⟩
    · cases htold
  · exact .inr (List.any_eq_true.mpr ⟨o, hold, htold⟩)

end Launch

/-- A process is kept under a record that was opened before, and its end was not seen. -/
theorem Effect.kept (h : Effect p l m) {r : RunningProcess} {w : Option Nat}
    (hk : .kept r w ∈ m.history) :
    .kept r w ∈ l.history ∨ r.record < l.journal.size ∧ m.endSeen r.info.id = false := by
  cases h with
  | spawn spec seq a t onExit h _ _ _ _ _ hseq =>
      obtain ⟨r', hrecord, hinfo, -, -, heq⟩ :=
        (l.withStarted h spec).attend_eq seq a onExit spec.name h
      rw [heq] at hk ⊢
      rcases List.mem_cons.mp hk with hnew | hold
      · cases hnew
        refine .inr ⟨by rw [hrecord]; exact hseq, ?_⟩
        rw [hinfo]
        simp [Launch.endSeen, Launch.since, Launch.withStarted, Occurrence.starts,
          Occurrence.tellsEndOf]
      · left
        simpa [Launch.withStarted] using hold
  | enter | leave | line | interrupt | unregister | emit | request | fail | failLate
  | cancelTimer | schedule | signalled => exact .inl (List.mem_of_ne_of_mem (by simp) hk)
  | failFast =>
      have hk' := List.mem_of_ne_of_mem (by simp) hk
      exact .inl (List.mem_of_ne_of_mem (by simp) hk')
  | _ => exact .inl hk

theorem Effect.endSeen (h : Effect p l m) {id : ProcessId} (hm : m.endSeen id = true) :
    l.endSeen id = true := by
  obtain ⟨os, hos, hq⟩ := h.grown.history
  rcases Launch.endSeen_of_append hos hm with ⟨status, fault, htold⟩ | hl
  · cases hq _ htold
  · exact hl

namespace Launch

/-- The record of a process is closed when its end has been seen. -/
structure ClosesSeen (l : Launch) : Prop where
  below : ∀ r w, .kept r w ∈ l.history → r.record < l.journal.size
  closed : ∀ r w, .kept r w ∈ l.history → l.endSeen r.info.id = true →
    l.journal.HasEnded r.record

theorem ClosesSeen.effect (hl : l.ClosesSeen) (h : Effect p l m) : m.ClosesSeen where
  below := by
    intro r w hk
    rcases h.kept hk with hold | ⟨hlt, -⟩
    · exact Nat.lt_of_lt_of_le (hl.below r w hold) h.size_le
    · exact Nat.lt_of_lt_of_le hlt h.size_le
  closed := by
    intro r w hk hseen
    rcases h.kept hk with hold | ⟨-, hunseen⟩
    · exact (hl.closed r w hold (h.endSeen hseen)).effect h
    · rw [hseen] at hunseen
      cases hunseen

theorem ClosesSeen.effects (hl : l.ClosesSeen) (h : Effects p l m) : m.ClosesSeen := by
  induction h with
  | refl => exact hl
  | tail _ hlast ih => exact ih.effect hlast

/-- What neither keeps a process nor tells of an end, and leaves the records alone. -/
theorem ClosesSeen.keep (hl : l.ClosesSeen) (os : List Occurrence) (hj : m.journal = l.journal)
    (hh : m.history = os ++ l.history) (hos : ∀ o ∈ os, o.isOfProcess = false) :
    m.ClosesSeen := by
  have hkept : ∀ r w, .kept r w ∈ m.history → .kept r w ∈ l.history := by
    intro r w hk
    rw [hh] at hk
    refine (List.mem_append.mp hk).resolve_left fun hnew => ?_
    cases hos _ hnew
  constructor
  · intro r w hk
    rw [hj]
    exact hl.below r w (hkept r w hk)
  · intro r w hk hseen
    rw [hj]
    rcases endSeen_of_append hh hseen with ⟨status, fault, htold⟩ | hseen'
    · cases hos _ htold
    · exact hl.closed r w (hkept r w hk) hseen'

theorem ClosesSeen.happen (hl : l.ClosesSeen) {o : Occurrence} (ho : o.isOfProcess = false)
    (hj : m.journal = l.journal) (hh : m.history = o :: l.history) : m.ClosesSeen := by
  apply hl.keep [o] hj hh
  intro o' ho'
  rw [List.mem_singleton.mp ho']
  exact ho

/-- The notice of the end of a process that is kept closes its record. -/
theorem hasEnded_processEnded {r : RunningProcess} (hr : r.record < l.journal.size)
    (status : ExitStatus) (fault : Option String) :
    (l.processEnded r status fault).journal.HasEnded r.record := by
  have hnoted : Effects (fun _ => True) l
      ((l.reportFault r.info.name fault).note r.record status.text) :=
    (reportFault_effects l r.info.name fault).snoc (.note r.record status.text)
  exact .of_advance (Nat.lt_of_lt_of_le hr hnoted.size_le) rfl

/-- A notice that makes the end of a process seen tells of that end. -/
theorem exited_of_endSeen {a : Arrival} {n : Notice} {id : ProcessId}
    (ha : a.message = .notice n) (hunseen : l.endSeen id = false)
    (hseen : ((l.arrive a).onNotice n).endSeen id = true) :
    ∃ status fault, n = .exited id status fault := by
  obtain ⟨s, -, heffects⟩ := (l.arrive a).onNotice_effects n
  obtain ⟨os, hos, hq⟩ := heffects.grown.history
  have hh : ((l.arrive a).onNotice n).history = (os ++ [.received a.message]) ++ l.history := by
    rw [hos, List.append_assoc]
    rfl
  rcases endSeen_of_append hh hseen with ⟨status, fault, htold⟩ | hbefore
  · rcases List.mem_append.mp htold with hnew | hlast
    · cases hq _ hnew
    · have heq := List.mem_singleton.mp hlast
      rw [ha] at heq
      cases heq
      exact ⟨status, fault, rfl⟩
  · rw [hunseen] at hbefore
    cases hbefore

variable {config : Config} {host : Host} {args : LaunchArguments}

/-- Nothing of a process is given up before its end is seen. -/
theorem entry_of_unseen (h : Moves Deed.ReportsNoEnd (start config host args) l)
    {r : RunningProcess} {w : Option Nat} (hk : .kept r w ∈ l.history)
    (hunseen : l.endSeen r.info.id = false) :
    l.processes.get? r.info.id.number = some r ∧ ∃ g, l.supervisor.find? r.info.id = some g := by
  have hlife := life_sound h r.info.id
  have hmem := mem_life_kept.mpr hk
  have hstarted := hlife.started_of_kept hmem
  obtain ⟨g, hg, -⟩ := (hlife.alive hstarted).mp hunseen
  cases hentry : (l.life r.info.id).entry with
  | none =>
      -- The entry goes at the end of a turn of the end, and that was seen before.
      have hsettled := (hlife.settled hstarted).mp hentry
      have hseen : l.endSeen r.info.id = true := (life_honest h r.info.id).settled hstarted hsettled
      rw [hunseen] at hseen
      cases hseen
  | some r' =>
      obtain ⟨w', hkept⟩ := hlife.entry r' hentry
      rw [hkept, List.mem_singleton] at hmem
      cases hmem
      exact ⟨hentry, g, hg⟩

/-- **The notice of an end closes the record of the process.** -/
theorem ClosesSeen.notice (hl : l.ClosesSeen)
    (h : Moves Deed.ReportsNoEnd (start config host args) l) {a : Arrival} {n : Notice}
    (ha : a.message = .notice n) : ((l.arrive a).onNotice n).ClosesSeen := by
  obtain ⟨s, -, heffects⟩ := (l.arrive a).onNotice_effects n
  have hkept : ∀ r w, .kept r w ∈ ((l.arrive a).onNotice n).history → .kept r w ∈ l.history := by
    obtain ⟨os, hos, hq⟩ := ((calm_arrive l a).trans (calm_onNotice _ n)).history
    intro r w hk
    rw [hos] at hk
    refine (List.mem_append.mp hk).resolve_left fun hnew => ?_
    cases hq _ hnew
  constructor
  · intro r w hk
    exact Nat.lt_of_lt_of_le (hl.below r w (hkept r w hk)) heffects.size_le
  · intro r w hk hseen
    have hold := hkept r w hk
    cases hunseen : l.endSeen r.info.id with
    | true =>
        have hended : ({ l.arrive a with supervisor := s } : Launch).journal.HasEnded r.record :=
          hl.closed r w hold hunseen
        exact hended.effects heffects
    | false =>
        obtain ⟨status, fault, rfl⟩ := exited_of_endSeen ha hunseen hseen
        obtain ⟨hentry, g, hg⟩ := entry_of_unseen h hold hunseen
        rcases (l.arrive a).onNotice_cases (.exited r.info.id status fault) with
            ⟨hnone, -⟩ | ⟨s', -, ⟨hnone, -⟩ | ⟨r', hr', ⟨_, _, _, heq, -⟩ | ⟨_, _, _, heq, hm⟩⟩⟩
        · rcases l.supervisor.absorb?_cases (.exited r.info.id status fault) with
              ⟨hf, -⟩ | ⟨_, -, ⟨_, _, _, -, hu⟩ | ⟨_, _, _, heq, -⟩⟩
          · cases hg.symm.trans hf
          · cases hu.symm.trans hnone
          · cases heq
        · cases hentry.symm.trans hnone
        · cases heq
        · cases heq
          cases hentry.symm.trans hr'
          have hopened : r.record < ({ l.arrive a with supervisor := s' } : Launch).journal.size :=
            hl.below r w hold
          rw [hm]
          exact hasEnded_processEnded hopened status fault

theorem ClosesSeen.releaseProcess (hl : l.ClosesSeen) (id : ProcessId) :
    (l.releaseProcess id).ClosesSeen := by
  rcases l.releaseProcess_cases id with ⟨-, h⟩ | ⟨g, -, -, h⟩
  · rw [h]
    exact hl.keep [] rfl rfl (by simp)
  · rw [h]
    exact hl.happen (o := .released g) rfl rfl rfl

theorem ClosesSeen.move (hl : l.ClosesSeen)
    (h : Moves Deed.ReportsNoEnd (start config host args) l)
    (hm : Move Deed.ReportsNoEnd l m) : m.ClosesSeen := by
  cases hm with
  | effect h => exact hl.effect h
  | notice a n hc hp ha => exact hl.notice h ha
  | take | ignore | answer | resume | close => exact hl.happen rfl rfl rfl
  | decline => exact hl.keep [] rfl rfl (by simp)
  | release q status r hc hr =>
      have hclosed : (l.closeTurn (.processExited q status)).ClosesSeen := hl.happen rfl rfl rfl
      exact hclosed.releaseProcess q.id
  | shutdown reason due hc hb =>
      obtain ⟨deadline, heffects⟩ := beginShutdown_effects (p := Deed.ReportsNoEnd) hb
      have hclosed : (l.closeTurn (.shutdownRequested reason due)).ClosesSeen :=
        hl.happen rfl rfl rfl
      have hbegun : ((l.closeTurn (.shutdownRequested reason due)).withShutdown reason
          deadline).ClosesSeen := hclosed.happen rfl rfl rfl
      exact hbegun.effects heffects
  | arrive a hc hp ha =>
      refine hl.happen (o := .received a.message) ?_ rfl rfl
      cases hmessage : a.message with
      | notice n => exact absurd hmessage (ha n)
      | _ => rfl
  | elapse id t hc hp ht =>
      have htaken : ({ l with timers := l.timers.erase id }.happen (.fired id)).ClosesSeen :=
        hl.happen rfl rfl rfl
      exact htaken.effects (elapse_effects l id t)
  | kill hc hp hs =>
      rcases killRemaining_effects (p := Deed.ReportsNoEnd) l with h | h
      · rw [h]
        exact hl
      · have hforced : ({ l with forced := true } : Launch).ClosesSeen :=
          hl.keep [] rfl rfl (by simp)
        exact hforced.effects h

/-- **Whatever moves a launch has made, the records of the processes whose end was seen are
closed.** -/
theorem closesSeen_of_moves (h : Moves Deed.ReportsNoEnd (start config host args) l) :
    l.ClosesSeen := by
  induction h with
  | refl => exact ⟨by simp [start], by simp [start]⟩
  | tail hbefore hlast ih => exact ih.move hbefore hlast

end Launch

/-! ## When a run has ended -/

namespace Launch

variable {config : Config} {host : Host} {args : LaunchArguments}

/-- An event whose turn is over was dispatched. -/
theorem dispatched_of_turnEnded (h : Moves p (start config host args) l) {e : Event}
    (he : .turnEnded e ∈ l.history) : .dispatched e ∈ l.history := by
  induction h with
  | refl => simp [start] at he
  | tail hbefore hlast ih =>
      rcases hlast.history.turnEnded he with hold | hc
      · exact hlast.history.mono (ih hold)
      · have hopen := (turnOpen_of_none (start_context config host args).current).moves hbefore
        obtain ⟨between, older, hh, -⟩ := hopen e hc
        apply hlast.history.mono
        rw [hh]
        exact List.mem_append_right between List.mem_cons_self

/-- An end that has had its turn was dispatched. -/
theorem dispatched_of_endSettled (h : Moves p (start config host args) l) {id : ProcessId}
    (hs : l.endSettled id = true) :
    ∃ q status, q.id = id ∧ .dispatched (.processExited q status) ∈ l.history := by
  obtain ⟨o, ho, hend⟩ := List.any_eq_true.mp hs
  have hmem : o ∈ l.history := (List.takeWhile_sublist _).subset ho
  cases o with
  | turnEnded e =>
      cases e with
      | processExited q status =>
          exact ⟨q, status, of_decide_eq_true hend, dispatched_of_turnEnded h hmem⟩
      | _ => cases hend
  | _ => cases hend

/-- As long as no shutdown is asked for, none begins. -/
theorem shutdown_of_unasked (h : Moves p (start config host args) l)
    (hc : l.context.current = none) (hp : l.context.pending = [])
    (hunasked : ∀ reason due, .emitted (.shutdownRequested reason due) ∉ l.history) :
    l.shutdown = none ∧ l.context.shuttingDown = false := by
  have horder := shutdownInOrder_of_moves h
  have hnone : l.shutdown = none := by
    cases hs : l.shutdown with
    | none => rfl
    | some s =>
        have hmem : s.reason ∈ l.requestReasons := by
          rw [horder.requested, shutdownReason?, hs]
          exact List.mem_singleton.mpr rfl
        obtain ⟨due, hdispatched⟩ := mem_requestReasons.mp hmem
        exact absurd ((queueInOrder_of_moves h).emitted hdispatched) (hunasked s.reason due)
  cases hf : l.context.shuttingDown with
  | false => exact ⟨hnone, rfl⟩
  | true =>
      have hsome := horder.begun_of_quiet hc hp hf
      rw [hnone] at hsome
      cases hsome

/-- When the books are in order, no timer is left and the end of every process was seen, all
records are closed. -/
theorem isFinished_finish (hbooked : l.Booked []) (hclosed : l.ClosesSeen)
    (hseen : ∀ r w, .kept r w ∈ l.history → l.endSeen r.info.id = true) :
    ∀ r ∈ l.finish.records, r.isFinished = true := by
  intro r hr
  rw [records_finish, Array.mem_toList_iff] at hr
  obtain ⟨k, hk, hget⟩ := Array.mem_iff_getElem.mp hr
  have hstage : l.closing.journal.stage? k = some r.stage := by
    unfold Journal.stage?
    rw [Array.getElem?_eq_getElem hk, hget, Option.map_some]
  have hclosing : l.closing.Booked [] := hbooked.cancelTimers _ _
  have heffects : Effects (fun _ => True) l l.closing := l.closing_effects
  rcases hclosing.accounted k r.stage hstage with
    hopen | hfinal | ⟨id, t, ht, -⟩ | ⟨r', w, hkept, hrecord⟩
  · cases hopen
  · exact hfinal
  · rw [timers_closing] at ht
    cases ht
  · have hbefore : .kept r' w ∈ l.history := (mem_closing (by simp)).mp hkept
    obtain ⟨s, hs, hfinal⟩ :=
      (hclosed.closed r' w hbefore (hseen r' w hbefore)).effects heffects
    rw [hrecord, hstage] at hs
    cases hs
    exact hfinal

end Launch

variable {config : Config} {host : Host} {args : LaunchArguments} {description : List Action}

/-- A run that was not forced has seen all processes end. -/
theorem Reachable.endSeen_of_not_forced (h : Reachable config host args description (.ended l))
    (hforced : l.finish.forced = false) {id : ProcessId} (hs : l.hasStarted id = true) :
    l.endSeen id = true := by
  obtain ⟨hmoves, -⟩ := h.moves_any
  have hlife := Launch.life_sound hmoves id
  cases hseen : l.endSeen id with
  | true => rfl
  | false =>
      obtain ⟨g, hg, ha⟩ := (hlife.alive hs).mp hseen
      have hset := h.forced_iff_live.1.mpr ⟨id, g, hg, ha⟩
      rw [Launch.forced_finish, hset] at hforced
      cases hforced

/-- A run without a shutdown ends when no timer is left. -/
theorem Reachable.timers_of_unasked (h : Reachable config host args description (.ended l))
    (hs : l.shutdown = none) (hf : l.context.shuttingDown = false) (id : Nat) :
    l.timers.get? id = none := by
  rcases h.ended_cases with ⟨-, hi⟩ | ⟨n, a, -, -, hasked, rfl⟩
  · unfold Launch.isIdle at hi
    rw [hs, Bool.and_eq_true] at hi
    exact Table.get?_of_isEmpty hi.2 id
  · -- Killing is the end of a shutdown that was asked for.
    have hflag : (n.arrive a).killRemaining.context.shuttingDown = true := by
      rcases Launch.killRemaining_effects (p := fun _ => True) (n.arrive a) with hk | hk
      · rw [hk]
        exact hasked
      · exact hk.grown.flag hasked
    rw [hf] at hflag
    cases hflag

/-- **Nothing is left open.** When a run has ended that was not forced, and no action reports the
end of a process, every record is skipped, completed or failed, no event waits and no timer is
pending, and the end of every process that was started had its turn. If moreover no shutdown was
asked for, every timer has fired, but for those that were scheduled in a group that failed. -/
theorem nothing_left_open (hall : ∀ a ∈ description, a.Every Deed.ReportsNoEnd)
    (h : Reachable config host args description (.ended l))
    (hforced : l.finish.forced = false) :
    (∀ r ∈ l.finish.records, r.isFinished = true) ∧
      l.closing.context.pending = [] ∧ (∀ id, l.closing.timers.get? id = none) ∧
      (∀ id spec, .started id spec ∈ l.history →
        ∃ q status, q.id = id ∧ .dispatched (.processExited q status) ∈ l.history) ∧
      ((∀ reason due, .emitted (.shutdownRequested reason due) ∉ l.history) →
        ∀ id t, .scheduled id t ∈ l.history →
          .fired id ∈ l.history ∨ FailedAround id l.history) := by
  obtain ⟨hstrides, hc⟩ := h.strides hall
  have hmoves : Moves Deed.ReportsNoEnd (.start config host args) l := Strides.moves hstrides
  have hbalanced := Launch.balanced_of_strides hstrides
  have hpending := h.pending_of_ended
  refine ⟨?_, ?_, l.timers_closing, ?_, ?_⟩
  · apply Launch.isFinished_finish hbalanced.booked (Launch.closesSeen_of_moves hmoves)
    intro r w hk
    apply h.endSeen_of_not_forced hforced
    exact (Launch.life_sound hmoves r.info.id).started_of_kept (Launch.mem_life_kept.mpr hk)
  · rw [l.context_closing]
    exact hpending
  · intro id spec hs
    have hstarted : l.hasStarted id = true := List.any_eq_true.mpr ⟨_, hs, decide_eq_true rfl⟩
    have hseen := h.endSeen_of_not_forced hforced hstarted
    exact Launch.dispatched_of_endSettled hmoves (h.settled_of_seen hpending hstarted hseen)
  · intro hunasked id t ht
    obtain ⟨hs, hf⟩ := Launch.shutdown_of_unasked hmoves hc hpending hunasked
    have hgone : (l.timing id).pending = none := h.timers_of_unasked hs hf id
    have hover : FiredOnce t (l.timerMarks id) ∨ CancelledOnce t (l.timerMarks id) :=
      (Launch.told_of_strides hstrides id).over hgone (Launch.scheduled_mem_timerMarks.mpr ht)
    rcases hover with ⟨early, late, hmarks⟩ | ⟨early, late, hmarks⟩
    · have hfired : .fired ∈ l.timerMarks id := by
        rw [hmarks]
        simp
      exact .inl (Launch.mem_timerMarks.mp hfired)
    · have hcancelled : .cancelled ∈ l.timerMarks id := by
        rw [hmarks]
        simp
      exact .inr (hbalanced.cancelled hs id (Launch.mem_timerMarks.mp hcancelled))

/-- Whether the run has ended on its own, with a process and a timer and without a shutdown. -/
def Standing.hasFinished : Standing → Bool
  | .waiting _ => false
  | .ended l =>
      l.hasStarted ⟨1⟩ && (l.timerMarks 1).any (·.isScheduled) && !l.finish.forced &&
        l.history.all fun | .emitted (.shutdownRequested ..) => false | _ => true

/-- A run whose process ends and whose timer fires leaves nothing open. -/
theorem first_done_leaves_nothing :
    ∃ l q status, Reachable .standard .willing []
        [.work 1 [], .later 2 "2" [.say 3 "tick"] true] (.ended l) ∧
      (∀ r ∈ l.finish.records, r.isFinished = true) ∧ q.id = ⟨1⟩ ∧
      .dispatched (.processExited q status) ∈ l.history ∧
      (.fired 1 ∈ l.history ∨ FailedAround 1 l.history) := by
  have hall : ∀ a ∈ [Action.work 1 [], .later 2 "2" [.say 3 "tick"] true],
      a.Every Deed.ReportsNoEnd := by
    simp [Action.work, Action.later, Action.say, Action.Every, Deed.Every, everyDeed,
      Deed.ReportsNoEnd]
  have hrun : Reachable.comesTo Standing.hasFinished ((Launch.begin .standard .willing []
      [.work 1 [], .later 2 "2" [.say 3 "tick"] true]).run 9
      [⟨.zero, .willing, .notice (.exited ⟨1⟩ ⟨some 0, none⟩ none)⟩,
        ⟨.zero, .willing, .timerFired 1⟩]) = true := by decide +kernel
  obtain ⟨s, hs, hcheck⟩ := Reachable.exists_of_comesTo 9 _ hrun
  cases s with
  | waiting l => cases hcheck
  | ended l =>
      simp only [Standing.hasFinished, Bool.and_eq_true, Bool.not_eq_true', List.all_eq_true]
        at hcheck
      obtain ⟨⟨⟨hstarted, hscheduled⟩, hforced⟩, hunasked⟩ := hcheck
      obtain ⟨hfinished, -, -, hexits, htimers⟩ := nothing_left_open hall hs hforced
      obtain ⟨t, ht⟩ := scheduled_of_any hscheduled
      obtain ⟨o, ho, hstarts⟩ := List.any_eq_true.mp hstarted
      cases o with
      | started id spec =>
          obtain rfl : id = ⟨1⟩ := of_decide_eq_true hstarts
          obtain ⟨q, status, hq, hdispatched⟩ := hexits _ spec ho
          refine ⟨l, q, status, hs, hfinished, hq, hdispatched, htimers ?_ 1 t ht⟩
          intro reason due hasked
          cases hunasked _ hasked
      | _ => cases hstarts

end Conductor
