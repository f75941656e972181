import Conductor.Report
import Conductor.Proofs.Record
import Conductor.Proofs.Launch.Bookkeeping
import Conductor.Proofs.Launch.Stretch
import Conductor.Proofs.Launch.Timing
import Conductor.Proofs.Launch.Upkeep

/-!
# Activations that fail

Whatever can go wrong with a deed goes wrong before the deed has changed anything. So when an
activation fails before a child is activated, and the failure is not one that a fail-fast launch
stops for, all that is left of it is its record, an entry among the errors, and the numbers that
an attempt to start a process uses up.
-/

namespace Conductor

/-- A record that has not ended takes the stage it is given. -/
theorem Record.stage_advance {r : Record} (h : r.isFinished = false) (s : Stage) :
    (r.advance s).stage = s := by
  have hgoing : ¬ r.stage.isFinal = true := ne_true_of_eq_false h
  unfold advance
  rw [if_neg hgoing]

namespace Launch

variable {l m n : Launch} {a : Action} {e : LaunchError}

/-! ## Deeds without children -/

/-- The second launch is the first one, but for the numbers that one attempt to start a process
uses up. -/
inductive Tried (l : Launch) : Launch → Prop where
  | intro (attempts nextId : Nat) (ha : attempts = l.attempts ∨ attempts = l.attempts + 1)
      (hn : nextId = l.supervisor.nextId ∨ nextId = l.supervisor.nextId + 1) :
      Tried l { l with attempts, supervisor := { l.supervisor with nextId } }

theorem Tried.refl (l : Launch) : l.Tried l :=
  .intro l.attempts l.supervisor.nextId (.inl rfl) (.inl rfl)

theorem tried_execute {seq : Nat} {t : ProcessTemplate} {onExit : List Action}
    (h : (l.execute seq a t onExit).2 = .error e) : l.Tried (l.execute seq a t onExit).1 := by
  have hattempt : l.Tried { l with attempts := l.attempts + 1 } :=
    .intro (l.attempts + 1) l.supervisor.nextId (.inr rfl) (.inl rfl)
  unfold execute at h ⊢
  cases hcommand : l.context.resolveAll t.command with
  | error e' => exact .refl l
  | ok command =>
      rw [hcommand] at h
      dsimp only at h ⊢
      cases hspec : t.toSpec l.context l.config.defaultOutput (l.attempts + 1) command with
      | error e' => exact hattempt
      | ok spec =>
          rw [hspec] at h
          dsimp only at h ⊢
          cases hs : ({ l with attempts := l.attempts + 1 } : Launch).startProcess spec with
          | mk r n =>
              rw [hs] at h
              cases r with
              | ok g => cases h
              | error e' =>
                  rw [startProcess_error hs]
                  exact .intro (l.attempts + 1) (l.supervisor.nextId + 1) (.inr rfl) (.inr rfl)

/-- **A deed without children that fails has changed nothing.** -/
theorem tried_performLeaf {seq : Nat} {d : Deed} (h : (l.performLeaf seq a d).2 = .error e) :
    l.Tried (l.performLeaf seq a d).1 := by
  cases d with
  | execute t onExit => exact tried_execute h
  | log level message =>
      rw [performLeaf] at h ⊢
      cases hm : l.context.resolve message with
      | error e' => exact .refl l
      | ok text =>
          rw [hm] at h
          cases h
  | declare argument =>
      rw [performLeaf] at h ⊢
      cases hargument : argument.resolve l.context with
      | error e' => exact .refl l
      | ok declared =>
          rw [hargument] at h
          dsimp only at h ⊢
          cases hdeclare : l.context.declare declared with
          | error e' => exact .refl l
          | ok c =>
              rw [hdeclare] at h
              cases h
  | setVariable target name value =>
      rw [performLeaf] at h ⊢
      cases hvalue : value.resolve l.context with
      | error e' => exact .refl l
      | ok v =>
          rw [hvalue] at h
          dsimp only at h
          cases hwrite : l.context.write target name v with
          | mk granted c =>
              rw [hwrite] at h
              cases granted <;> cases h
  | setEnv name value =>
      rw [performLeaf] at h ⊢
      cases hvalue : l.context.resolve value with
      | error e' => exact .refl l
      | ok text =>
          rw [hvalue] at h
          cases h
  | timer period children cancel =>
      rw [performLeaf] at h ⊢
      cases hperiod : l.context.resolve period with
      | error e' => exact .refl l
      | ok text =>
          rw [hperiod] at h
          dsimp only at h ⊢
          cases hdelay : readPeriod text with
          | error e' => exact .refl l
          | ok delay =>
              rw [hdelay] at h
              cases h
  | shutdown reason =>
      rw [performLeaf] at h ⊢
      cases hreason : l.context.resolve reason with
      | error e' => exact .refl l
      | ok text =>
          rw [hreason] at h
          dsimp only at h
          cases hrequest : l.requestShutdown text false with
          | mk first n =>
              rw [hrequest] at h
              cases first <;> cases h
  | unsetVariable | unsetEnv | register | unregister | emit | group | splice | compute => cases h

/-! ## From the record to the failure -/

/-- The second launch is the first one once the record of the action is open. Its function, if it
has one, may have asked for an interrupt. -/
inductive Opened (l : Launch) (a : Action) : Launch → Prop where
  | intro (r : Record) (asked : List Occurrence) (hseq : r.seq = l.journal.size) (hof : r.IsOf a)
      (hgoing : r.isFinished = false) (hasked : ∀ o ∈ asked, o = .interrupted) :
      Opened l a
        { l with
          journal := ⟨l.journal.records.push r⟩
          history := asked ++ .entered l.journal.size a :: l.history }

theorem opened_enter (l : Launch) (a : Action) : l.Opened a (l.enter a).2 :=
  .intro (.opened l.journal.size a) [] rfl ⟨rfl, rfl, rfl⟩ rfl (List.forall_mem_nil _)

theorem Opened.advance (h : l.Opened a m) {s : Stage} (hs : s.isFinal = false) :
    l.Opened a (m.advance l.journal.size s) := by
  obtain ⟨r, asked, hseq, hof, hgoing, hasked⟩ := h
  have hgoing' : (r.advance s).isFinished = false := by
    rw [Record.isFinished, Record.stage_advance hgoing]
    exact hs
  unfold Launch.advance
  dsimp only
  rw [Journal.advance, show (l.journal.records.push r).modify l.journal.size _ = _ from
    Journal.modify_push l.journal.records r (·.advance s)]
  exact .intro (r.advance s) asked ((r.seq_advance s).trans hseq)
    (hof.becomes (r.becomes_advance s)) hgoing' hasked

theorem Admits.opened (h : l.Admits a m) : l.Opened a m := by
  have henter := opened_enter l a
  obtain ⟨n, rfl | rfl, rfl⟩ := h.cases
  · exact (henter.advance rfl).advance rfl
  · exact ((henter.advance rfl).advance rfl).advance rfl

theorem Opened.asked (h : l.Opened a m) (d : Deed) : l.Opened a (m.asked d) := by
  have hheard (y : Yield) : l.Opened a (m.heard y) := by
    unfold heard
    split
    · obtain ⟨r, asked, hseq, hof, hgoing, hasked⟩ := h
      exact .intro r (.interrupted :: asked) hseq hof hgoing
        (List.forall_mem_cons.mpr ⟨rfl, hasked⟩)
    · exact h
  unfold Launch.asked
  split
  · exact hheard _
  · exact hheard _
  · exact h

theorem Opened.size (h : l.Opened a m) : m.journal.size = l.journal.size + 1 := by
  cases h
  exact Array.size_push _

/-! ## Failures of children -/

theorem size_lt_activate (a : Action) (l : Launch) :
    l.journal.size < (activate a l).1.journal.size := by
  obtain ⟨x, hx, ha⟩ := exists_leave (fun _ b _ k => activate_files b k) (a := a) l
  have hopened : (l.enter a).2.journal.size = l.journal.size + 1 := l.journal.size_enter a
  have hsize : (activate a l).1.journal.size = x.1.journal.size := by
    rw [ha]
    rfl
  have hle := hx.size
  omega

theorem size_lt_activateChildren (a : Action) (rest : List Action) (l : Launch) :
    l.journal.size < (activateChildren (a :: rest) l).1.journal.size := by
  have hfirst := size_lt_activate a l
  cases hesc : (activate a l).2.escalates with
  | true =>
      obtain ⟨reason, hreason⟩ := exists_reason_of_escalates hesc
      rw [activateChildren_of_escalates hreason rest]
      exact Nat.lt_of_lt_of_le hfirst (files_skipAll _ rest _).size
  | false =>
      rw [activateChildren_of_not_escalates hesc rest]
      exact Nat.lt_of_lt_of_le hfirst (activateChildren_files (fun b _ => activate_files b) _).size

theorem size_le_asGroup (l : Launch) (scope : Scope) (f : Launch → Launch × Option LaunchError) :
    (f (l.beginGroup.inScope scope)).1.journal.size ≤ (l.asGroup scope f).1.journal.size := by
  rw [asGroup_eq]
  dsimp only
  have hend := fun k => (endGroup_effects (p := fun _ => True) (f (l.beginGroup.inScope scope)).2 k)
  exact (hend { (f (l.beginGroup.inScope scope)).1 with
    context := (f (l.beginGroup.inScope scope)).1.context.restore l.context.depth }).size_le

/-- A plan that fails was refused, or a child has been activated. -/
theorem refused_or_size_lt {plan : Plan} (h : (l.follow plan).2 = some e) :
    plan = .refused e ∨ l.journal.size < (l.follow plan).1.journal.size := by
  cases plan with
  | direct => cases h
  | refused e' =>
      cases h
      exact .inl rfl
  | here children =>
      cases children with
      | nil => cases h
      | cons b rest => exact .inr (size_lt_activateChildren b rest l)
  | inside scope children =>
      cases children with
      | nil => cases h
      | cons b rest =>
          have hinside := size_lt_activateChildren b rest (l.beginGroup.inScope scope)
          exact .inr (Nat.lt_of_lt_of_le hinside (size_le_asGroup l scope _))

/-- A condition that cannot be decided is asked once the record is open. -/
theorem opened_of_gate_failed {escalates : Bool} {reason : String}
    (h : (l.enter a).2.gate l.journal.size a = (m, some (.failed escalates reason))) :
    ∃ n e, l.Opened a n ∧ (m, .failed escalates reason) = n.fail l.journal.size a.deed e := by
  obtain ⟨n, hn, hcases⟩ := gate_cases (l.enter a).2 l.journal.size a
  have hopened : l.Opened a n := by
    rcases hn with rfl | rfl
    · exact opened_enter l a
    · exact (opened_enter l a).advance rfl
  rw [h] at hcases
  rcases hcases with heq | heq | heq | ⟨e, heq⟩
  · cases heq
  · cases heq
  · cases heq
  · cases heq
    exact ⟨n, e, hopened, rfl⟩

/-- A deed that fails without a child is one without children, or its plan was refused. -/
theorem tried_of_perform_error (ha : l.Admits a m)
    (h : perform l.journal.size a a.deed m = (n, .error e))
    (hchildren : a.deed.isLeaf = true ∨ n.journal.size ≤ l.journal.size + 1) :
    ∃ k, l.Opened a k ∧ k.Tried n := by
  rw [perform_eq] at h
  cases hleaf : a.deed.isLeaf with
  | true =>
      rw [if_pos hleaf] at h
      have htried := tried_performLeaf (congrArg Prod.snd h)
      rw [h] at htried
      exact ⟨m, ha.opened, htried⟩
  | false =>
      have hasked := ha.opened.asked a.deed
      rw [hleaf] at h hchildren
      have hsize := hchildren.resolve_left Bool.false_ne_true
      rw [if_neg Bool.false_ne_true] at h
      cases hfollow : (m.asked a.deed).follow (a.deed.plan m.context) with
      | mk n' failure =>
          rw [hfollow] at h
          cases failure with
          | none => cases h
          | some e' =>
              cases h
              rcases refused_or_size_lt (congrArg Prod.snd hfollow) with hplan | hlt
              · rw [hplan] at hfollow
                cases hfollow
                exact ⟨_, hasked, .refl _⟩
              · rw [hfollow, hasked.size] at hlt
                exact absurd hsize (Nat.not_le_of_lt hlt)

/-- Where no child is activated, a failure is reported of a launch in which nothing has changed. -/
theorem exists_fail {escalates : Bool} {reason : String}
    (hfails : (activate a l).2 = .failed escalates reason)
    (hchildren : a.deed.isLeaf = true ∨ (activate a l).1.journal.size = l.journal.size + 1) :
    ∃ m n e, l.Opened a m ∧ m.Tried n ∧
      activate a l = leave l.journal.size (n.fail l.journal.size a.deed e) := by
  rw [activate_eq] at hfails hchildren ⊢
  cases hgate : (l.enter a).2.gate l.journal.size a with
  | mk m refused =>
      rw [hgate] at hfails hchildren
      cases refused with
      | some outcome =>
          obtain rfl : outcome = .failed escalates reason := hfails
          obtain ⟨n, e, hopened, heq⟩ := opened_of_gate_failed hgate
          exact ⟨n, n, e, hopened, .refl n, congrArg (leave l.journal.size) heq⟩
      | none =>
          dsimp only at hfails hchildren ⊢
          cases hperformed : perform l.journal.size a a.deed m with
          | mk n r =>
              rw [hperformed] at hfails hchildren
              match r with
              | .ok .done => cases hfails
              | .ok .running => cases hfails
              | .error e =>
                  have hgrown : n.journal.size ≤
                      (n.fail l.journal.size a.deed e).1.journal.size :=
                    (fail_effects (p := fun _ => True) n _ a.deed e).size_le
                  have hsize :=
                    hchildren.imp_right fun heq => Nat.le_trans hgrown (Nat.le_of_eq heq)
                  obtain ⟨k, hopened, htried⟩ := tried_of_perform_error hgate hperformed hsize
                  exact ⟨k, n, e, hopened, htried, rfl⟩

/-- In a launch that goes on after failures, a failure is told and closes its record. -/
theorem fail_of_goOn (hpolicy : l.config.failurePolicy = .goOn) (seq : Nat) (d : Deed)
    (e : LaunchError) :
    l.fail seq d e =
      ((l.happen (.failed e.kind e.message)).advance seq (.failed e.message),
        .failed d.escalates e.message) := by
  have hgoesOn : ¬ (l.config.failurePolicy = .failFast ∧ l.fatal = none) := by
    rw [hpolicy]
    rintro ⟨h, -⟩
    cases h
  have hnone : ((l.happen (.failed e.kind e.message)).advance seq (.failed e.message)).onFailure
      e.message = _ := if_neg hgoesOn
  rw [fail, hnone]

/-- **A failed activation changes nothing.** In a launch that goes on after failures, an activation
that fails while no record but its own has been opened leaves the launch as it was, the scopes, the
argument table, the events that wait, the handlers, the timers, the processes and their handles
included. What is added is the record of the activation, one entry among the errors and what the
history tells of it, and an attempt to start a process uses up its numbers. -/
theorem failed_activation_changes_nothing {l : Launch} {a : Action} {escalates : Bool}
    {reason : String} (hpolicy : l.config.failurePolicy = .goOn)
    (hfails : (activate a l).2 = .failed escalates reason)
    (hchildren : a.deed.isLeaf = true ∨ (activate a l).1.journal.size = l.journal.size + 1) :
    ∃ r kind attempts nextId asked,
      (activate a l).1 =
        { l with
          journal := ⟨l.journal.records.push r⟩
          attempts
          supervisor := { l.supervisor with nextId }
          history := .left l.journal.size (.failed escalates reason) :: .failed kind reason ::
            (asked ++ .entered l.journal.size a :: l.history) } ∧
      (r.seq = l.journal.size ∧ r.IsOf a ∧ r.stage = .failed reason) ∧
      (activate a l).1.errors = l.errors ++ [⟨kind, reason⟩] ∧
      (attempts = l.attempts ∨ attempts = l.attempts + 1) ∧
      (nextId = l.supervisor.nextId ∨ nextId = l.supervisor.nextId + 1) ∧
      ∀ o ∈ asked, o = .interrupted := by
  obtain ⟨m, n, e, hopened, htried, hactivate⟩ := exists_fail hfails hchildren
  have hgoesOn : n.config.failurePolicy = .goOn := by
    cases hopened
    cases htried
    exact hpolicy
  rw [fail_of_goOn hgoesOn] at hactivate
  obtain ⟨r, asked, hseq, hof, hgoing, hasked⟩ := hopened
  obtain ⟨attempts, nextId, hattempts, hnextId⟩ := htried
  -- What the failure reports is its outcome.
  have houtcome : Outcome.failed a.deed.escalates e.message = .failed escalates reason := by
    rw [hactivate] at hfails
    exact hfails
  cases houtcome
  have hrecords := Journal.modify_push l.journal.records r (·.advance (.failed e.message))
  have hleft : (activate a l).1 =
      { l with
        journal := ⟨l.journal.records.push (r.advance (.failed e.message))⟩
        attempts
        supervisor := { l.supervisor with nextId }
        history := .left l.journal.size (.failed a.deed.escalates e.message) ::
          .failed e.kind e.message :: (asked ++ .entered l.journal.size a :: l.history) } := by
    rw [hactivate, ← hrecords]
    rfl
  have hnoError : asked.reverse.filterMap Occurrence.error? = [] := by
    refine List.filterMap_eq_nil_iff.mpr fun o ho => ?_
    rw [hasked o (List.mem_reverse.mp ho)]
    rfl
  refine ⟨r.advance (.failed e.message), e.kind, attempts, nextId, asked, hleft,
    ⟨(r.seq_advance _).trans hseq, hof.becomes (r.becomes_advance _),
      Record.stage_advance hgoing _⟩, ?_, hattempts, hnextId, hasked⟩
  rw [hleft]
  simp [errors, occurrences, List.filterMap_cons, hnoError, Occurrence.error?]

/-- A machine on which one process runs and no further one can be started. -/
def full : Host :=
  { Host.willing with start := fun id _ => if id.number = 1 then .ok 101 else .error .notFound }

/-- A launch on it with a process, what is to follow its end, and a timer. -/
def occupied : Launch :=
  activateAll [.work 1 [.say 2 "done"], .later 3 "5" [.say 4 "tick"] true]
    (start .standard full [("mode", "test")])

/-- An attempt to start a second process fails and leaves everything as it was. -/
theorem occupied_stays_after_failed_start :
    occupied.config.failurePolicy = .goOn ∧
      (activate (.work 5 [.say 6 "over"]) occupied).2 =
        .failed false "failed to spawn process 'w': executable not found: worker" ∧
      (occupied.processes.size = 1 ∧ occupied.timers.size = 1) ∧
      ∃ journal history, (activate (.work 5 [.say 6 "over"]) occupied).1 =
        { occupied with
          journal
          attempts := 2
          supervisor := { occupied.supervisor with nextId := 3 }
          history } := by
  have hpolicy : occupied.config.failurePolicy = .goOn := by decide +kernel
  have hfails : (activate (.work 5 [.say 6 "over"]) occupied).2 =
      .failed false "failed to spawn process 'w': executable not found: worker" := by
    decide +kernel
  have hattempts : (activate (.work 5 [.say 6 "over"]) occupied).1.attempts = 2 := by
    decide +kernel
  have hnextId : (activate (.work 5 [.say 6 "over"]) occupied).1.supervisor.nextId = 3 := by
    decide +kernel
  refine ⟨hpolicy, hfails, by decide +kernel, ?_⟩
  obtain ⟨r, kind, attempts, nextId, asked, hleft, -⟩ :=
    failed_activation_changes_nothing hpolicy hfails (.inl rfl)
  rw [hleft] at hattempts hnextId ⊢
  obtain rfl : attempts = 2 := hattempts
  obtain rfl : nextId = 3 := hnextId
  exact ⟨_, _, rfl⟩

end Launch

end Conductor
