import Conductor.Proofs.Launch.Ending
import Conductor.Proofs.Launch.Ledger
import Conductor.Proofs.Launch.Upkeep

/-!
# The accounts of a launch

An error is reported when an activation fails, and otherwise only when a handler or a supervised
process goes wrong. `Accounted` says that the errors reported so far are made of two lists: one
error for each record that has failed, and the faults that belong to no record. Activations add
to the first list alone (`upheld_accounted`): whoever fails closes his own record, which nobody
else has closed before.
-/

namespace Conductor

/-! ## Interleavings -/

/-- The third list is made of the items of the first two, each of which stays in its order. -/
inductive Interleaves {α : Type} : List α → List α → List α → Prop where
  | nil : Interleaves [] [] []
  | left {x : α} {xs ys zs : List α} (h : Interleaves xs ys zs) :
      Interleaves (x :: xs) ys (x :: zs)
  | right {y : α} {xs ys zs : List α} (h : Interleaves xs ys zs) :
      Interleaves xs (y :: ys) (y :: zs)

namespace Interleaves

variable {α : Type} {xs xs' ys ys' zs zs' : List α}

theorem append (h : Interleaves xs ys zs) (h' : Interleaves xs' ys' zs') :
    Interleaves (xs ++ xs') (ys ++ ys') (zs ++ zs') := by
  induction h with
  | nil => exact h'
  | left _ ih => exact ih.left
  | right _ ih => exact ih.right

theorem ofLeft (xs : List α) : Interleaves xs [] xs := by
  induction xs with
  | nil => exact .nil
  | cons x rest ih => exact ih.left

theorem ofRight (ys : List α) : Interleaves [] ys ys := by
  induction ys with
  | nil => exact .nil
  | cons y rest ih => exact ih.right

end Interleaves

/-! ## Failures on the history -/

namespace Occurrence

/-- The record whose activation has failed, and why. -/
def failedRecord? : Occurrence → Option (Nat × String)
  | .left k (.failed _ reason) => some (k, reason)
  | _ => none

/-- Whether an error is reported, or an activation has failed. -/
def isFailure (o : Occurrence) : Bool :=
  o.error?.isSome || o.failedRecord?.isSome

theorem isFailure_of_isOfDeed {o : Occurrence} (h : o.isOfDeed = true) : o.isFailure = false := by
  cases o <;> first | rfl | cases h

end Occurrence

/-- An error as it is reported. -/
def LaunchError.reported (e : LaunchError) : ReportedError :=
  ⟨e.kind, e.message⟩

namespace Launch

/-- The records whose activation has failed, each with the reason, in the order in which they
failed. -/
def failedRecords (l : Launch) : List (Nat × String) :=
  l.occurrences.filterMap Occurrence.failedRecord?

/-- No error is reported and no activation fails between the two launches. -/
def Unfailing (l m : Launch) : Prop :=
  ∃ os, m.history = os ++ l.history ∧ ∀ o ∈ os, o.isFailure = false

variable {l m n : Launch} {faults : List LaunchError} {opened opened' : List Nat} {seq : Nat}

theorem Unfailing.refl (l : Launch) : l.Unfailing l :=
  ⟨[], rfl, by simp⟩

theorem Unfailing.trans (h : l.Unfailing m) (h' : m.Unfailing n) : l.Unfailing n := by
  obtain ⟨os, hos, hq⟩ := h
  obtain ⟨os', hos', hq'⟩ := h'
  refine ⟨os' ++ os, by rw [hos', hos, List.append_assoc], fun o ho => ?_⟩
  exact (List.mem_append.mp ho).elim (hq' o) (hq o)

theorem unfailing_of_same (hh : m.history = l.history) : l.Unfailing m :=
  ⟨[], hh, by simp⟩

theorem unfailing_of_cons {o : Occurrence} (ho : o.isFailure = false)
    (hh : m.history = o :: l.history) : l.Unfailing m :=
  ⟨[o], hh, by simpa using ho⟩

theorem failedRecords_append (os : List Occurrence) (hos : m.history = os ++ l.history) :
    m.failedRecords = l.failedRecords ++ os.reverse.filterMap (·.failedRecord?) :=
  filterMap_occurrences_append _ hos

theorem Unfailing.failedRecords (h : l.Unfailing m) : m.failedRecords = l.failedRecords := by
  obtain ⟨os, hos, hq⟩ := h
  refine filterMap_occurrences_of_none hos fun o ho => ?_
  have hnot := hq o ho
  simpa [Occurrence.isFailure] using (Bool.or_eq_false_iff.mp hnot).2

theorem Unfailing.errors (h : l.Unfailing m) : m.errors = l.errors := by
  obtain ⟨os, hos, hq⟩ := h
  refine filterMap_occurrences_of_none hos fun o ho => ?_
  have hnot := hq o ho
  simpa [Occurrence.isFailure] using (Bool.or_eq_false_iff.mp hnot).1

theorem unfailing_requestShutdown (l : Launch) (reason : String) (due : Bool) :
    l.Unfailing (l.requestShutdown reason due).2 := by
  unfold requestShutdown
  split
  · exact .refl l
  · exact unfailing_of_cons (o := .emitted (.shutdownRequested reason due)) rfl rfl

theorem unfailing_onFailure (l : Launch) (reason : String) :
    l.Unfailing (l.onFailure reason) := by
  unfold onFailure
  split
  · exact (unfailing_of_same (m := { l with fatal := some reason }) rfl).trans
      (unfailing_requestShutdown _ _ _)
  · exact .refl l

/-! ## The accounts -/

/-- The errors reported so far are made of one for each record that has failed and of the faults.
The activations of the open records are still going on. -/
structure Accounted (faults : List LaunchError) (opened : List Nat) (l : Launch) : Prop where
  errors : ∃ xs : List (Nat × ReportedError),
    xs.map (fun x => (x.1, x.2.message)) = l.failedRecords ∧
      Interleaves (xs.map (·.2)) (faults.map (·.reported)) l.errors
  once : (l.failedRecords.map (·.1)).Nodup
  failed : ∀ k reason, (k, reason) ∈ l.failedRecords ↔
    l.journal.stage? k = some (.failed reason)
  distinct : opened.Nodup
  unfinished : ∀ k ∈ opened, ∃ s, l.journal.stage? k = some s ∧ s.isFinal = false
  /-- A timer closes no record whose activation is still going on. -/
  timed : ∀ id t k, l.timers.get? id = some t → t.record = some k →
    k < l.journal.size ∧ k ∉ opened

/-- Where nothing fails, the accounts depend on which records are open and which have failed. -/
theorem Accounted.of_unfailing (hl : l.Accounted faults opened) (h : l.Unfailing m)
    (hfailed : ∀ k reason, m.journal.stage? k = some (.failed reason) ↔
      l.journal.stage? k = some (.failed reason))
    (hdistinct : opened'.Nodup)
    (hunfinished : ∀ k ∈ opened', ∃ s, m.journal.stage? k = some s ∧ s.isFinal = false)
    (htimed : ∀ id t k, m.timers.get? id = some t → t.record = some k →
      k < m.journal.size ∧ k ∉ opened') : m.Accounted faults opened' where
  errors := by
    rw [h.failedRecords, h.errors]
    exact hl.errors
  once := by
    rw [h.failedRecords]
    exact hl.once
  failed k reason := by
    rw [h.failedRecords, hl.failed, hfailed]
  distinct := hdistinct
  unfinished := hunfinished
  timed := htimed

theorem Accounted.keep (hl : l.Accounted faults opened) (hb : l.SameBooks m)
    (h : l.Unfailing m) : m.Accounted faults opened := by
  refine hl.of_unfailing h (fun k reason => by rw [hb.stage]) hl.distinct ?_ ?_
  · intro k hk
    rw [hb.stage]
    exact hl.unfinished k hk
  · intro id t k ht hk
    rw [hb.timers] at ht
    rw [hb.size]
    exact hl.timed id t k ht hk

theorem Accounted.happen (hl : l.Accounted faults opened) {o : Occurrence}
    (ht : o.isOfTimer = false) (ho : o.isFailure = false) :
    (l.happen o).Accounted faults opened :=
  hl.keep (sameBooks_happen l ht) (unfailing_of_cons ho rfl)

theorem Accounted.note (hl : l.Accounted faults opened) (seq : Nat) (text : String) :
    (l.note seq text).Accounted faults opened :=
  hl.keep (sameBooks_note l seq text) (unfailing_of_same rfl)

theorem Accounted.onFailure (hl : l.Accounted faults opened) (reason : String) :
    (l.onFailure reason).Accounted faults opened :=
  hl.keep (sameBooks_onFailure l reason) (unfailing_onFailure l reason)

theorem Accounted.drop (hl : l.Accounted faults (seq :: opened)) : l.Accounted faults opened where
  errors := hl.errors
  once := hl.once
  failed := hl.failed
  distinct := (List.nodup_cons.mp hl.distinct).2
  unfinished k hk := hl.unfinished k (List.mem_cons_of_mem seq hk)
  timed id t k ht hk :=
    ⟨(hl.timed id t k ht hk).1, (List.ne_and_not_mem_of_not_mem_cons (hl.timed id t k ht hk).2).2⟩

/-- A record is added that has not failed. -/
theorem Accounted.add (hl : l.Accounted faults opened) (h : l.Unfailing m)
    (ht : m.timers = l.timers) (hsize : m.journal.size = l.journal.size + 1) {s : Stage}
    (hs : ∀ reason, s ≠ .failed reason)
    (hstage : ∀ k, m.journal.stage? k =
      if k = l.journal.size then some s else l.journal.stage? k) : m.Accounted faults opened := by
  have hne : ∀ {k s}, l.journal.stage? k = some s → k ≠ l.journal.size := fun hk =>
    Nat.ne_of_lt (Journal.lt_size_of_stage? hk)
  refine hl.of_unfailing h (fun k reason => ?_) hl.distinct ?_ ?_
  · rw [hstage]
    split
    · rename_i heq
      exact ⟨fun h => absurd (Option.some.inj h) (hs reason), fun h => absurd heq (hne h)⟩
    · exact Iff.rfl
  · intro k hk
    obtain ⟨s', hs', hopen⟩ := hl.unfinished k hk
    exact ⟨s', (hstage k).trans ((if_neg (hne hs')).trans hs'), hopen⟩
  · intro id t k hpending hk
    rw [ht] at hpending
    obtain ⟨hlt, hnot⟩ := hl.timed id t k hpending hk
    exact ⟨by omega, hnot⟩

/-- The record of an activation that begins is open. -/
theorem Accounted.enter (hl : l.Accounted faults opened) (a : Action) :
    (l.enter a).2.Accounted faults (l.journal.size :: opened) := by
  have hstage : ∀ k, (l.enter a).2.journal.stage? k =
      if k = l.journal.size then some .pending else l.journal.stage? k := l.journal.stage?_enter a
  have hadded : (l.enter a).2.Accounted faults opened :=
    hl.add (unfailing_of_cons (o := .entered l.journal.size a) rfl rfl) rfl
      (l.journal.size_enter a) (by simp) hstage
  refine ⟨hadded.errors, hadded.once, hadded.failed, ?_, ?_, ?_⟩
  · refine List.nodup_cons.mpr ⟨fun hmem => ?_, hl.distinct⟩
    obtain ⟨s, hs, -⟩ := hl.unfinished _ hmem
    exact Nat.lt_irrefl _ (Journal.lt_size_of_stage? hs)
  · intro k hk
    rcases List.mem_cons.mp hk with rfl | hk
    · exact ⟨.pending, (hstage _).trans (if_pos rfl), rfl⟩
    · exact hadded.unfinished k hk
  · intro id t k ht hk
    obtain ⟨hlt, hnot⟩ := hl.timed id t k ht hk
    exact ⟨(hadded.timed id t k ht hk).1,
      List.not_mem_cons_of_ne_of_not_mem (Nat.ne_of_lt hlt) hnot⟩

/-- A record may be moved on, and closed if its activation is not going on, but for a failure. -/
theorem Accounted.advance (hl : l.Accounted faults opened) {s : Stage}
    (hs : ∀ reason, s ≠ .failed reason) (hclose : s.isFinal = true → seq ∉ opened) :
    (l.advance seq s).Accounted faults opened := by
  have hstage : ∀ k, (l.advance seq s).journal.stage? k = if k = seq then
      (l.journal.stage? k).map fun s' => if s'.isFinal then s' else s
      else l.journal.stage? k := l.journal.stage?_advance seq s
  refine hl.of_unfailing (unfailing_of_same rfl) ?_ hl.distinct ?_ ?_
  · intro k reason
    rw [hstage]
    split
    · cases hk : l.journal.stage? k with
      | none => exact ⟨nofun, nofun⟩
      | some s' =>
          simp only [Option.map_some, Option.some.injEq]
          constructor
          · intro h
            split at h
            · exact h
            · exact absurd h (hs reason)
          · rintro rfl
            rfl
    · exact Iff.rfl
  · intro k hk
    obtain ⟨s', hs', hopen⟩ := hl.unfinished k hk
    rw [hstage]
    split
    · rename_i heq
      refine ⟨s, by rw [hs', Option.map_some, hopen]; rfl, ?_⟩
      rw [Bool.eq_false_iff]
      exact fun hfinal => hclose hfinal (heq ▸ hk)
    · exact ⟨s', hs', hopen⟩
  · intro id t k ht hk
    rw [show (l.advance seq s).journal.size = l.journal.size from l.journal.size_advance seq s]
    exact hl.timed id t k ht hk

/-- Between the report of an error and the end of the activation that failed at most a shutdown is
requested. -/
theorem history_fail (l : Launch) (seq : Nat) (d : Deed) (e : LaunchError) :
    ∃ os, (leave seq (l.fail seq d e)).1.history =
        (.left seq (.failed d.escalates e.message) :: os ++ [.failed e.kind e.message]) ++
          l.history ∧
      os.filterMap (·.error?) = [] ∧ os.filterMap (·.failedRecord?) = [] := by
  let failing := (l.happen (.failed e.kind e.message)).advance seq (.failed e.message)
  obtain ⟨os, hos, hq⟩ := unfailing_onFailure failing e.message
  have hnone : ∀ o ∈ os, o.error? = none ∧ o.failedRecord? = none := by
    intro o ho
    simpa [Occurrence.isFailure] using hq o ho
  refine ⟨os, ?_, List.filterMap_eq_nil_iff.mpr fun o ho => (hnone o ho).1,
    List.filterMap_eq_nil_iff.mpr fun o ho => (hnone o ho).2⟩
  show .left seq (.failed d.escalates e.message) :: (failing.onFailure e.message).history = _
  rw [hos]
  simp [failing, Launch.happen, Launch.advance]

theorem errors_fail (l : Launch) (seq : Nat) (d : Deed) (e : LaunchError) :
    (leave seq (l.fail seq d e)).1.errors = l.errors ++ [e.reported] := by
  obtain ⟨os, hos, hnone, -⟩ := history_fail l seq d e
  rw [errors_append _ hos, List.filterMap_reverse, List.cons_append, List.filterMap_cons_none rfl,
    List.filterMap_append, hnone]
  rfl

theorem failedRecords_fail (l : Launch) (seq : Nat) (d : Deed) (e : LaunchError) :
    (leave seq (l.fail seq d e)).1.failedRecords = l.failedRecords ++ [(seq, e.message)] := by
  obtain ⟨os, hos, -, hnone⟩ := history_fail l seq d e
  have hleft : (Occurrence.left seq (.failed d.escalates e.message)).failedRecord? =
      some (seq, e.message) := rfl
  rw [failedRecords_append _ hos, List.filterMap_reverse, List.cons_append,
    List.filterMap_cons_some hleft, List.filterMap_append, hnone]
  rfl

/-- An activation that goes on and fails closes its record. -/
theorem stage?_fail {s : Stage} (hs : l.journal.stage? seq = some s) (hopen : s.isFinal = false)
    (d : Deed) (e : LaunchError) (k : Nat) :
    (leave seq (l.fail seq d e)).1.journal.stage? k =
      if k = seq then some (.failed e.message) else l.journal.stage? k := by
  let failing := (l.happen (.failed e.kind e.message)).advance seq (.failed e.message)
  have hbooks : (leave seq (l.fail seq d e)).1.journal.stage? k = failing.journal.stage? k :=
    (sameBooks_onFailure failing e.message).stage k
  rw [hbooks]
  show (l.journal.advance seq (.failed e.message)).stage? k = _
  split
  · rename_i heq
    rw [heq]
    exact Journal.stage?_advance_self hs hopen
  · rename_i hne
    exact Journal.stage?_advance_of_ne hne _ _

/-- **A failure is reported once, and closes the record of an activation that is going on.** -/
theorem Accounted.fail (hl : l.Accounted faults (seq :: opened)) (d : Deed) (e : LaunchError) :
    (leave seq (l.fail seq d e)).1.Accounted faults opened := by
  obtain ⟨s, hs, hopen⟩ := hl.unfinished seq List.mem_cons_self
  have hstage := stage?_fail hs hopen d e
  have hbooks := sameTimers_fail l seq d e
  have hunfailed : ∀ reason, (seq, reason) ∉ l.failedRecords := by
    intro reason hmem
    have hfailed := (hl.failed seq reason).mp hmem
    rw [hs] at hfailed
    cases hfailed
    cases hopen
  constructor
  · obtain ⟨xs, hxs, hinter⟩ := hl.errors
    refine ⟨xs ++ [(seq, e.reported)], ?_, ?_⟩
    · rw [List.map_append, hxs, failedRecords_fail]
      rfl
    · rw [List.map_append, errors_fail, ← List.append_nil (faults.map (·.reported))]
      exact hinter.append (.ofLeft _)
  · rw [failedRecords_fail, List.map_append, List.nodup_append]
    refine ⟨hl.once, List.pairwise_singleton _ _, ?_⟩
    rintro k hk _ hlast rfl
    obtain ⟨⟨k, reason⟩, hmem, rfl⟩ := List.mem_map.mp hk
    obtain rfl : k = seq := List.mem_singleton.mp hlast
    exact hunfailed reason hmem
  · intro k reason
    rw [failedRecords_fail, List.mem_append, List.mem_singleton, hstage]
    by_cases heq : k = seq
    · subst heq
      rw [if_pos rfl]
      constructor
      · intro h
        rw [(Prod.mk.inj (h.resolve_left (hunfailed reason))).2]
      · intro h
        cases h
        exact .inr rfl
    · rw [if_neg heq, ← hl.failed]
      exact or_iff_left fun h => heq (Prod.mk.inj h).1
  · exact (List.nodup_cons.mp hl.distinct).2
  · intro k hk
    have hne : k ≠ seq := fun heq => (List.nodup_cons.mp hl.distinct).1 (heq ▸ hk)
    obtain ⟨s', hs', hopen'⟩ := hl.unfinished k (List.mem_cons_of_mem seq hk)
    exact ⟨s', (hstage k).trans ((if_neg hne).trans hs'), hopen'⟩
  · intro id t k ht hk
    have hpending : l.timers.get? id = some t := hbooks.timers ▸ ht
    obtain ⟨hlt, hnot⟩ := hl.timed id t k hpending hk
    exact ⟨Nat.lt_of_lt_of_le hlt (fail_effects (p := fun _ => True) l seq d e).size_le,
      (List.ne_and_not_mem_of_not_mem_cons hnot).2⟩

/-- A fault is reported that belongs to no record. -/
theorem Accounted.report (hl : l.Accounted faults opened) (e : LaunchError) :
    (l.report e).Accounted (faults ++ [e]) opened := by
  have htold : (l.happen (.failed e.kind e.message)).Accounted (faults ++ [e]) opened := by
    have herrors : (l.happen (.failed e.kind e.message)).errors = l.errors ++ [e.reported] :=
      errors_append [.failed e.kind e.message] rfl
    have hrecords : (l.happen (.failed e.kind e.message)).failedRecords = l.failedRecords :=
      (failedRecords_append [.failed e.kind e.message] rfl).trans (List.append_nil _)
    refine ⟨?_, by rw [hrecords]; exact hl.once, fun k reason => ?_, hl.distinct, hl.unfinished,
      hl.timed⟩
    · obtain ⟨xs, hxs, hinter⟩ := hl.errors
      refine ⟨xs, hxs.trans hrecords.symm, ?_⟩
      rw [herrors, List.map_append, ← List.append_nil (xs.map (·.2))]
      exact hinter.append (.ofRight _)
    · rw [hrecords]
      exact hl.failed k reason
  exact htold.onFailure e.message

/-! ## Activations -/

/-- Timers that are pending already close no other record when their groups change. -/
theorem Accounted.regroup (hl : l.Accounted faults opened) (groups : List (List Nat)) :
    ({ l with groupTimers := groups } : Launch).Accounted faults opened :=
  ⟨hl.errors, hl.once, hl.failed, hl.distinct, hl.unfinished, hl.timed⟩

theorem Accounted.skipAll (hl : l.Accounted faults opened) (as : List Action) (why : String) :
    (l.skipAll as why).Accounted faults opened := by
  induction as generalizing l with
  | nil => exact hl
  | cons a rest ih =>
      exact ih (l := { l with journal := l.journal.skip a why }) (hl.add (unfailing_of_same rfl) rfl
        (l.journal.size_skip a why) (s := .skipped) nofun (l.journal.stage?_skip a why))

theorem Accounted.dropTimer (hl : l.Accounted faults opened) (id : Nat) {o : Occurrence}
    (ho : o.isFailure = false) :
    ({ l with timers := l.timers.erase id }.happen o).Accounted faults opened :=
  hl.of_unfailing (unfailing_of_cons ho rfl) (fun _ _ => Iff.rfl) hl.distinct hl.unfinished
    fun _ _ _ ht hk => hl.timed _ _ _ (Table.get?_of_get?_erase ht) hk

theorem Accounted.cancelTimer (hl : l.Accounted faults opened) (why : String) (id : Nat) :
    (l.cancelTimer why id).Accounted faults opened := by
  unfold Launch.cancelTimer
  split
  · exact hl
  · rename_i t ht
    have htaken := hl.dropTimer id (o := .cancelled id) rfl
    dsimp only
    cases hk : t.record with
    | none => exact htaken
    | some seq =>
        exact (htaken.note seq why).advance nofun fun _ => (hl.timed id t seq ht hk).2

theorem Accounted.cancelTimers (hl : l.Accounted faults opened) (why : String) (ids : List Nat) :
    (l.cancelTimers why ids).Accounted faults opened := by
  induction ids generalizing l with
  | nil => exact hl
  | cons id rest ih => exact ih (hl.cancelTimer why id)

/-- A timer may be scheduled under a record whose activation is over then, or under none. -/
theorem Accounted.schedule {record : Option Nat}
    (hl : l.Accounted faults (record.toList ++ opened)) (delay : Duration) (as : List Action)
    (scope : Scope) (cancel : Bool) :
    (l.schedule delay as scope record cancel).Accounted faults opened := by
  have hrest : l.Accounted faults opened := by
    cases record with
    | none => exact hl
    | some seq => exact hl.drop
  refine hrest.of_unfailing (unfailing_of_cons (o := .scheduled l.nextTimer _) rfl rfl)
    (fun _ _ => Iff.rfl) hrest.distinct hrest.unfinished ?_
  intro id t k ht hk
  change (l.timers.insert l.nextTimer _).get? id = some t at ht
  rw [Table.get?_insert] at ht
  split at ht
  · cases ht
    dsimp only at hk
    subst hk
    obtain ⟨s, hs, -⟩ := hl.unfinished k List.mem_cons_self
    exact ⟨Journal.lt_size_of_stage? hs, (List.nodup_cons.mp hl.distinct).1⟩
  · exact hrest.timed id t k ht hk

/-- A timer is scheduled under the record of its action, if its period can be read. -/
theorem performLeaf_timer (l : Launch) (seq : Nat) (a : Action) (period : Template)
    (children : List Action) (cancel : Bool) :
    (∃ e, l.performLeaf seq a (.timer period children cancel) = (l, .error e)) ∨
      ∃ delay, l.performLeaf seq a (.timer period children cancel) =
        (l.schedule delay children l.context.snapshot (some seq) cancel, .ok .running) := by
  rw [performLeaf]
  split
  · exact .inl ⟨_, rfl⟩
  · split
    · exact .inl ⟨_, rfl⟩
    · exact .inr ⟨_, rfl⟩

/-- A deed without children leaves its record to be closed, unless it goes on. -/
theorem Accounted.performLeaf (hl : l.Accounted faults (seq :: opened)) (a : Action) (d : Deed) :
    (l.performLeaf seq a d).1.Accounted faults
      (if isRunning (l.performLeaf seq a d).2 then opened else seq :: opened) := by
  have hquiet : l.Unfailing (l.performLeaf seq a d).1 := by
    obtain ⟨os, hos, hq⟩ := history_performLeaf l seq a d
    exact ⟨os, hos, fun o ho => Occurrence.isFailure_of_isOfDeed (hq o ho)⟩
  cases hw : d.startsWork with
  | false =>
      obtain ⟨hsame, hr⟩ := sameBooks_performLeaf hw l seq a
      rw [hr]
      exact hl.keep hsame hquiet
  | true =>
      cases d with
      | execute t onExit =>
          have hsame := hl.keep (sameBooks_execute l seq a t onExit).1 hquiet
          split
          · exact hsame.drop
          · exact hsame
      | timer period children cancel =>
          rcases performLeaf_timer l seq a period children cancel with ⟨e, h⟩ | ⟨delay, h⟩
          · rw [h]
            exact hl
          · rw [h]
            have hopen : l.Accounted faults ((some seq).toList ++ opened) := hl
            exact hopen.schedule delay children l.context.snapshot cancel
      | _ => cases hw

/-- The end of an activation closes its record, unless its deed goes on. -/
theorem Accounted.settle {x : Launch × Performed}
    (hx : x.1.Accounted faults (if isRunning x.2 then opened else seq :: opened)) (d : Deed) :
    (leave seq (settle seq d x)).1.Accounted faults opened := by
  obtain ⟨n, r⟩ := x
  match r with
  | .ok .done =>
      have hopen : n.Accounted faults (seq :: opened) := hx
      exact (hopen.drop.advance (s := .completed) nofun fun _ =>
        (List.nodup_cons.mp hopen.distinct).1).happen rfl rfl
  | .ok .running => exact Accounted.happen hx rfl rfl
  | .error e => exact Accounted.fail hx d e

theorem Accounted.asked (hl : l.Accounted faults opened) (a : Action) {n : Launch}
    (hn : n = (l.enter a).2 ∨ n = (l.enter a).2.advance l.journal.size .evaluatingCondition) :
    n.Accounted faults (l.journal.size :: opened) := by
  rcases hn with rfl | rfl
  · exact hl.enter a
  · exact (hl.enter a).advance (by simp) (by simp [Stage.isFinal])

theorem Accounted.admitted (hl : l.Accounted faults opened) {a : Action} (h : l.Admits a m) :
    m.Accounted faults (l.journal.size :: opened) := by
  obtain ⟨n, hn, rfl⟩ := h.cases
  have hactivated : (n.advance l.journal.size .activated).Accounted faults
      (l.journal.size :: opened) :=
    (hl.asked a hn).advance (by simp) (by simp [Stage.isFinal])
  exact hactivated.advance (by simp) (by simp [Stage.isFinal])

theorem Accounted.refused (hl : l.Accounted faults opened) {a : Action} {outcome : Outcome}
    (h : (l.enter a).2.gate l.journal.size a = (m, some outcome)) :
    (m.happen (.left l.journal.size outcome)).Accounted faults opened := by
  obtain ⟨n, hn, hgate⟩ := gate_cases (l.enter a).2 l.journal.size a
  have hopen := hl.asked a hn
  have hskip : (n.advance l.journal.size .skipped).Accounted faults opened :=
    hopen.drop.advance (by simp) fun _ => (List.nodup_cons.mp hopen.distinct).1
  rw [h] at hgate
  rcases hgate with hg | hg | hg | ⟨e, hg⟩
  · cases congrArg Prod.snd hg
  · obtain ⟨rfl, hskipped⟩ := Prod.mk.inj hg
    rw [Option.some.inj hskipped]
    exact hskip.happen rfl rfl
  · obtain ⟨rfl, hskipped⟩ := Prod.mk.inj hg
    rw [Option.some.inj hskipped]
    exact (hskip.note _ _).happen rfl rfl
  · obtain ⟨rfl, hfailed⟩ := Prod.mk.inj hg
    rw [Option.some.inj hfailed]
    exact hopen.fail a.deed e

/-- **An activation adds one error for each record that fails in its course, and no other.** -/
theorem upheld_accounted (faults : List LaunchError) :
    Upheld fun opened l => l.Accounted faults opened where
  refused hl hgate := hl.refused hgate
  leaf := by
    intro opened l m a hl hadmits hleaf
    rw [activate_of_admits hadmits, perform_eq, if_pos hleaf]
    exact ((hl.admitted hadmits).performLeaf a a.deed).settle a.deed
  admitted hl hadmits _ := hl.admitted hadmits
  asked := by
    intro opened l d hl
    have hheard : ∀ y, (l.heard y).Accounted faults opened := by
      intro y
      unfold heard
      split
      · exact hl.happen rfl rfl
      · exact hl
    unfold Launch.asked
    split
    · exact hheard _
    · exact hheard _
    · exact hl
  performed := by
    intro opened seq m d failure hl
    refine Accounted.settle ?_ d
    cases failure with
    | none => exact hl
    | some e => exact hl
  skipAll as why hl := hl.skipAll as why
  beginGroup hl := hl.regroup _
  endGroup := by
    intro opened l failure hl
    unfold Launch.endGroup
    split
    · exact hl
    · split
      · exact hl.regroup _
      · exact (hl.regroup _).cancelTimers _ _
  inScope scope hl := hl.keep (sameBooks_context _ _) (unfailing_of_same rfl)
  restore depth hl := hl.keep (sameBooks_context _ _) (unfailing_of_same rfl)

theorem Accounted.activateBody (hl : l.Accounted faults opened) (cause : BodyCause)
    (as : List Action) (scope : Option Scope) :
    (Launch.activateBody cause as scope l).Accounted faults opened :=
  (upheld_accounted faults).activateBody (hl.happen rfl rfl)

end Launch

end Conductor
