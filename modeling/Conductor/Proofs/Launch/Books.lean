import Conductor.Launch.Run
import Conductor.Proofs.Journal
import Conductor.Proofs.Launch.Effect
import Conductor.Proofs.Launch.Frame

/-!
# The books of a launch

The record of an activation is closed when the activation is over, with two exceptions: that of
a timer action is closed when its timer fires or is cancelled, and that of a process when the
process ends. `Booked` says so of a launch in which some activations are still going on, and
each operation on a launch keeps its books (`Booked.enter`, `Booked.close`, `Booked.schedule`
and so on).
-/

namespace Conductor

/-- Whether this is of a timer. -/
def Occurrence.isOfTimer : Occurrence → Bool
  | .scheduled .. => true
  | .fired _ => true
  | .cancelled _ => true
  | _ => false

namespace Launch

/-- The record is to be closed later, when a timer or a process is over. -/
def Holds (l : Launch) (k : Nat) : Prop :=
  (∃ id t, l.timers.get? id = some t ∧ t.record = some k) ∨
    ∃ r w, .kept r w ∈ l.history ∧ r.record = k

/-- The record is that of the timer action that the timer comes from. -/
def RecordsTimer (l : Launch) (k : Nat) (t : Timer) : Prop :=
  ∃ a period, .entered k a ∈ l.history ∧
    a.deed = .timer period t.actions t.cancelOnShutdown

/-- The books of a launch are in order, apart from the records of the activations that are going
on, innermost first. -/
structure Booked (opened : List Nat) (l : Launch) : Prop where
  nodup : opened.Nodup
  below : ∀ k ∈ opened, k < l.journal.size
  /-- Every record is that of an activation going on, or closed, or to be closed later. -/
  accounted : ∀ k s, l.journal.stage? k = some s → k ∈ opened ∨ s.isFinal = true ∨ l.Holds k
  scheduled : ∀ id t, l.timers.get? id = some t → .scheduled id t ∈ l.history
  given : ∀ id t, .scheduled id t ∈ l.history → id < l.nextTimer
  /-- The record of a timer action is running as long as its timer is pending. -/
  timed : ∀ id t k, .scheduled id t ∈ l.history → t.record = some k →
    k ∉ opened ∧ l.RecordsTimer k t ∧
      (l.journal.stage? k = some .completed ∨
        (l.timers.get? id = some t ∧ l.journal.stage? k = some .running))

/-- Whether a deed that was performed goes on in the background. -/
def isRunning : Performed → Bool
  | .ok .running => true
  | _ => false

/-- No timer is scheduled, fires or is cancelled between the two launches. -/
structure SameTimers (l m : Launch) : Prop where
  timers : m.timers = l.timers
  nextTimer : m.nextTimer = l.nextTimer
  groups : m.groupTimers = l.groupTimers
  history : ∃ os, m.history = os ++ l.history ∧ ∀ o ∈ os, o.isOfTimer = false

/-- Nor does a record change its stage. -/
structure SameBooks (l m : Launch) : Prop extends l.SameTimers m where
  stage : ∀ k, m.journal.stage? k = l.journal.stage? k
  size : m.journal.size = l.journal.size

variable {l m n : Launch} {opened : List Nat} {seq : Nat}

/-! ## What leaves the books alone -/

theorem SameTimers.refl (l : Launch) : l.SameTimers l :=
  ⟨rfl, rfl, rfl, [], rfl, by simp⟩

theorem SameTimers.trans (h : l.SameTimers m) (h' : m.SameTimers n) : l.SameTimers n := by
  obtain ⟨os, hos, hq⟩ := h.history
  obtain ⟨os', hos', hq'⟩ := h'.history
  refine ⟨h'.timers.trans h.timers, h'.nextTimer.trans h.nextTimer, h'.groups.trans h.groups,
    os' ++ os, ?_, ?_⟩
  · rw [hos', hos, List.append_assoc]
  · intro o ho
    rcases List.mem_append.mp ho with ho | ho
    · exact hq' o ho
    · exact hq o ho

/-- What happened before is still on the history. -/
theorem SameTimers.mem (h : l.SameTimers m) {o : Occurrence} (ho : o ∈ l.history) :
    o ∈ m.history := by
  obtain ⟨os, hos, -⟩ := h.history
  rw [hos]
  exact List.mem_append_right os ho

theorem SameTimers.scheduled_iff (h : l.SameTimers m) {id : Nat} {t : Timer} :
    .scheduled id t ∈ m.history ↔ .scheduled id t ∈ l.history := by
  obtain ⟨os, hos, hq⟩ := h.history
  rw [hos, List.mem_append]
  refine ⟨fun hm => hm.resolve_left fun hnew => ?_, .inr⟩
  cases hq _ hnew

theorem SameBooks.refl (l : Launch) : l.SameBooks l :=
  ⟨.refl l, fun _ => rfl, rfl⟩

theorem SameBooks.trans (h : l.SameBooks m) (h' : m.SameBooks n) : l.SameBooks n :=
  ⟨h.toSameTimers.trans h'.toSameTimers, fun k => (h'.stage k).trans (h.stage k),
    h'.size.trans h.size⟩

theorem sameTimers_advance (l : Launch) (seq : Nat) (s : Stage) :
    l.SameTimers (l.advance seq s) :=
  ⟨rfl, rfl, rfl, [], rfl, by simp⟩

theorem sameBooks_of_eq (os : List Occurrence) (hj : m.journal = l.journal)
    (ht : m.timers = l.timers) (hn : m.nextTimer = l.nextTimer)
    (hg : m.groupTimers = l.groupTimers) (hos : m.history = os ++ l.history)
    (hq : ∀ o ∈ os, o.isOfTimer = false) : l.SameBooks m :=
  ⟨⟨ht, hn, hg, os, hos, hq⟩, fun k => by rw [hj], by rw [hj]⟩

theorem sameBooks_happen (l : Launch) {o : Occurrence} (ho : o.isOfTimer = false) :
    l.SameBooks (l.happen o) := by
  refine sameBooks_of_eq [o] rfl rfl rfl rfl rfl fun o' ho' => ?_
  rw [List.mem_singleton.mp ho']
  exact ho

theorem sameBooks_context (l : Launch) (c : Context) : l.SameBooks { l with context := c } :=
  sameBooks_of_eq [] rfl rfl rfl rfl rfl (by simp)

theorem sameBooks_supervisor (l : Launch) (s : Supervisor) :
    l.SameBooks { l with supervisor := s } :=
  sameBooks_of_eq [] rfl rfl rfl rfl rfl (by simp)

theorem sameBooks_note (l : Launch) (seq : Nat) (text : String) : l.SameBooks (l.note seq text) :=
  ⟨⟨rfl, rfl, rfl, [], rfl, by simp⟩, fun k => Journal.stage?_note l.journal seq text k,
    Journal.size_note l.journal seq text⟩

theorem sameBooks_emit (l : Launch) (e : Event) : l.SameBooks (l.emit e) :=
  (sameBooks_context l _).trans (sameBooks_happen _ rfl)

theorem sameBooks_requestShutdown (l : Launch) (reason : String) (due : Bool) :
    l.SameBooks (l.requestShutdown reason due).2 := by
  unfold requestShutdown
  split
  · exact .refl l
  · exact (sameBooks_context l _).trans (sameBooks_emit _ _)

theorem sameBooks_onFailure (l : Launch) (reason : String) : l.SameBooks (l.onFailure reason) := by
  unfold onFailure
  split
  · have hfatal : l.SameBooks { l with fatal := some reason } :=
      sameBooks_of_eq [] rfl rfl rfl rfl rfl (by simp)
    exact hfatal.trans (sameBooks_requestShutdown _ _ _)
  · exact .refl l

theorem sameBooks_report (l : Launch) (e : LaunchError) : l.SameBooks (l.report e) :=
  (sameBooks_happen l rfl).trans (sameBooks_onFailure _ _)

theorem sameBooks_sendSignal (l : Launch) (signal : Signal) (id : ProcessId) :
    l.SameBooks (l.sendSignal signal id) := by
  unfold sendSignal
  split
  · exact (sameBooks_supervisor l _).trans (sameBooks_happen _ rfl)
  · exact sameBooks_supervisor l _
  · exact (sameBooks_supervisor l _).trans (sameBooks_report _ _)

theorem sameBooks_signalLive (l : Launch) (signal : Signal) :
    l.SameBooks (l.signalLive signal) := by
  have hall : ∀ (ids : List ProcessId) (m : Launch),
      m.SameBooks (ids.foldl (fun m id => m.sendSignal signal id) m) := by
    intro ids
    induction ids with
    | nil => exact fun m => .refl m
    | cons id rest ih => exact fun m => (sameBooks_sendSignal m signal id).trans (ih _)
  exact hall _ l

/-- Deeds that start nothing leave the books alone, and do not go on in the background. -/
theorem sameBooks_performLeaf {d : Deed} (hd : d.startsWork = false) (l : Launch) (seq : Nat)
    (a : Action) :
    l.SameBooks (l.performLeaf seq a d).1 ∧ isRunning (l.performLeaf seq a d).2 = false := by
  cases d with
  | execute => cases hd
  | timer => cases hd
  | log level message =>
      rw [performLeaf]
      split
      · exact ⟨.refl l, rfl⟩
      · exact ⟨sameBooks_happen l rfl, rfl⟩
  | declare argument =>
      rw [performLeaf]
      split
      · exact ⟨.refl l, rfl⟩
      · split
        · exact ⟨.refl l, rfl⟩
        · exact ⟨sameBooks_context l _, rfl⟩
  | setVariable target name value =>
      rw [performLeaf]
      split
      · exact ⟨.refl l, rfl⟩
      · split
        · exact ⟨sameBooks_context l _, rfl⟩
        · exact ⟨(sameBooks_context l _).trans (sameBooks_note _ _ _), rfl⟩
  | setEnv name value =>
      rw [performLeaf]
      split
      · exact ⟨.refl l, rfl⟩
      · exact ⟨sameBooks_context l _, rfl⟩
  | unsetVariable => exact ⟨sameBooks_context l _, rfl⟩
  | unsetEnv => exact ⟨sameBooks_context l _, rfl⟩
  | register => exact ⟨sameBooks_of_eq [] rfl rfl rfl rfl rfl (by simp), rfl⟩
  | unregister name =>
      have hregistry : l.SameBooks { l with registry := l.registry.unregister name } :=
        sameBooks_of_eq [] rfl rfl rfl rfl rfl (by simp)
      exact ⟨hregistry.trans (sameBooks_happen _ rfl), rfl⟩
  | emit e => exact ⟨sameBooks_emit l e, rfl⟩
  | shutdown reason =>
      rw [performLeaf]
      split
      · exact ⟨.refl l, rfl⟩
      · rename_i reason _
        have hask := sameBooks_requestShutdown l reason false
        split
        · rename_i h
          rw [h] at hask
          exact ⟨hask, rfl⟩
        · rename_i h
          rw [h] at hask
          exact ⟨hask.trans (sameBooks_note _ _ _), rfl⟩
  | group | splice | compute => exact ⟨.refl l, rfl⟩

theorem sameBooks_withStarted (l : Launch) (h : ProcessHandle) (spec : ProcessSpec) :
    l.SameBooks (l.withStarted h spec) :=
  sameBooks_of_eq [.started h.id spec] rfl rfl rfl rfl rfl (by simp [Occurrence.isOfTimer])

/-- A process that has started is kept under the record of its activation. -/
theorem sameBooks_attend (l : Launch) (seq : Nat) (a : Action) (onExit : List Action)
    (name : String) (h : ProcessHandle) :
    l.SameBooks (l.attend seq a onExit name h) ∧
      ∃ r w, .kept r w ∈ (l.attend seq a onExit name h).history ∧ r.record = seq := by
  have htold := (sameBooks_note l seq ("pid " ++ toString h.pid)).trans
    (sameBooks_emit _ (.processStarted ⟨h.id, a.id, name, h.pid, h.command⟩))
  have hkeep : ∀ (m : Launch) (r : RunningProcess) (w : Option Nat),
      m.SameBooks (m.keepProcess r w) := fun m r w =>
    sameBooks_of_eq [.kept r w] rfl rfl rfl rfl rfl (by simp [Occurrence.isOfTimer])
  have hregister : ∀ (m : Launch) (b : Handler),
      m.SameBooks { m with registry := m.registry.register b } := fun m b =>
    sameBooks_of_eq [] rfl rfl rfl rfl rfl (by simp)
  unfold attend
  dsimp only
  split
  · exact ⟨htold.trans (hkeep _ _ _), _, _, List.mem_cons_self, rfl⟩
  · exact ⟨(htold.trans (hregister _ _)).trans (hkeep _ _ _), _, _, List.mem_cons_self, rfl⟩

theorem sameBooks_execute (l : Launch) (seq : Nat) (a : Action) (t : ProcessTemplate)
    (onExit : List Action) :
    l.SameBooks (l.execute seq a t onExit).1 ∧
      (isRunning (l.execute seq a t onExit).2 = true →
        ∃ r w, .kept r w ∈ (l.execute seq a t onExit).1.history ∧ r.record = seq) := by
  have hattempt : l.SameBooks { l with attempts := l.attempts + 1 } :=
    sameBooks_of_eq [] rfl rfl rfl rfl rfl (by simp)
  unfold execute
  split
  · exact ⟨.refl l, by simp [isRunning]⟩
  · dsimp only
    split
    · exact ⟨hattempt, by simp [isRunning]⟩
    · rename_i spec _
      split
      · rename_i hs
        rw [startProcess_error hs]
        exact ⟨hattempt.trans (sameBooks_supervisor _ _), by simp [isRunning]⟩
      · rename_i h l' hs
        obtain ⟨-, -, rfl⟩ := startProcess_ok hs
        have hstarted := hattempt.trans (sameBooks_withStarted _ h spec)
        obtain ⟨hattend, hkept⟩ := sameBooks_attend
          (({ l with attempts := l.attempts + 1 } : Launch).withStarted h spec) seq a onExit
          spec.name h
        exact ⟨hstarted.trans hattend, fun _ => hkept⟩

/-! ## Steps of the books -/

theorem RecordsTimer.mono {k : Nat} {t : Timer} (h : l.RecordsTimer k t)
    (hm : ∀ o, o ∈ l.history → o ∈ m.history) : m.RecordsTimer k t := by
  obtain ⟨a, period, ha, hd⟩ := h
  exact ⟨a, period, hm _ ha, hd⟩

theorem Holds.keep {k : Nat} (h : l.Holds k) (ht : m.timers = l.timers)
    (hm : ∀ o, o ∈ l.history → o ∈ m.history) : m.Holds k := by
  rcases h with ⟨id, t, hget, hk⟩ | ⟨r, w, hkept, hk⟩
  · exact .inl ⟨id, t, by rw [ht, hget], hk⟩
  · exact .inr ⟨r, w, hm _ hkept, hk⟩

/-- What happens without the timers changes the books by the stages only: a record that is not
that of an activation going on stays as it is or is completed, and one that is new is closed or
that of an activation going on. -/
theorem Booked.of_sameTimers {opened' : List Nat} (hl : l.Booked opened) (h : l.SameTimers m)
    (hnodup : opened'.Nodup) (hbelow : ∀ k ∈ opened', k < m.journal.size)
    (hold : ∀ k s, k ∉ opened → l.journal.stage? k = some s →
      k ∉ opened' ∧ (m.journal.stage? k = some s ∨ m.journal.stage? k = some .completed))
    (hnew : ∀ k s, m.journal.stage? k = some s →
      k ∈ opened' ∨ s.isFinal = true ∨ k ∉ opened ∧ l.journal.stage? k = some s) :
    m.Booked opened' where
  nodup := hnodup
  below := hbelow
  accounted := by
    intro k s hs
    rcases hnew k s hs with ho | hf | ⟨ho, hs'⟩
    · exact .inl ho
    · exact .inr (.inl hf)
    · rcases (hl.accounted k s hs').resolve_left ho with hf | hholds
      · exact .inr (.inl hf)
      · exact .inr (.inr (hholds.keep h.timers fun _ => h.mem))
  scheduled := by
    intro id t ht
    rw [h.timers] at ht
    exact h.mem (hl.scheduled id t ht)
  given := by
    intro id t ht
    rw [h.nextTimer]
    exact hl.given id t (h.scheduled_iff.mp ht)
  timed := by
    intro id t k ht hk
    obtain ⟨ho, hrecords, hstage⟩ := hl.timed id t k (h.scheduled_iff.mp ht) hk
    have hrecords' := hrecords.mono fun _ => h.mem
    rw [h.timers]
    rcases hstage with hs | ⟨hget, hs⟩
    · obtain ⟨ho', hs' | hs'⟩ := hold k _ ho hs
      · exact ⟨ho', hrecords', .inl hs'⟩
      · exact ⟨ho', hrecords', .inl hs'⟩
    · obtain ⟨ho', hs' | hs'⟩ := hold k _ ho hs
      · exact ⟨ho', hrecords', .inr ⟨hget, hs'⟩⟩
      · exact ⟨ho', hrecords', .inl hs'⟩

theorem Booked.keep (hl : l.Booked opened) (h : l.SameBooks m) : m.Booked opened := by
  refine hl.of_sameTimers h.toSameTimers hl.nodup ?_ ?_ ?_
  · intro k hk
    rw [h.size]
    exact hl.below k hk
  · intro k s ho hs
    exact ⟨ho, .inl ((h.stage k).trans hs)⟩
  · intro k s hs
    by_cases ho : k ∈ opened
    · exact .inl ho
    · exact .inr (.inr ⟨ho, (h.stage k).symm.trans hs⟩)

/-- The record of an activation that begins is open. -/
theorem Booked.enter (hl : l.Booked opened) (a : Action) :
    (l.enter a).2.Booked ((l.enter a).1 :: opened) := by
  have hsame : l.SameTimers (l.enter a).2 :=
    ⟨rfl, rfl, rfl, [.entered l.journal.size a], rfl, by simp [Occurrence.isOfTimer]⟩
  have hstage := Journal.stage?_enter l.journal a
  have hsize : (l.enter a).2.journal.size = l.journal.size + 1 := l.journal.size_enter a
  refine hl.of_sameTimers hsame ?_ ?_ ?_ ?_
  · exact List.nodup_cons.mpr ⟨fun hmem => Nat.lt_irrefl _ (hl.below _ hmem), hl.nodup⟩
  · intro k hk
    rw [hsize]
    rcases List.mem_cons.mp hk with rfl | hk
    · exact Nat.lt_succ_self _
    · exact Nat.lt_succ_of_lt (hl.below k hk)
  · intro k s ho hs
    have hne : k ≠ l.journal.size := Nat.ne_of_lt (Journal.lt_size_of_stage? hs)
    refine ⟨List.not_mem_cons_of_ne_of_not_mem hne ho, .inl ?_⟩
    exact (hstage k).trans ((if_neg hne).trans hs)
  · intro k s hs
    by_cases hne : k = l.journal.size
    · exact .inl (List.mem_cons.mpr (.inl hne))
    · by_cases ho : k ∈ opened
      · exact .inl (List.mem_cons_of_mem _ ho)
      · refine .inr (.inr ⟨ho, ?_⟩)
        exact (if_neg hne).symm.trans ((hstage k).symm.trans hs)

/-- The record of an activation that is going on may take any stage. -/
theorem Booked.advance (hl : l.Booked opened) (ho : seq ∈ opened) (s : Stage) :
    (l.advance seq s).Booked opened := by
  refine hl.of_sameTimers (sameTimers_advance l seq s) hl.nodup ?_ ?_ ?_
  · intro k hk
    exact Nat.lt_of_lt_of_eq (hl.below k hk) (l.journal.size_advance seq s).symm
  · intro k s' hk hs'
    have hne : k ≠ seq := fun heq => hk (heq ▸ ho)
    exact ⟨hk, .inl ((Journal.stage?_advance_of_ne hne l.journal s).trans hs')⟩
  · intro k s' hs'
    by_cases hk : k ∈ opened
    · exact .inl hk
    · have hne : k ≠ seq := fun heq => hk (heq ▸ ho)
      exact .inr (.inr ⟨hk, (Journal.stage?_advance_of_ne hne l.journal s).symm.trans hs'⟩)

/-- An activation is over when its record is closed. -/
theorem Booked.close (hl : l.Booked (seq :: opened)) {s : Stage} (hs : s.isFinal = true) :
    (l.advance seq s).Booked opened := by
  obtain ⟨hnot, hnodup⟩ := List.nodup_cons.mp hl.nodup
  refine hl.of_sameTimers (sameTimers_advance l seq s) hnodup ?_ ?_ ?_
  · intro k hk
    exact Nat.lt_of_lt_of_eq (hl.below k (List.mem_cons_of_mem _ hk))
      (l.journal.size_advance seq s).symm
  · intro k s' hk hs'
    obtain ⟨hne, hk⟩ := List.ne_and_not_mem_of_not_mem_cons hk
    exact ⟨hk, .inl ((Journal.stage?_advance_of_ne hne l.journal s).trans hs')⟩
  · intro k s' hs'
    by_cases hne : k = seq
    · subst hne
      exact .inr (.inl (Journal.isFinal_of_stage?_advance hs hs'))
    · by_cases hk : k ∈ opened
      · exact .inl hk
      · exact .inr (.inr ⟨List.not_mem_cons_of_ne_of_not_mem hne hk,
          (Journal.stage?_advance_of_ne hne l.journal s).symm.trans hs'⟩)

/-- Any record may be completed. -/
theorem Booked.complete (hl : l.Booked opened) (seq : Nat) :
    (l.advance seq .completed).Booked opened := by
  refine hl.of_sameTimers (sameTimers_advance l seq _) hl.nodup ?_ ?_ ?_
  · intro k hk
    exact Nat.lt_of_lt_of_eq (hl.below k hk) (l.journal.size_advance seq _).symm
  · intro k s hk hs
    refine ⟨hk, ?_⟩
    have hstage := Journal.stage?_advance l.journal seq .completed k
    rw [hs, Option.map_some] at hstage
    by_cases hne : k = seq
    · rw [if_pos hne] at hstage
      cases hf : s.isFinal with
      | true => exact .inl (hstage.trans (by rw [hf]; rfl))
      | false => exact .inr (hstage.trans (by rw [hf]; rfl))
    · rw [if_neg hne] at hstage
      exact .inl hstage
  · intro k s hs
    by_cases hne : k = seq
    · subst hne
      exact .inr (.inl (Journal.isFinal_of_stage?_advance rfl hs))
    · by_cases hk : k ∈ opened
      · exact .inl hk
      · exact .inr (.inr ⟨hk, (Journal.stage?_advance_of_ne hne l.journal _).symm.trans hs⟩)

/-- The records of actions that are not even looked at are closed at once. -/
theorem Booked.skipAll (hl : l.Booked opened) (as : List Action) (why : String) :
    (l.skipAll as why).Booked opened := by
  induction as generalizing l with
  | nil => exact hl
  | cons a rest ih =>
      apply ih (l := { l with journal := l.journal.skip a why })
      have hstage := Journal.stage?_skip l.journal a why
      refine hl.of_sameTimers ⟨rfl, rfl, rfl, [], rfl, by simp⟩ hl.nodup ?_ ?_ ?_
      · intro k hk
        exact Nat.lt_of_lt_of_eq (Nat.lt_succ_of_lt (hl.below k hk))
          (l.journal.size_skip a why).symm
      · intro k s ho hs
        have hne : k ≠ l.journal.size := Nat.ne_of_lt (Journal.lt_size_of_stage? hs)
        exact ⟨ho, .inl ((hstage k).trans ((if_neg hne).trans hs))⟩
      · intro k s hs
        by_cases hne : k = l.journal.size
        · have hs' := ((hstage k).trans (if_pos hne)).symm.trans hs
          cases hs'
          exact .inr (.inl rfl)
        · by_cases ho : k ∈ opened
          · exact .inl ho
          · exact .inr (.inr ⟨ho, (if_neg hne).symm.trans ((hstage k).symm.trans hs)⟩)

/-- A record is held open by the process that was kept under it. -/
theorem Booked.keepOpen (hl : l.Booked (seq :: opened)) {r : RunningProcess} {w : Option Nat}
    (hkept : .kept r w ∈ l.history) (hr : r.record = seq) : l.Booked opened where
  nodup := (List.nodup_cons.mp hl.nodup).2
  below := fun k hk => hl.below k (List.mem_cons_of_mem _ hk)
  accounted := by
    intro k s hs
    rcases hl.accounted k s hs with ho | hrest
    · rcases List.mem_cons.mp ho with rfl | ho
      · exact .inr (.inr (.inr ⟨r, w, hkept, hr⟩))
      · exact .inl ho
    · exact .inr hrest
  scheduled := hl.scheduled
  given := hl.given
  timed := by
    intro id t k ht hk
    obtain ⟨ho, hrest⟩ := hl.timed id t k ht hk
    exact ⟨(List.ne_and_not_mem_of_not_mem_cons ho).2, hrest⟩

/-- A timer that is scheduled holds the record open that it is scheduled under. -/
theorem Booked.schedule {record : Option Nat} (hl : l.Booked (record.toList ++ opened))
    (delay : Duration) (as : List Action) (scope : Scope) (cancel : Bool)
    (hrecord : ∀ k, record = some k → l.journal.stage? k = some .running ∧
      ∃ a period, .entered k a ∈ l.history ∧ a.deed = .timer period as cancel) :
    (l.schedule delay as scope record cancel).Booked opened := by
  have hsub : ∀ k, k ∈ opened → k ∈ record.toList ++ opened := fun k =>
    List.mem_append_right record.toList
  have hnew : ∀ k, record = some k → k ∉ opened := by
    rintro k rfl
    exact (List.nodup_cons.mp hl.nodup).1
  have hold : ∀ id t, l.timers.get? id = some t → id ≠ l.nextTimer := fun id t ht =>
    Nat.ne_of_lt (hl.given id t (hl.scheduled id t ht))
  let t₀ : Timer := ⟨record, as, scope, cancel, ⟨l.now.nanos + delay.nanos⟩⟩
  have hget : ∀ id, (l.schedule delay as scope record cancel).timers.get? id =
      if id = l.nextTimer then some t₀ else l.timers.get? id := fun id =>
    Table.get?_insert l.timers l.nextTimer id t₀
  have hmem : ∀ o, o ∈ l.history → o ∈ (l.schedule delay as scope record cancel).history :=
    fun o => List.mem_cons_of_mem _
  refine ⟨(List.nodup_append.mp hl.nodup).2.1, fun k hk => hl.below k (hsub k hk), ?_, ?_, ?_, ?_⟩
  · intro k s hs
    rcases hl.accounted k s hs with ho | hf | ⟨id, t, ht, hk⟩ | ⟨r, w, hkept, hk⟩
    · rcases List.mem_append.mp ho with ho | ho
      · refine .inr (.inr (.inl ⟨l.nextTimer, t₀, ?_, Option.mem_toList.mp ho⟩))
        rw [hget, if_pos rfl]
      · exact .inl ho
    · exact .inr (.inl hf)
    · refine .inr (.inr (.inl ⟨id, t, ?_, hk⟩))
      rw [hget, if_neg (hold id t ht), ht]
    · exact .inr (.inr (.inr ⟨r, w, hmem _ hkept, hk⟩))
  · intro id t ht
    rw [hget] at ht
    split at ht
    · rename_i heq
      cases ht
      rw [heq]
      exact List.mem_cons_self
    · exact hmem _ (hl.scheduled id t ht)
  · intro id t ht
    rcases List.mem_cons.mp ht with heq | ht
    · cases heq
      exact Nat.lt_succ_self _
    · exact Nat.lt_succ_of_lt (hl.given id t ht)
  · intro id t k ht hk
    rcases List.mem_cons.mp ht with heq | ht
    · cases heq
      obtain ⟨hs, a, period, ha, hd⟩ := hrecord k hk
      refine ⟨hnew k hk, ⟨a, period, hmem _ ha, hd⟩, .inr ⟨?_, hs⟩⟩
      rw [hget, if_pos rfl]
    · obtain ⟨ho, hrecords, hstage⟩ := hl.timed id t k ht hk
      refine ⟨fun hin => ho (hsub k hin), hrecords.mono hmem, ?_⟩
      rw [hget, if_neg (Nat.ne_of_lt (hl.given id t ht))]
      exact hstage

/-- A timer whose record is completed may be taken away. -/
theorem Booked.dropTimer (hl : l.Booked opened) (id : Nat)
    (hdone : ∀ t k, l.timers.get? id = some t → t.record = some k →
      l.journal.stage? k = some .completed) {o : Occurrence} (ho : ∀ i t, o ≠ .scheduled i t) :
    ({ l with timers := l.timers.erase id }.happen o).Booked opened := by
  have hget : ∀ i, (l.timers.erase id).get? i = if i = id then none else l.timers.get? i :=
    fun i => Table.get?_erase l.timers id i
  have hscheduled : ∀ i t, .scheduled i t ∈ o :: l.history → .scheduled i t ∈ l.history := by
    intro i t hmem
    exact (List.mem_cons.mp hmem).resolve_left fun heq => ho i t heq.symm
  have hmem : ∀ o', o' ∈ l.history → o' ∈ o :: l.history := fun o' => List.mem_cons_of_mem o
  refine ⟨hl.nodup, hl.below, ?_, ?_, ?_, ?_⟩
  · intro k s hs
    rcases hl.accounted k s hs with hk | hf | ⟨i, t, ht, hk⟩ | ⟨r, w, hkept, hk⟩
    · exact .inl hk
    · exact .inr (.inl hf)
    · by_cases hi : i = id
      · subst hi
        have hcompleted := hs.symm.trans (hdone t k ht hk)
        cases hcompleted
        exact .inr (.inl rfl)
      · refine .inr (.inr (.inl ⟨i, t, ?_, hk⟩))
        exact (hget i).trans ((if_neg hi).trans ht)
    · exact .inr (.inr (.inr ⟨r, w, hmem _ hkept, hk⟩))
  · intro i t ht
    exact hmem _ (hl.scheduled i t (Table.get?_of_get?_erase ht))
  · exact fun i t ht => hl.given i t (hscheduled i t ht)
  · intro i t k ht hk
    obtain ⟨hnot, hrecords, hstage⟩ := hl.timed i t k (hscheduled i t ht) hk
    refine ⟨hnot, hrecords.mono hmem, ?_⟩
    rcases hstage with hs | ⟨hpending, hs⟩
    · exact .inl hs
    · by_cases hi : i = id
      · subst hi
        exact .inl (hdone t k hpending hk)
      · exact .inr ⟨(hget i).trans ((if_neg hi).trans hpending), hs⟩

/-- The record of a pending timer is running, so it can be completed. -/
theorem Booked.stage?_complete (hl : l.Booked opened) {id : Nat} {t : Timer} {k : Nat}
    (ht : l.timers.get? id = some t) (hk : t.record = some k) :
    (l.advance k .completed).journal.stage? k = some .completed := by
  have hstage := Journal.stage?_advance l.journal k .completed k
  rw [if_pos rfl] at hstage
  obtain ⟨-, -, hs | ⟨-, hs⟩⟩ := hl.timed id t k (hl.scheduled id t ht) hk
  · exact hstage.trans (by rw [hs]; rfl)
  · exact hstage.trans (by rw [hs]; rfl)

theorem Booked.cancelTimer (hl : l.Booked opened) (why : String) (id : Nat) :
    (l.cancelTimer why id).Booked opened := by
  unfold Launch.cancelTimer
  split
  · exact hl
  · rename_i t ht
    dsimp only
    cases hk : t.record with
    | none =>
        refine hl.dropTimer id ?_ (by simp)
        intro t' k ht' hk'
        cases ht.symm.trans ht'
        rw [hk] at hk'
        cases hk'
    | some seq =>
        -- The record is completed first and the timer taken away then; it comes to the same.
        have hnoted := hl.keep (sameBooks_note l seq why)
        have hclosed := (hnoted.complete seq).dropTimer id (o := .cancelled id) ?_ (by simp)
        · exact hclosed
        · intro t' k ht' hk'
          cases ht.symm.trans ht'
          cases hk.symm.trans hk'
          exact hnoted.stage?_complete ht hk

theorem Booked.cancelTimers (hl : l.Booked opened) (why : String) (ids : List Nat) :
    (l.cancelTimers why ids).Booked opened := by
  induction ids generalizing l with
  | nil => exact hl
  | cons id rest ih => exact ih (hl.cancelTimer why id)

theorem Booked.elapse (hl : l.Booked opened) {id : Nat} {t : Timer}
    (ht : l.timers.get? id = some t) : (l.elapse id t).Booked opened := by
  unfold Launch.elapse
  dsimp only
  cases hk : t.record with
  | none =>
      refine hl.dropTimer id ?_ (by simp)
      intro t' k ht' hk'
      cases ht.symm.trans ht'
      rw [hk] at hk'
      cases hk'
  | some seq =>
      have hclosed := (hl.complete seq).dropTimer id (o := .fired id) ?_ (by simp)
      · exact hclosed.keep (sameBooks_emit _ _)
      · intro t' k ht' hk'
        cases ht.symm.trans ht'
        cases hk.symm.trans hk'
        exact hl.stage?_complete ht hk

/-! ## The books over an activation -/

theorem sameTimers_fail (l : Launch) (seq : Nat) (d : Deed) (e : LaunchError) :
    l.SameTimers (l.fail seq d e).1 := by
  have hhappen := (sameBooks_happen l (o := .failed e.kind e.message) rfl).toSameTimers
  exact (hhappen.trans (sameTimers_advance _ _ _)).trans (sameBooks_onFailure _ _).toSameTimers

/-- A failure closes the record. -/
theorem Booked.fail (hl : l.Booked (seq :: opened)) (d : Deed) (e : LaunchError) :
    (l.fail seq d e).1.Booked opened := by
  have hhappen := hl.keep (sameBooks_happen l (o := .failed e.kind e.message) rfl)
  have hclosed := hhappen.close (s := .failed e.message) rfl
  exact hclosed.keep (sameBooks_onFailure _ _)

theorem sameTimers_gate (l : Launch) (seq : Nat) (a : Action) : l.SameTimers (l.gate seq a).1 := by
  have hpass : ∀ m : Launch, m.SameTimers ((m.advance seq .activated).advance seq .running) :=
    fun m => (sameTimers_advance m seq _).trans (sameTimers_advance _ seq _)
  have hskip : ∀ m : Launch,
      m.SameTimers ((m.advance seq .skipped).note seq "shutdown in progress") := fun m =>
    (sameTimers_advance m seq _).trans (sameBooks_note _ _ _).toSameTimers
  have hask : l.SameTimers (l.advance seq .evaluatingCondition) := sameTimers_advance l seq _
  unfold gate
  cases a.condition with
  | none =>
      dsimp only
      split
      · exact hskip l
      · exact hpass l
  | some c =>
      dsimp only
      split
      · rename_i heq
        obtain ⟨rfl, -⟩ := Prod.mk.inj heq
        exact hask.trans (sameTimers_fail _ seq a.deed _)
      · rename_i heq
        obtain ⟨rfl, -⟩ := Prod.mk.inj heq
        exact hask.trans (sameTimers_advance _ seq _)
      · rename_i heq
        obtain ⟨rfl, -⟩ := Prod.mk.inj heq
        split
        · exact hask.trans (hskip _)
        · exact hask.trans (hpass _)

/-- The record of an activation that comes to its deed is running; that of another one is
closed. -/
theorem Booked.gate (hl : l.Booked (seq :: opened)) (hs : l.journal.stage? seq = some .pending)
    (a : Action) :
    ((l.gate seq a).2 = none → (l.gate seq a).1.Booked (seq :: opened) ∧
        (l.gate seq a).1.journal.stage? seq = some .running) ∧
      ((l.gate seq a).2 ≠ none → (l.gate seq a).1.Booked opened) := by
  have hpass : ∀ (m : Launch) (s : Stage), m.Booked (seq :: opened) →
      m.journal.stage? seq = some s → s.isFinal = false →
      ((m.advance seq .activated).advance seq .running).Booked (seq :: opened) ∧
        ((m.advance seq .activated).advance seq .running).journal.stage? seq = some .running := by
    intro m s hm hs hf
    have hactivated : (m.advance seq .activated).journal.stage? seq = some .activated :=
      Journal.stage?_advance_self hs hf
    exact ⟨(hm.advance List.mem_cons_self _).advance List.mem_cons_self _,
      Journal.stage?_advance_self hactivated rfl⟩
  have hskip : ∀ m : Launch, m.Booked (seq :: opened) →
      ((m.advance seq .skipped).note seq "shutdown in progress").Booked opened := fun m hm =>
    (hm.close rfl).keep (sameBooks_note _ _ _)
  have hask : (l.advance seq .evaluatingCondition).Booked (seq :: opened) :=
    hl.advance List.mem_cons_self _
  have hasked : (l.advance seq .evaluatingCondition).journal.stage? seq =
      some .evaluatingCondition := Journal.stage?_advance_self hs rfl
  unfold Launch.gate
  cases a.condition with
  | none =>
      dsimp only
      split
      · exact ⟨by simp, fun _ => hskip l hl⟩
      · exact ⟨fun _ => hpass l _ hl hs rfl, by simp⟩
  | some c =>
      dsimp only
      split
      · rename_i heq
        obtain ⟨rfl, -⟩ := Prod.mk.inj heq
        exact ⟨by simp, fun _ => hask.fail a.deed _⟩
      · rename_i heq
        obtain ⟨rfl, -⟩ := Prod.mk.inj heq
        exact ⟨by simp, fun _ => hask.close rfl⟩
      · rename_i heq
        obtain ⟨rfl, -⟩ := Prod.mk.inj heq
        split
        · exact ⟨by simp, fun _ => hskip _ hask⟩
        · exact ⟨fun _ => hpass _ _ hask hasked rfl, by simp⟩

theorem sameTimers_settle (seq : Nat) (d : Deed) (x : Launch × Performed) :
    x.1.SameTimers (settle seq d x).1 := by
  obtain ⟨m, r⟩ := x
  match r with
  | .ok .done => exact sameTimers_advance m seq _
  | .ok .running => exact .refl m
  | .error e => exact sameTimers_fail m seq d e

/-- A deed that goes on in the background leaves its record to be closed later. -/
theorem Booked.settle {x : Launch × Performed} {d : Deed}
    (hx : x.1.Booked (if isRunning x.2 then opened else seq :: opened)) :
    (settle seq d x).1.Booked opened := by
  obtain ⟨m, r⟩ := x
  match r with
  | .ok .done => exact Booked.close hx rfl
  | .ok .running => exact hx
  | .error e => exact Booked.fail hx d e

end Launch

end Conductor
