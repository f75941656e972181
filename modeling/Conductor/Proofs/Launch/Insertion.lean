import Conductor.Proofs.Launch.SideBySide
import Conductor.Proofs.Record

/-!
# One more record

A launch with one more record is the same launch with that record put in among the others: the
records behind it have moved up by one, and so have the numbers under which timers, processes and
occurrences refer to them (`Launch.inserting`). Nothing that is done in an activation looks at
these numbers in any other way than to find a record, so activations do the same in both launches
(`Launch.sideBySide_inserted`).
-/

namespace Conductor

namespace Table

variable {κ α : Type} [LT κ] [DecidableEq κ]

/-- The table with other values under the same keys. -/
def mapValues {κ α : Type} [LT κ] (f : α → α) (t : Table κ α) : Table κ α :=
  ⟨t.entries.map fun e => (e.1, f e.2), List.pairwise_map.mpr t.ordered⟩

@[simp] theorem get?_mapValues (f : α → α) (t : Table κ α) (k : κ) :
    (t.mapValues f).get? k = (t.get? k).map f := by
  unfold get? mapValues
  dsimp only
  induction t.entries with
  | nil => rfl
  | cons e rest ih =>
      obtain ⟨k', v⟩ := e
      rw [List.map_cons]
      unfold find
      split
      · rfl
      · exact ih

variable [LE κ] [DecidableLT κ] [Std.IsLinearOrder κ] [Std.LawfulOrderLT κ]

theorem mapValues_insert (f : α → α) (t : Table κ α) (k : κ) (v : α) :
    (t.mapValues f).insert k (f v) = (t.insert k v).mapValues f := by
  refine ext_get? fun k' => ?_
  rw [get?_mapValues, get?_insert, get?_insert, get?_mapValues]
  split <;> rfl

theorem mapValues_erase (f : α → α) (t : Table κ α) (k : κ) :
    (t.mapValues f).erase k = (t.erase k).mapValues f := by
  refine ext_get? fun k' => ?_
  rw [get?_mapValues, get?_erase, get?_erase, get?_mapValues]
  split <;> rfl

theorem mapValues_eq_self {f : α → α} {t : Table κ α}
    (h : ∀ k v, t.get? k = some v → f v = v) : t.mapValues f = t := by
  refine ext_get? fun k => ?_
  rw [get?_mapValues]
  cases hk : t.get? k with
  | none => rfl
  | some v => rw [Option.map_some, h k v hk]

end Table

/-- The record, moved up by one. -/
def Record.next (r : Record) : Record :=
  { r with seq := r.seq + 1 }

theorem Record.next_advance (r : Record) (s : Stage) : (r.advance s).next = r.next.advance s := by
  unfold Record.advance
  rw [show r.next.stage = r.stage from rfl]
  split <;> rfl

/-! ## Other numbers -/

def RunningProcess.renumber (f : Nat → Nat) (r : RunningProcess) : RunningProcess :=
  { r with record := f r.record }

def Timer.renumber (f : Nat → Nat) (t : Timer) : Timer :=
  { t with record := t.record.map f }

/-- The occurrence as it is told where records have other numbers. -/
def Occurrence.renumber (f : Nat → Nat) : Occurrence → Occurrence
  | .entered n a => .entered (f n) a
  | .left n outcome => .left (f n) outcome
  | .kept r w => .kept (r.renumber f) w
  | .scheduled id t => .scheduled id (t.renumber f)
  | o => o

/-- A record that is put in among those of a launch. -/
structure Insertion where
  number : Nat
  record : Record
  /-- What happens to it, latest first. -/
  told : List Occurrence
  /-- How many things have happened before. -/
  before : Nat

namespace Insertion

variable {i : Insertion} {k n : Nat}

/-- The number of another record afterwards. -/
def shift (i : Insertion) (n : Nat) : Nat :=
  if n < i.number then n else n + 1

theorem shift_of_le (h : i.number ≤ n) : i.shift n = n + 1 :=
  if_neg (Nat.not_lt.mpr h)

theorem shift_inj : i.shift k = i.shift n ↔ k = n := by
  unfold shift
  split <;> split <;> omega

/-- The number of the record is that of no other. -/
theorem shift_ne_number : i.shift n ≠ i.number := by
  unfold shift
  split <;> omega

/-- Every number is that of the record or of another one. -/
theorem number_or_shift (i : Insertion) (k : Nat) : k = i.number ∨ ∃ n, k = i.shift n := by
  rcases Nat.lt_trichotomy k i.number with h | h | h
  · exact .inr ⟨k, (if_pos h).symm⟩
  · exact .inl h
  · refine .inr ⟨k - 1, ?_⟩
    rw [shift_of_le (Nat.le_sub_one_of_lt h)]
    omega

/-- The record of a number afterwards. -/
def moved (i : Insertion) (n : Nat) (r : Record) : Record :=
  if n < i.number then r else r.next

theorem moved_of_next {f : Record → Record} (hf : ∀ r, (f r).next = f r.next) (r : Record) :
    i.moved n (f r) = f (i.moved n r) := by
  unfold moved
  split
  · rfl
  · exact hf r

theorem opened_shift (i : Insertion) (n : Nat) (a : Action) :
    Record.opened (i.shift n) a = i.moved n (.opened n a) := by
  unfold shift moved
  split <;> rfl

/-- A history in which it is told what happens to the record. -/
def retell (i : Insertion) (os : List Occurrence) : List Occurrence :=
  (os.take (os.length - i.before)).map (·.renumber i.shift) ++
    (i.told ++ os.drop (os.length - i.before))

theorem retell_cons {os : List Occurrence} (h : i.before ≤ os.length)
    (o : Occurrence) : i.retell (o :: os) = o.renumber i.shift :: i.retell os := by
  have hlength : (o :: os).length - i.before = (os.length - i.before) + 1 := by
    rw [List.length_cons]
    omega
  unfold retell
  rw [hlength, List.take_succ_cons, List.drop_succ_cons, List.map_cons, List.cons_append]

end Insertion

/-! ## Journals -/

namespace Journal

variable {i : Insertion} {j j' m : Journal} {seq n : Nat}

theorem ext_record? (h : ∀ k, j.record? k = j'.record? k) : j = j' :=
  congrArg Journal.mk (Array.ext_getElem? h)

/-- The journal with the record. -/
def inserting (j : Journal) (i : Insertion) : Journal :=
  ⟨(j.records.extract 0 i.number).push i.record ++ (j.records.extract i.number).map Record.next⟩

theorem record?_inserting_number (h : i.number ≤ j.size) :
    (j.inserting i).record? i.number = some i.record := by
  have h : i.number ≤ j.records.size := h
  unfold inserting record?
  grind

theorem record?_inserting_shift (h : i.number ≤ j.size) (n : Nat) :
    (j.inserting i).record? (i.shift n) = (j.record? n).map (i.moved n) := by
  have h : i.number ≤ j.records.size := h
  unfold inserting record? Insertion.shift
  dsimp only
  by_cases hn : n < i.number
  · have hmoved : i.moved n = id := funext fun r => if_pos hn
    rw [if_pos hn, hmoved, Option.map_id]
    grind
  · have hmoved : i.moved n = Record.next := funext fun r => if_neg hn
    rw [if_neg hn, hmoved]
    grind

theorem size_inserting (h : i.number ≤ j.size) : (j.inserting i).size = i.shift j.size := by
  have hsize : (j.inserting i).size = j.size + 1 := by
    have h : i.number ≤ j.records.size := h
    unfold inserting size
    grind
  rw [hsize, Insertion.shift_of_le h]

/-- The journal is known by the records of all other numbers, and by the one put in. -/
theorem eq_inserting (h : i.number ≤ j.size) (hnumber : m.record? i.number = some i.record)
    (hshift : ∀ n, m.record? (i.shift n) = (j.record? n).map (i.moved n)) : m = j.inserting i := by
  refine ext_record? fun k => ?_
  rcases i.number_or_shift k with rfl | ⟨n, rfl⟩
  · rw [hnumber, record?_inserting_number h]
  · rw [hshift, record?_inserting_shift h]

theorem enter_inserting (h : i.number ≤ j.size) (a : Action) :
    ((j.inserting i).enter a).2 = (j.enter a).2.inserting i := by
  have hsize : i.number ≤ (j.enter a).2.size := by
    rw [size_enter]
    exact Nat.le_succ_of_le h
  refine eq_inserting hsize ?_ fun n => ?_
  · rw [record?_enter, size_inserting h, if_neg Insertion.shift_ne_number.symm,
      record?_inserting_number h]
  · rw [record?_enter, record?_enter, size_inserting h, record?_inserting_shift h]
    simp only [Insertion.shift_inj]
    split
    · rw [Option.map_some, i.opened_shift]
    · rfl

/-- What is done to a record comes to the same before the other one is put in and afterwards. -/
theorem inserting_of_map {f : Record → Record} (hf : ∀ r, (f r).next = f r.next)
    (h : i.number ≤ j.size) (hsize : j'.size = j.size)
    (hj : ∀ k, j'.record? k = if seq = k then (j.record? k).map f else j.record? k)
    (hm : ∀ k, m.record? k = if i.shift seq = k then ((j.inserting i).record? k).map f
      else (j.inserting i).record? k) : m = j'.inserting i := by
  refine eq_inserting (hsize ▸ h) ?_ fun n => ?_
  · rw [hm, if_neg Insertion.shift_ne_number, record?_inserting_number h]
  · rw [hm, hj, record?_inserting_shift h]
    simp only [Insertion.shift_inj]
    split
    · rw [Option.map_map, Option.map_map]
      exact congrArg (Option.map · _) (funext fun r => (Insertion.moved_of_next hf r).symm)
    · rfl

theorem advance_inserting (h : i.number ≤ j.size) (seq : Nat) (s : Stage) :
    (j.inserting i).advance (i.shift seq) s = (j.advance seq s).inserting i :=
  inserting_of_map (fun r => r.next_advance s) h (j.size_advance seq s)
    (j.record?_advance seq s) (record?_advance _ (i.shift seq) s)

theorem note_inserting (h : i.number ≤ j.size) (seq : Nat) (text : String) :
    (j.inserting i).note (i.shift seq) text = (j.note seq text).inserting i :=
  inserting_of_map (f := (·.withNote text)) (fun _ => rfl) h (j.size_note seq text)
    (j.record?_note seq text) (record?_note _ (i.shift seq) text)

theorem skip_inserting (h : i.number ≤ j.size) (a : Action) (why : String) :
    (j.inserting i).skip a why = (j.skip a why).inserting i := by
  have hentered : i.number ≤ (j.enter a).2.size := by
    rw [size_enter]
    exact Nat.le_succ_of_le h
  have hadvanced : i.number ≤ ((j.enter a).2.advance j.size .skipped).size := by
    rw [size_advance]
    exact hentered
  unfold skip
  dsimp only
  rw [enter_fst, enter_fst, size_inserting h, enter_inserting h, advance_inserting hentered,
    note_inserting hadvanced]

end Journal

/-! ## Launches -/

namespace Launch

/-- The launch with one more record. -/
def inserting (l : Launch) (i : Insertion) : Launch :=
  { l with
    journal := l.journal.inserting i
    processes := l.processes.mapValues (·.renumber i.shift)
    timers := l.timers.mapValues (·.renumber i.shift)
    history := i.retell l.history }

/-- The second launch is the first one with the record put in, which has a place there. -/
structure Inserted (i : Insertion) (l m : Launch) : Prop where
  number : i.number ≤ l.journal.size
  before : i.before ≤ l.history.length
  eq : m = l.inserting i

variable {i : Insertion} {l m : Launch} {α : Type}

namespace Inserted

/-! ### What an activation consists of -/

theorem size (h : Inserted i l m) : m.journal.size = i.shift l.journal.size := by
  rw [h.eq]
  exact Journal.size_inserting h.number

theorem context (h : Inserted i l m) : m.context = l.context := by
  rw [h.eq]
  rfl

theorem journal (h : Inserted i l m) : m.journal = l.journal.inserting i := by
  rw [h.eq]
  rfl

/-- What only concerns the context is done alike. -/
theorem withContext (h : Inserted i l m) (c : Context) :
    Inserted i { l with context := c } { m with context := c } := by
  obtain ⟨hn, hb, rfl⟩ := h
  exact ⟨hn, hb, rfl⟩

theorem happen (h : Inserted i l m) (o : Occurrence) :
    Inserted i (l.happen o) (m.happen (o.renumber i.shift)) := by
  obtain ⟨hn, hb, rfl⟩ := h
  refine ⟨hn, Nat.le_succ_of_le hb, ?_⟩
  have hhistory := (Insertion.retell_cons hb o).symm
  exact congrArg (fun os => { l.inserting i with history := os }) hhistory

theorem withJournal (h : Inserted i l m) {j j' : Journal} (hj : l.journal.size ≤ j.size)
    (hj' : j' = j.inserting i) : Inserted i { l with journal := j } { m with journal := j' } := by
  obtain ⟨hn, hb, rfl⟩ := h
  subst hj'
  exact ⟨Nat.le_trans hn hj, hb, rfl⟩

theorem advance (h : Inserted i l m) (seq : Nat) (s : Stage) :
    Inserted i (l.advance seq s) (m.advance (i.shift seq) s) := by
  refine h.withJournal (Nat.le_of_eq (l.journal.size_advance seq s).symm) ?_
  rw [h.journal]
  exact Journal.advance_inserting h.number seq s

theorem note (h : Inserted i l m) (seq : Nat) (text : String) :
    Inserted i (l.note seq text) (m.note (i.shift seq) text) := by
  refine h.withJournal (Nat.le_of_eq (l.journal.size_note seq text).symm) ?_
  rw [h.journal]
  exact Journal.note_inserting h.number seq text

theorem enter (h : Inserted i l m) (a : Action) : Inserted i (l.enter a).2 (m.enter a).2 := by
  have hopened : Inserted i { l with journal := (l.journal.enter a).2 }
      { m with journal := (m.journal.enter a).2 } := by
    refine h.withJournal ?_ ?_
    · rw [Journal.size_enter]
      exact Nat.le_succ _
    · rw [h.journal]
      exact Journal.enter_inserting h.number a
  have htold := hopened.happen (.entered l.journal.size a)
  rw [Occurrence.renumber, ← h.size] at htold
  exact htold

theorem skipAll (h : Inserted i l m) (as : List Action) (why : String) :
    Inserted i (l.skipAll as why) (m.skipAll as why) := by
  induction as generalizing l m with
  | nil => exact h
  | cons a rest ih =>
      have hskipped : Inserted i { l with journal := l.journal.skip a why }
          { m with journal := m.journal.skip a why } := by
        refine h.withJournal ?_ ?_
        · rw [Journal.size_skip]
          exact Nat.le_succ _
        · rw [h.journal]
          exact Journal.skip_inserting h.number a why
      exact ih hskipped

theorem emit (h : Inserted i l m) (e : Event) : Inserted i (l.emit e) (m.emit e) := by
  unfold Launch.emit
  rw [h.context]
  exact (h.withContext _).happen (.emitted e)

theorem requestShutdown (h : Inserted i l m) (reason : String) (due : Bool) :
    (m.requestShutdown reason due).1 = (l.requestShutdown reason due).1 ∧
      Inserted i (l.requestShutdown reason due).2 (m.requestShutdown reason due).2 := by
  unfold Launch.requestShutdown
  rw [h.context]
  split
  · exact ⟨rfl, h⟩
  · exact ⟨rfl, (h.withContext _).emit _⟩

theorem onFailure (h : Inserted i l m) (reason : String) :
    Inserted i (l.onFailure reason) (m.onFailure reason) := by
  have hfatal : Inserted i { l with fatal := some reason } { m with fatal := some reason } := by
    obtain ⟨hn, hb, rfl⟩ := h
    exact ⟨hn, hb, rfl⟩
  have hif : (m.config.failurePolicy = .failFast ∧ m.fatal = none) =
      (l.config.failurePolicy = .failFast ∧ l.fatal = none) := by
    rw [h.eq]
    rfl
  unfold Launch.onFailure
  simp only [hif]
  split
  · exact (hfatal.requestShutdown _ false).2
  · exact h

theorem fail (h : Inserted i l m) (seq : Nat) (d : Deed) (e : LaunchError) :
    Alike (Inserted i) (l.fail seq d e) (m.fail (i.shift seq) d e) :=
  ⟨((h.happen (.failed e.kind e.message)).advance seq _).onFailure _, rfl⟩

theorem gate (h : Inserted i l m) (seq : Nat) (a : Action) :
    Alike (Inserted i) (l.gate seq a) (m.gate (i.shift seq) a) := by
  -- A condition that lets the action through, or none, leaves it to the shutdown.
  have hpass {n n' : Launch} (hn : Inserted i n n') :
      Alike (Inserted i)
        (if n.context.shuttingDown && a.deed.startsWork then
          ((n.advance seq .skipped).note seq "shutdown in progress", some Outcome.skipped)
        else ((n.advance seq .activated).advance seq .running, none))
        (if n'.context.shuttingDown && a.deed.startsWork then
          ((n'.advance (i.shift seq) .skipped).note (i.shift seq) "shutdown in progress",
            some Outcome.skipped)
        else ((n'.advance (i.shift seq) .activated).advance (i.shift seq) .running, none)) := by
    rw [hn.context]
    split
    · exact ⟨(hn.advance seq _).note seq _, rfl⟩
    · exact ⟨(hn.advance seq _).advance seq _, rfl⟩
  unfold Launch.gate
  cases a.condition with
  | none => exact hpass h
  | some p =>
      have hasked := h.advance seq .evaluatingCondition
      dsimp only
      rw [h.context]
      cases l.context.decide p with
      | error e =>
          obtain ⟨hlaunches, hresult⟩ := hasked.fail seq a.deed e
          exact ⟨hlaunches, congrArg some hresult⟩
      | ok b =>
          cases b with
          | false => exact ⟨hasked.advance seq .skipped, rfl⟩
          | true => exact hpass hasked

theorem settle {x y : Launch × Performed} (h : Alike (Inserted i) x y) (seq : Nat) (d : Deed) :
    Alike (Inserted i) (Launch.settle seq d x) (Launch.settle (i.shift seq) d y) := by
  obtain ⟨n, r⟩ := x
  obtain ⟨n', r'⟩ := y
  obtain ⟨hn, hr⟩ := h
  obtain rfl : r' = r := hr
  match r' with
  | .ok .done => exact ⟨hn.advance seq .completed, rfl⟩
  | .ok .running => exact ⟨hn, rfl⟩
  | .error e => exact hn.fail seq d e

/-! ### Timers and processes -/

theorem schedule (h : Inserted i l m) (delay : Duration) (as : List Action) (scope : Scope)
    (record : Option Nat) (cancel : Bool) :
    Inserted i (l.schedule delay as scope record cancel)
      (m.schedule delay as scope (record.map i.shift) cancel) := by
  let timer : Timer := ⟨record, as, scope, cancel, ⟨l.now.nanos + delay.nanos⟩⟩
  have hpending (groups : List (List Nat)) : Inserted i
      { l with
        nextTimer := l.nextTimer + 1
        timers := l.timers.insert l.nextTimer timer
        groupTimers := groups }
      { m with
        nextTimer := l.nextTimer + 1
        timers := m.timers.insert l.nextTimer (timer.renumber i.shift)
        groupTimers := groups } := by
    obtain ⟨hn, hb, rfl⟩ := h
    refine ⟨hn, hb, ?_⟩
    exact congrArg
      (fun timers => { l.inserting i with
        nextTimer := l.nextTimer + 1, timers, groupTimers := groups })
      (Table.mapValues_insert (Timer.renumber i.shift) l.timers l.nextTimer timer)
  obtain rfl := h.eq
  exact (hpending _).happen (.scheduled l.nextTimer timer)

theorem cancelTimer (h : Inserted i l m) (why : String) (id : Nat) :
    Inserted i (l.cancelTimer why id) (m.cancelTimer why id) := by
  have hget : m.timers.get? id = (l.timers.get? id).map (·.renumber i.shift) := by
    rw [h.eq]
    exact Table.get?_mapValues _ _ id
  unfold Launch.cancelTimer
  rw [hget]
  cases l.timers.get? id with
  | none => exact h
  | some t =>
      have htaken : Inserted i ({ l with timers := l.timers.erase id }.happen (.cancelled id))
          ({ m with timers := m.timers.erase id }.happen (.cancelled id)) := by
        refine happen ?_ (.cancelled id)
        obtain ⟨hn, hb, rfl⟩ := h
        refine ⟨hn, hb, ?_⟩
        exact congrArg (fun timers => { l.inserting i with timers })
          (Table.mapValues_erase (Timer.renumber i.shift) l.timers id)
      dsimp only [Option.map_some]
      rw [show (t.renumber i.shift).record = t.record.map i.shift from rfl]
      cases t.record with
      | none => exact htaken
      | some seq => exact (htaken.note seq why).advance seq .completed

theorem cancelTimers (h : Inserted i l m) (why : String) (ids : List Nat) :
    Inserted i (l.cancelTimers why ids) (m.cancelTimers why ids) := by
  induction ids generalizing l m with
  | nil => exact h
  | cons id rest ih => exact ih (h.cancelTimer why id)

theorem regroup (h : Inserted i l m) (groups : List (List Nat)) :
    Inserted i { l with groupTimers := groups } { m with groupTimers := groups } := by
  obtain ⟨hn, hb, rfl⟩ := h
  exact ⟨hn, hb, rfl⟩

theorem endGroup (h : Inserted i l m) (failure : Option LaunchError) :
    Inserted i (l.endGroup failure) (m.endGroup failure) := by
  have hgroups : m.groupTimers = l.groupTimers := by
    rw [h.eq]
    rfl
  unfold Launch.endGroup
  rw [hgroups]
  cases l.groupTimers with
  | nil => exact h
  | cons own outer =>
      cases failure with
      | none => exact h.regroup _
      | some e => exact (h.regroup outer).cancelTimers _ own

theorem keepProcess (h : Inserted i l m) (r : RunningProcess) (w : Option Nat) :
    Inserted i (l.keepProcess r w) (m.keepProcess (r.renumber i.shift) w) := by
  refine happen ?_ (.kept r w)
  obtain ⟨hn, hb, rfl⟩ := h
  refine ⟨hn, hb, ?_⟩
  exact congrArg (fun processes => { l.inserting i with processes })
    (Table.mapValues_insert (RunningProcess.renumber i.shift) l.processes r.info.id.number r)

theorem register (h : Inserted i l m) (g : Handler) :
    Inserted i { l with registry := l.registry.register g }
      { m with registry := m.registry.register g } := by
  obtain ⟨hn, hb, rfl⟩ := h
  exact ⟨hn, hb, rfl⟩

theorem attend (h : Inserted i l m) (seq : Nat) (a : Action) (onExit : List Action)
    (name : String) (g : ProcessHandle) :
    Inserted i (l.attend seq a onExit name g) (m.attend (i.shift seq) a onExit name g) := by
  let info : ProcessInfo := ⟨g.id, a.id, name, g.pid, g.command⟩
  have htold := (h.note seq ("pid " ++ toString g.pid)).emit (.processStarted info)
  unfold Launch.attend
  dsimp only
  generalize (l.note seq ("pid " ++ toString g.pid)).emit (.processStarted info) = n at htold ⊢
  generalize (m.note (i.shift seq) ("pid " ++ toString g.pid)).emit (.processStarted info) = n'
    at htold ⊢
  have hregistered := htold.register (.onExitOf g.id onExit n.context.snapshot)
  obtain ⟨hn, hb, rfl⟩ := id htold
  split
  · exact htold.keepProcess ⟨seq, info, a, n.context.snapshot⟩ none
  · exact hregistered.keepProcess ⟨seq, info, a, n.context.snapshot⟩ (some n.registry.nextId)

theorem startProcess (h : Inserted i l m) (spec : ProcessSpec) :
    (m.startProcess spec).1 = (l.startProcess spec).1 ∧
      Inserted i (l.startProcess spec).2 (m.startProcess spec).2 := by
  have hspawn : m.supervisor.spawn m.context.host spec =
      l.supervisor.spawn l.context.host spec := by
    rw [h.eq]
    rfl
  have htaken (s : Supervisor) :
      Inserted i { l with supervisor := s } { m with supervisor := s } := by
    obtain ⟨hn, hb, rfl⟩ := h
    exact ⟨hn, hb, rfl⟩
  unfold Launch.startProcess
  rw [hspawn]
  cases l.supervisor.spawn l.context.host spec with
  | mk r s =>
      cases r with
      | error e => exact ⟨rfl, htaken s⟩
      | ok g => exact ⟨rfl, (htaken s).happen (.started g.id spec)⟩

theorem execute (h : Inserted i l m) (seq : Nat) (a : Action) (t : ProcessTemplate)
    (onExit : List Action) :
    Alike (Inserted i) (l.execute seq a t onExit) (m.execute (i.shift seq) a t onExit) := by
  have hcommand : m.context.resolveAll t.command = l.context.resolveAll t.command := by
    rw [h.context]
  have hspec : t.toSpec m.context m.config.defaultOutput (m.attempts + 1) =
      t.toSpec l.context l.config.defaultOutput (l.attempts + 1) := by
    rw [h.eq]
    rfl
  have htried : Inserted i { l with attempts := l.attempts + 1 }
      { m with attempts := m.attempts + 1 } := by
    obtain ⟨hn, hb, rfl⟩ := h
    exact ⟨hn, hb, rfl⟩
  unfold Launch.execute
  rw [hcommand]
  cases l.context.resolveAll t.command with
  | error e => exact ⟨h, rfl⟩
  | ok command =>
      dsimp only
      rw [hspec]
      cases t.toSpec l.context l.config.defaultOutput (l.attempts + 1) command with
      | error e => exact ⟨htried, rfl⟩
      | ok spec =>
          obtain ⟨hresult, hstarted⟩ := htried.startProcess spec
          dsimp only
          cases hl : ({ l with attempts := l.attempts + 1 } : Launch).startProcess spec with
          | mk r n =>
              cases hm : ({ m with attempts := m.attempts + 1 } : Launch).startProcess spec with
              | mk r' n' =>
                  rw [hl, hm] at hresult hstarted
                  obtain rfl : r' = r := hresult
                  cases r' with
                  | error e => exact ⟨hstarted, rfl⟩
                  | ok g => exact ⟨hstarted.attend seq a onExit spec.name g, rfl⟩

/-! ### Deeds -/

theorem performLeaf (h : Inserted i l m) (seq : Nat) (a : Action) (d : Deed) :
    Alike (Inserted i) (l.performLeaf seq a d) (m.performLeaf (i.shift seq) a d) := by
  cases d with
  | log level message =>
      rw [Launch.performLeaf, Launch.performLeaf, h.context]
      cases l.context.resolve message with
      | error e => exact ⟨h, rfl⟩
      | ok text => exact ⟨h.happen (.line level text), rfl⟩
  | execute t onExit => exact h.execute seq a t onExit
  | declare argument =>
      rw [Launch.performLeaf, Launch.performLeaf, h.context]
      cases argument.resolve l.context with
      | error e => exact ⟨h, rfl⟩
      | ok argument =>
          dsimp only
          cases l.context.declare argument with
          | error e => exact ⟨h, rfl⟩
          | ok c => exact ⟨h.withContext c, rfl⟩
  | setVariable target name value =>
      rw [Launch.performLeaf, Launch.performLeaf, h.context]
      cases value.resolve l.context with
      | error e => exact ⟨h, rfl⟩
      | ok v =>
          dsimp only
          cases l.context.write target name v with
          | mk granted c =>
              cases granted with
              | true => exact ⟨h.withContext c, rfl⟩
              | false => exact ⟨(h.withContext c).note seq _, rfl⟩
  | unsetVariable name =>
      rw [Launch.performLeaf, Launch.performLeaf, h.context]
      exact ⟨h.withContext _, rfl⟩
  | setEnv name value =>
      rw [Launch.performLeaf, Launch.performLeaf, h.context]
      cases l.context.resolve value with
      | error e => exact ⟨h, rfl⟩
      | ok text => exact ⟨h.withContext _, rfl⟩
  | unsetEnv name =>
      rw [Launch.performLeaf, Launch.performLeaf, h.context]
      exact ⟨h.withContext _, rfl⟩
  | register g => exact ⟨h.register g, rfl⟩
  | unregister name =>
      refine ⟨happen ?_ (.unregistered name), rfl⟩
      obtain ⟨hn, hb, rfl⟩ := h
      exact ⟨hn, hb, rfl⟩
  | emit e => exact ⟨h.emit e, rfl⟩
  | timer period children cancel =>
      rw [Launch.performLeaf, Launch.performLeaf, h.context]
      cases l.context.resolve period with
      | error e => exact ⟨h, rfl⟩
      | ok text =>
          dsimp only
          cases readPeriod text with
          | error e => exact ⟨h, rfl⟩
          | ok delay => exact ⟨h.schedule delay children _ (some seq) cancel, rfl⟩
  | shutdown reason =>
      rw [Launch.performLeaf, Launch.performLeaf, h.context]
      cases l.context.resolve reason with
      | error e => exact ⟨h, rfl⟩
      | ok reason =>
          obtain ⟨hfirst, hasked⟩ := h.requestShutdown reason false
          dsimp only
          cases hl : l.requestShutdown reason false with
          | mk first n =>
              cases hm : m.requestShutdown reason false with
              | mk first' n' =>
                  rw [hl, hm] at hfirst hasked
                  obtain rfl : first' = first := hfirst
                  cases first' with
                  | true => exact ⟨hasked, rfl⟩
                  | false => exact ⟨hasked.note seq _, rfl⟩
  | group | splice | compute => exact ⟨h, rfl⟩

theorem asked (h : Inserted i l m) (d : Deed) : Inserted i (l.asked d) (m.asked d) := by
  have hheard (y : Yield) : Inserted i (l.heard y) (m.heard y) := by
    unfold heard
    split
    · exact h.happen .interrupted
    · exact h
  unfold Launch.asked
  rw [h.context]
  split
  · exact hheard _
  · exact hheard _
  · exact h

theorem inScope (h : Inserted i l m) (scope : Scope) :
    Inserted i (l.inScope scope) (m.inScope scope) := by
  unfold Launch.inScope
  rw [h.context]
  exact h.withContext _

theorem restore (h : Inserted i l m) (depth : Nat) :
    Inserted i { l with context := l.context.restore depth }
      { m with context := m.context.restore depth } := by
  rw [h.context]
  exact h.withContext _

theorem beginGroup (h : Inserted i l m) : Inserted i l.beginGroup m.beginGroup := by
  obtain ⟨hn, hb, rfl⟩ := h
  exact ⟨hn, hb, rfl⟩

end Inserted

/-- **One more record changes nothing that is done.** -/
theorem sideBySide_inserted (i : Insertion) :
    SideBySide (fun _ => True) i.shift fun _ => Inserted i where
  size h := h.size
  depth h := by rw [h.context]
  enter a h := h.enter a
  gate seq a h := h.gate seq a
  leaf seq a _ _ h := h.performLeaf seq a a.deed
  plan x _ h := by rw [h.context]
  asked x _ h := h.asked x
  settle seq d h := Inserted.settle h seq d
  leave seq outcome h := h.happen (.left seq outcome)
  skipAll as why h := h.skipAll as why
  opened scope h := h.beginGroup.inScope scope
  closed depth failure h _ := (h.restore depth).endGroup failure

end Launch

end Conductor
