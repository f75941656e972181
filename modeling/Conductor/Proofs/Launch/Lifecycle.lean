import Conductor.Proofs.Launch.Course
import Conductor.Proofs.Launch.Ending
import Conductor.Proofs.Launch.Siblings
import Conductor.Proofs.Launch.Timing
import Conductor.Proofs.Launch.Upkeep
import Conductor.Proofs.Record

/-!
# Every record goes through one lifecycle

Records are moved on in many places: when a condition is evaluated, when an action is let through,
when its deed is done or has failed, when a timer fires or is cancelled, when a process ends.
Whoever moves on a record that is not his own completes it, and by then its activation has been
let through. So between two bodies every record is running or closed, by one of few ways
(`RecordsInOrder`), and at any moment before it has gone a part of that way.
-/

namespace Conductor

/-! ## The journal at any moment -/

/-- What holds of a journal whatever is done with its records. -/
structure Journal.Invariant (P : Journal → Prop) : Prop where
  enter : ∀ {j} a, P j → P (j.enter a).2
  advance : ∀ {j} seq s, P j → P (j.advance seq s)
  note : ∀ {j} seq text, P j → P (j.note seq text)
  skip : ∀ {j} a why, P j → P (j.skip a why)

theorem Journal.invariant_consistent : Journal.Invariant Journal.Consistent where
  enter a h := h.enter a
  advance seq s h := h.advance seq s
  note seq text h := h.note seq text
  skip a why h := h.skip a why

theorem Journal.invariant_becomes (j : Journal) : Journal.Invariant j.Becomes where
  enter a h := h.trans (Journal.becomes_enter _ a)
  advance seq s h := h.trans (Journal.becomes_advance _ seq s)
  note seq text h := h.trans (Journal.becomes_note _ seq text)
  skip a why h := h.trans (Journal.becomes_skip _ a why)

section Invariant

variable {P : Journal → Prop} {p : Deed → Prop} {l m : Launch}

theorem Journal.Invariant.effect (hP : Journal.Invariant P) (h : Effect p l m)
    (hl : P l.journal) : P m.journal := by
  cases h with
  | enter a => exact hP.enter a hl
  | advance seq stage => exact hP.advance seq stage hl
  | note seq text => exact hP.note seq text hl
  | skip a why => exact hP.skip a why hl
  | cancelTimer why id t ht =>
      show P (t.close why l.journal)
      unfold Timer.close
      split
      · exact hl
      · exact hP.advance _ _ (hP.note _ _ hl)
  | spawn spec seq a t onExit h _ _ _ _ _ _ =>
      obtain ⟨r, -, -, -, -, heq⟩ := (l.withStarted h spec).attend_eq seq a onExit spec.name h
      rw [heq]
      exact hP.note _ _ hl
  | _ => exact hl

theorem Journal.Invariant.effects (hP : Journal.Invariant P) (h : Effects p l m)
    (hl : P l.journal) : P m.journal := by
  induction h with
  | refl => exact hl
  | tail _ hlast ih => exact hP.effect hlast ih

/-- **What holds of a journal whatever is done with its records, every move keeps.** -/
theorem Journal.Invariant.moves (hP : Journal.Invariant P) (h : Moves p l m)
    (hl : P l.journal) : P m.journal := by
  induction h with
  | refl => exact hl
  | tail _ hlast ih =>
      obtain ⟨k, q, hk, heffects⟩ := Launch.undisturbed_of_move hlast
      exact hP.effects heffects (hk.journal ▸ ih)

/-- Records are only added, and one that is closed stays as it is. -/
theorem Moves.journal (h : Moves p l m) : l.journal.Becomes m.journal :=
  (Journal.invariant_becomes l.journal).moves h (.refl _)

end Invariant

namespace Launch

variable {p : Deed → Prop} {l m n : Launch} {seq : Nat} {a : Action}

/-! ## What leaves the records alone -/

/-- No record is added or moved on. -/
structure SameRecords (l m : Launch) : Prop where
  stages : l.journal.SameStages m.journal
  entered : ∀ k a, .entered k a ∈ m.history ↔ .entered k a ∈ l.history

theorem SameRecords.refl (l : Launch) : l.SameRecords l :=
  ⟨.refl _, fun _ _ => Iff.rfl⟩

theorem SameRecords.trans (h : l.SameRecords m) (h' : m.SameRecords n) : l.SameRecords n :=
  ⟨h.stages.trans h'.stages, fun k a => (h'.entered k a).trans (h.entered k a)⟩

theorem sameRecords_of_same (hj : m.journal = l.journal) (hh : m.history = l.history) :
    l.SameRecords m :=
  ⟨hj ▸ .refl _, fun _ _ => by rw [hh]⟩

theorem sameRecords_of_cons {o : Occurrence} (ho : ∀ k a, o ≠ .entered k a)
    (hj : m.journal = l.journal) (hh : m.history = o :: l.history) : l.SameRecords m := by
  refine ⟨hj ▸ .refl _, fun k a => ?_⟩
  rw [hh, List.mem_cons]
  exact ⟨fun h => h.resolve_left fun heq => ho k a heq.symm, .inr⟩

theorem sameRecords_happen (l : Launch) {o : Occurrence} (ho : ∀ k a, o ≠ .entered k a) :
    l.SameRecords (l.happen o) :=
  sameRecords_of_cons ho rfl rfl

/-- What begins and ends no activation opens no record. -/
theorem sameRecords_of_continues (hj : l.journal.SameStages m.journal) (h : l.Continues m) :
    l.SameRecords m := by
  obtain ⟨os, hos, hq⟩ := h
  refine ⟨hj, fun k a => ?_⟩
  rw [hos, List.mem_append]
  refine ⟨fun h => h.resolve_left fun hmem => ?_, .inr⟩
  have hmark := hq _ hmem
  cases hmark

theorem sameRecords_note (l : Launch) (seq : Nat) (text : String) :
    l.SameRecords (l.note seq text) :=
  ⟨Journal.sameStages_note _ _ _, fun _ _ => Iff.rfl⟩

theorem sameRecords_requestShutdown (l : Launch) (reason : String) (due : Bool) :
    l.SameRecords (l.requestShutdown reason due).2 := by
  unfold requestShutdown
  split
  · exact .refl l
  · exact sameRecords_of_cons (o := .emitted (.shutdownRequested reason due)) nofun rfl rfl

theorem sameRecords_onFailure (l : Launch) (reason : String) :
    l.SameRecords (l.onFailure reason) := by
  unfold onFailure
  split
  · have hfatal : l.SameRecords { l with fatal := some reason } := sameRecords_of_same rfl rfl
    exact hfatal.trans (sameRecords_requestShutdown _ _ _)
  · exact .refl l

theorem sameRecords_report (l : Launch) (e : LaunchError) : l.SameRecords (l.report e) := by
  have hfailed : l.SameRecords (l.happen (.failed e.kind e.message)) :=
    sameRecords_happen l nofun
  exact hfailed.trans (sameRecords_onFailure _ _)

theorem sameRecords_sendSignal (signal : Signal) (id : ProcessId) (l : Launch) :
    l.SameRecords (l.sendSignal signal id) := by
  have hsent : ∀ s, l.SameRecords { l with supervisor := s } := fun s =>
    sameRecords_of_same rfl rfl
  unfold sendSignal
  split
  · exact (hsent _).trans (sameRecords_happen _ nofun)
  · exact hsent _
  · exact (hsent _).trans (sameRecords_report _ _)

theorem sameRecords_signalLive (signal : Signal) (l : Launch) :
    l.SameRecords (l.signalLive signal) := by
  unfold signalLive
  generalize l.supervisor.live = ids
  induction ids generalizing l with
  | nil => exact .refl l
  | cons id rest ih => exact (sameRecords_sendSignal signal id l).trans (ih _)

theorem sameRecords_killRemaining (l : Launch) : l.SameRecords l.killRemaining := by
  unfold killRemaining
  split
  · exact .refl l
  · have hforced : l.SameRecords { l with forced := true } := sameRecords_of_same rfl rfl
    exact hforced.trans (sameRecords_signalLive _ _)

theorem sameRecords_releaseProcess (l : Launch) (id : ProcessId) :
    l.SameRecords (l.releaseProcess id) := by
  rcases l.releaseProcess_cases id with ⟨-, h⟩ | ⟨g, -, -, h⟩
  · rw [h]
    exact sameRecords_of_same rfl rfl
  · rw [h]
    exact sameRecords_of_cons (o := .released g) nofun rfl rfl

theorem sameRecords_asked (l : Launch) (d : Deed) : l.SameRecords (l.asked d) := by
  have hheard : ∀ y, (l.heard y).journal = l.journal := by
    intro y
    unfold heard
    split <;> rfl
  refine sameRecords_of_continues ?_ (aside_asked l d).continues
  unfold asked
  split
  · exact hheard _ ▸ .refl _
  · exact hheard _ ▸ .refl _
  · exact .refl _

/-- What is kept of a process that has started is noted on its record. -/
theorem journal_execute (l : Launch) (seq : Nat) (a : Action) (t : ProcessTemplate)
    (onExit : List Action) :
    (l.execute seq a t onExit).1.journal = l.journal ∨
      ∃ text, (l.execute seq a t onExit).1.journal = l.journal.note seq text := by
  unfold execute
  split
  · exact .inl rfl
  · dsimp only
    split
    · exact .inl rfl
    · split
      · rename_i hs
        rw [startProcess_error hs]
        exact .inl rfl
      · rename_i spec _ _ h l' hs
        obtain ⟨-, -, rfl⟩ := startProcess_ok hs
        obtain ⟨r, -, -, -, -, heq⟩ :=
          ((({ l with attempts := l.attempts + 1 } : Launch).withStarted h spec)).attend_eq seq a
            onExit spec.name h
        rw [heq]
        exact .inr ⟨_, rfl⟩

/-- A deed without children puts at most a note on its record. -/
theorem sameRecords_performLeaf (l : Launch) (seq : Nat) (a : Action) (d : Deed) :
    l.SameRecords (l.performLeaf seq a d).1 := by
  refine sameRecords_of_continues ?_ (continues_performLeaf l seq a d)
  have hsame : ∀ {j : Journal}, j = l.journal → l.journal.SameStages j := fun hj => hj ▸ .refl _
  cases d with
  | execute t onExit =>
      rcases journal_execute l seq a t onExit with hj | ⟨text, hj⟩
      · exact hsame hj
      · exact hj ▸ Journal.sameStages_note _ _ _
  | setVariable target name value =>
      rw [performLeaf]
      split
      · exact .refl _
      · split
        · exact .refl _
        · exact Journal.sameStages_note _ _ _
  | shutdown reason =>
      rw [performLeaf]
      split
      · exact .refl _
      · rename_i reason _
        have hask := (sameRecords_requestShutdown l reason false).stages
        split
        · rename_i hr
          rw [hr] at hask
          exact hask
        · rename_i hr
          rw [hr] at hask
          exact hask.trans (Journal.sameStages_note _ _ _)
  | log | declare | setEnv | timer =>
      rw [performLeaf]
      repeat' split
      all_goals exact .refl _
  | _ => exact .refl _

/-! ## Between two bodies -/

/-- Every record is that of an activation that goes on or is over, or of an action that was passed
over. -/
structure RecordsInOrder (l : Launch) : Prop where
  entered : ∀ k a, .entered k a ∈ l.history →
    ∃ r, l.journal.record? k = some r ∧ r.IsOf a ∧ r.InOrder a.condition.isSome
  others : ∀ k r, l.journal.record? k = some r → (∀ a, .entered k a ∉ l.history) →
    r.history = [.pending, .skipped] ∧ r.stage = .skipped

theorem RecordsInOrder.keep (hl : l.RecordsInOrder) (h : l.SameRecords m) : m.RecordsInOrder := by
  -- Records that differ in their notes alone are in order alike.
  have hfind : ∀ {i j : Journal} {k r}, (j.record? k).map (·.unnoted) =
      (i.record? k).map (·.unnoted) → i.record? k = some r →
      ∃ r', j.record? k = some r' ∧ r'.unnoted = r.unnoted := by
    intro i j k r heq hr
    rw [hr] at heq
    exact Option.map_eq_some_iff.mp heq
  constructor
  · intro k a hmem
    obtain ⟨r, hr, hof, horder⟩ := hl.entered k a ((h.entered k a).mp hmem)
    obtain ⟨r', hr', heq⟩ := hfind (h.stages k) hr
    have hof' : r'.unnoted.IsOf a := heq ▸ ⟨hof.action, hof.kind, hof.label⟩
    have horder' : r'.unnoted.InOrder a.condition.isSome := heq ▸ horder
    exact ⟨r', hr', ⟨hof'.action, hof'.kind, hof'.label⟩, horder'⟩
  · intro k r' hr' hnone
    obtain ⟨r, hr, heq⟩ := hfind (h.stages k).symm hr'
    have hskipped := hl.others k r hr fun a hmem => hnone a ((h.entered k a).mpr hmem)
    exact ⟨(congrArg Record.history heq).symm.trans hskipped.1,
      (congrArg Record.stage heq).symm.trans hskipped.2⟩

/-- Any record may be completed or fail: one that is running is closed, and one that is closed
stays so. -/
theorem RecordsInOrder.advance (hl : l.RecordsInOrder) (seq : Nat) {s : Stage}
    (hs : s = .completed ∨ ∃ reason, s = .failed reason) :
    (l.advance seq s).RecordsInOrder := by
  have hrecord : ∀ k, (l.advance seq s).journal.record? k =
      if seq = k then (l.journal.record? k).map (·.advance s) else l.journal.record? k :=
    l.journal.record?_advance seq s
  constructor
  · intro k a hmem
    obtain ⟨r, hr, hof, horder⟩ := hl.entered k a hmem
    rw [hrecord, hr]
    split
    · exact ⟨_, rfl, hof.becomes (r.becomes_advance s), horder.advance hs⟩
    · exact ⟨_, rfl, hof, horder⟩
  · intro k r hr hnone
    rw [hrecord] at hr
    split at hr
    · obtain ⟨r₀, hr₀, rfl⟩ := Option.map_eq_some_iff.mp hr
      obtain ⟨hh, hstage⟩ := hl.others k r₀ hr₀ hnone
      have hclosed : r₀.isFinished = true := by
        rw [Record.isFinished, hstage]
        rfl
      rw [Record.advance_of_isFinished hclosed]
      exact ⟨hh, hstage⟩
    · exact hl.others k r hr hnone

/-- The gate moves the record on until the action is let through, or to its end. -/
theorem gate_stages (l : Launch) (seq : Nat) (a : Action) : ∃ stages,
    ({ l with journal := l.journal.advanceAll seq stages } : Launch).SameRecords
        (l.gate seq a).1 ∧
      ∀ k, ((Record.opened k a).advanceAll stages).InOrder a.condition.isSome := by
  -- Once the condition lets the action through, or there is none, the shutdown decides.
  have hpass : ∀ (n : Launch) (asked : List Stage) (c : Bool),
      n.journal = l.journal.advanceAll seq asked → n.history = l.history →
      Stage.pending :: asked = Stage.opening c → ∃ stages,
        ({ l with journal := l.journal.advanceAll seq stages } : Launch).SameRecords
            (if n.context.shuttingDown && a.deed.startsWork then
              ((n.advance seq .skipped).note seq "shutdown in progress", some Outcome.skipped)
              else ((n.advance seq .activated).advance seq .running, none)).1 ∧
          ∀ k, ((Record.opened k a).advanceAll stages).InOrder c := by
    intro n asked c hj hh hasked
    have hfold : ∀ stages, l.journal.advanceAll seq (asked ++ stages) =
        n.journal.advanceAll seq stages := fun stages => hj ▸ List.foldl_append
    split
    · refine ⟨asked ++ [.skipped], ?_, fun k => Record.inOrder_skipped k a hasked⟩
      rw [hfold]
      exact SameRecords.trans (m := n.advance seq .skipped) (sameRecords_of_same rfl hh)
        (sameRecords_note _ seq _)
    · refine ⟨asked ++ [.activated, .running], ?_, fun k => Record.inOrder_admitted k a hasked⟩
      rw [hfold]
      exact sameRecords_of_same rfl hh
  unfold gate
  cases a.condition with
  | none => exact hpass l [] false rfl rfl rfl
  | some c =>
      dsimp only
      cases l.context.decide c with
      | error e =>
          let failing := ((l.advance seq .evaluatingCondition).happen
            (.failed e.kind e.message)).advance seq (.failed e.message)
          refine ⟨[.evaluatingCondition, .failed e.message], ?_, fun k =>
            .inr ⟨.undecided e.message rfl, rfl⟩⟩
          exact SameRecords.trans (m := failing)
            (sameRecords_of_cons (o := .failed e.kind e.message) nofun rfl rfl)
            (sameRecords_onFailure failing e.message)
      | ok b =>
          cases b with
          | false =>
              have hasked : Stage.pending :: [.evaluatingCondition] = Stage.opening true := rfl
              exact ⟨[.evaluatingCondition, .skipped], sameRecords_of_same rfl rfl,
                fun k => Record.inOrder_skipped k a hasked⟩
          | true =>
              exact hpass (l.advance seq .evaluatingCondition) [.evaluatingCondition] true rfl rfl
                rfl

/-- A record that is opened leaves the gate in order, and no other is touched there. -/
theorem RecordsInOrder.gate (hl : l.RecordsInOrder) (a : Action) :
    ((l.enter a).2.gate l.journal.size a).1.RecordsInOrder := by
  obtain ⟨stages, hsame, horder⟩ := gate_stages (l.enter a).2 l.journal.size a
  refine RecordsInOrder.keep ?_ hsame
  have hrecord : ∀ k, ((l.enter a).2.journal.advanceAll l.journal.size stages).record? k =
      if k = l.journal.size then some ((Record.opened k a).advanceAll stages)
      else l.journal.record? k := by
    intro k
    show ((l.journal.enter a).2.advanceAll l.journal.size stages).record? k = _
    rw [Journal.record?_advanceAll, Journal.record?_enter]
    by_cases hk : k = l.journal.size
    · rw [if_pos hk, if_pos hk, if_pos hk.symm]
      rfl
    · rw [if_neg hk, if_neg hk, if_neg (Ne.symm hk)]
  constructor
  · intro k b hmem
    rcases List.mem_cons.mp hmem with heq | hmem
    · cases heq
      have hopened : (Record.opened l.journal.size a).IsOf a := ⟨rfl, rfl, rfl⟩
      exact ⟨_, (hrecord _).trans (if_pos rfl),
        hopened.becomes (Record.becomes_advanceAll _ stages), horder _⟩
    · obtain ⟨r, hr, hof, hin⟩ := hl.entered k b hmem
      have hk : k ≠ l.journal.size := Nat.ne_of_lt (Journal.lt_size_of_record? hr)
      exact ⟨r, (hrecord k).trans ((if_neg hk).trans hr), hof, hin⟩
  · intro k r hr hnone
    have hk : k ≠ l.journal.size := by
      rintro rfl
      exact hnone a List.mem_cons_self
    have hold : l.journal.record? k = some r :=
      (if_neg hk).symm.trans ((hrecord k).symm.trans hr)
    exact hl.others k r hold fun b hmem => hnone b (List.mem_cons_of_mem _ hmem)

/-- Actions that are passed over have records that were skipped at once. -/
theorem RecordsInOrder.skipAll (hl : l.RecordsInOrder) (as : List Action) (why : String) :
    (l.skipAll as why).RecordsInOrder := by
  induction as generalizing l with
  | nil => exact hl
  | cons a rest ih =>
      refine ih (l := { l with journal := l.journal.skip a why }) ⟨?_, ?_⟩
      · intro k b hmem
        obtain ⟨r, hr, hof, hin⟩ := hl.entered k b hmem
        have hk : k ≠ l.journal.size := Nat.ne_of_lt (Journal.lt_size_of_record? hr)
        exact ⟨r, ((l.journal.record?_skip a why k).trans (if_neg hk)).trans hr, hof, hin⟩
      · intro k r hr hnone
        change (l.journal.skip a why).record? k = some r at hr
        rw [Journal.record?_skip] at hr
        split at hr
        · cases hr
          exact ⟨rfl, rfl⟩
        · exact hl.others k r hr hnone

/-- The record of a timer that is taken away is completed. -/
theorem RecordsInOrder.cancelTimer (hl : l.RecordsInOrder) (why : String) (id : Nat) :
    (l.cancelTimer why id).RecordsInOrder := by
  rcases cancelTimer_cases why id l with ⟨-, h⟩ | ⟨t, -, h⟩
  · rw [h]
    exact hl
  · have htaken : l.SameRecords { l with
        timers := l.timers.erase id
        history := .cancelled id :: l.history } :=
      sameRecords_of_cons (o := .cancelled id) nofun rfl rfl
    rw [h, Timer.close]
    split
    · exact hl.keep htaken
    · exact ((hl.keep htaken).keep (sameRecords_note _ _ _)).advance _ (.inl rfl)

theorem RecordsInOrder.cancelTimers (hl : l.RecordsInOrder) (why : String) (ids : List Nat) :
    (l.cancelTimers why ids).RecordsInOrder := by
  induction ids generalizing l with
  | nil => exact hl
  | cons id rest ih => exact ih (hl.cancelTimer why id)

/-- A deed that has been performed completes its record, fails it or leaves it open. -/
theorem RecordsInOrder.settle {x : Launch × Performed} (hx : x.1.RecordsInOrder) (seq : Nat)
    (d : Deed) : (leave seq (settle seq d x)).1.RecordsInOrder := by
  obtain ⟨n, r⟩ := x
  refine RecordsInOrder.keep ?_ (sameRecords_happen _ nofun)
  match r with
  | .ok .done => exact hx.advance seq (.inl rfl)
  | .ok .running => exact hx
  | .error e =>
      have hfailed : n.SameRecords (n.happen (.failed e.kind e.message)) :=
        sameRecords_happen n nofun
      exact ((hx.keep hfailed).advance seq (.inr ⟨e.message, rfl⟩)).keep
        (sameRecords_onFailure _ e.message)

theorem upheld_recordsInOrder : Upheld fun _ l => l.RecordsInOrder where
  refused := by
    intro os l m a outcome hl hgate
    have hleft := hl.gate a
    rw [hgate] at hleft
    exact hleft.keep (sameRecords_happen _ nofun)
  leaf := by
    intro os l m a hl hadmits hleaf
    have hopen := hl.gate a
    rw [show (l.enter a).2.gate l.journal.size a = (m, none) from hadmits] at hopen
    rw [activate_of_admits hadmits, perform_eq, if_pos hleaf]
    exact (hopen.keep (sameRecords_performLeaf m _ a a.deed)).settle _ _
  admitted := by
    intro os l m a hl hadmits _
    have hopen := hl.gate a
    rw [show (l.enter a).2.gate l.journal.size a = (m, none) from hadmits] at hopen
    exact hopen
  asked d hl := hl.keep (sameRecords_asked _ d)
  performed := by
    intro os seq m d failure hl
    refine RecordsInOrder.settle (x := ofChildren (m, failure)) ?_ seq d
    rw [ofChildren_fst]
    exact hl
  skipAll as why hl := hl.skipAll as why
  beginGroup hl := hl.keep (sameRecords_of_same rfl rfl)
  endGroup := by
    intro os l failure hl
    have hregroup : ∀ groups, ({ l with groupTimers := groups } : Launch).RecordsInOrder :=
      fun groups => hl.keep (sameRecords_of_same rfl rfl)
    unfold endGroup
    split
    · exact hl
    · split
      · exact hregroup _
      · exact (hregroup _).cancelTimers _ _
  inScope scope hl := hl.keep (sameRecords_of_same rfl rfl)
  restore depth hl := hl.keep (sameRecords_of_same rfl rfl)

theorem RecordsInOrder.activateBody (hl : l.RecordsInOrder) (cause : BodyCause)
    (as : List Action) (scope : Option Scope) :
    (Launch.activateBody cause as scope l).RecordsInOrder :=
  @Upheld.activateBody _ upheld_recordsInOrder [] l cause as scope
    (hl.keep (sameRecords_happen l nofun))

/-- The notice of an end completes the record of the process. -/
theorem RecordsInOrder.onNotice (hl : l.RecordsInOrder) (n : Notice) :
    (l.onNotice n).RecordsInOrder := by
  have htaken : ∀ s, ({ l with supervisor := s } : Launch).RecordsInOrder := fun s =>
    hl.keep (sameRecords_of_same rfl rfl)
  have hemit : ∀ (k : Launch) e, k.SameRecords (k.emit e) := fun k e =>
    sameRecords_of_cons (o := .emitted e) nofun rfl rfl
  rcases l.onNotice_cases n with
    ⟨-, h⟩ | ⟨s, -, ⟨-, h⟩ | ⟨r, -, ⟨_, _, _, -, h⟩ | ⟨_, status, fault, -, h⟩⟩⟩
  · rw [h]
    exact hl
  · rw [h]
    exact htaken s
  · rw [h]
    exact (htaken s).keep (hemit _ _)
  · have hreported : ∀ k : Launch, k.SameRecords (k.reportFault r.info.name fault) := by
      intro k
      cases fault with
      | none => exact .refl k
      | some text => exact sameRecords_report k _
    rw [h]
    exact ((((htaken s).keep (hreported _)).keep (sameRecords_note _ _ _)).advance _
      (.inl rfl)).keep (hemit _ _)

theorem RecordsInOrder.elapse (hl : l.RecordsInOrder) (id : Nat) (t : Timer) :
    (l.elapse id t).RecordsInOrder := by
  have hfired : ({ l with timers := l.timers.erase id }.happen (.fired id)).RecordsInOrder :=
    hl.keep (sameRecords_of_cons (o := .fired id) nofun rfl rfl)
  unfold Launch.elapse
  dsimp only
  split
  · exact hfired
  · exact (hfired.advance _ (.inl rfl)).keep
      (sameRecords_of_cons (o := .emitted (.timerElapsed id)) nofun rfl rfl)

/-- **A stride leaves the records in order.** -/
theorem RecordsInOrder.stride (hl : l.RecordsInOrder) (h : Stride p l m) : m.RecordsInOrder := by
  have hsame : ∀ {k : Launch}, k.journal = l.journal → k.history = l.history →
      k.RecordsInOrder := fun hj hh => hl.keep (sameRecords_of_same hj hh)
  have hcons : ∀ {k : Launch} {o : Occurrence}, (∀ i b, o ≠ .entered i b) →
      k.journal = l.journal → k.history = o :: l.history → k.RecordsInOrder :=
    fun ho hj hh => hl.keep (sameRecords_of_cons ho hj hh)
  cases h with
  | describe as _ has => exact @Upheld.activateAll _ upheld_recordsInOrder [] l as hl
  | take e rest hp hc hs => exact hcons (o := .dispatched e) nofun rfl rfl
  | ignore e rest hp hc he hs => exact hcons (o := .ignored e) nofun rfl rfl
  | interrupt e hc => exact hcons (o := .interrupted) nofun rfl rfl
  | answer e h writer as hc hf hm hy has =>
      have hwriter : (l.withWriter h writer).RecordsInOrder := hsame rfl rfl
      exact hwriter.activateBody _ _ _
  | decline e h writer err hc hf hm hy =>
      have hwriter : (l.withWriter h writer).RecordsInOrder := hsame rfl rfl
      exact hwriter.keep (sameRecords_report _ err)
  | close e hc hs he => exact hcons (o := .turnEnded e) nofun rfl rfl
  | release q status r hc hr =>
      have hclosed : (l.closeTurn (.processExited q status)).RecordsInOrder :=
        hcons (o := .turnEnded (.processExited q status)) nofun rfl rfl
      exact hclosed.keep (sameRecords_releaseProcess _ q.id)
  | respawn r hc hf ha => exact hl.activateBody _ _ _
  | postpone r delay hc hf ha => exact hcons (o := .scheduled l.nextTimer _) nofun rfl rfl
  | shutdown reason due hc hb =>
      obtain ⟨deadline, -, rfl⟩ := beginShutdown_eq hb
      have hclosed : (l.closeTurn (.shutdownRequested reason due)).RecordsInOrder :=
        hcons (o := .turnEnded (.shutdownRequested reason due)) nofun rfl rfl
      have hbegun : ((l.closeTurn (.shutdownRequested reason due)).withShutdown reason
          deadline).RecordsInOrder :=
        hclosed.keep (sameRecords_of_cons (o := .shutdownBegan reason) nofun rfl rfl)
      exact (hbegun.cancelTimers _ _).keep (sameRecords_signalLive _ _)
  | arrive a hc hp hn ht => exact hcons (o := .received a.message) nofun rfl rfl
  | request reason due hc hf =>
      exact hcons (o := .emitted (.shutdownRequested reason due)) nofun rfl rfl
  | notice a n hc hp ha =>
      have harrived : (l.arrive a).RecordsInOrder := hcons (o := .received a.message) nofun rfl rfl
      exact harrived.onNotice n
  | fire a id t hc hp ha ht has =>
      have harrived : (l.arrive a).RecordsInOrder := hcons (o := .received a.message) nofun rfl rfl
      exact (harrived.elapse id t).activateBody _ _ _
  | kill hc hp hs => exact hl.keep (sameRecords_killRemaining l)

/-- **Between two bodies the records of a launch are in order.** -/
theorem recordsInOrder_of_strides {config : Config} {host : Host} {args : LaunchArguments}
    (h : Strides p (start config host args) l) : l.RecordsInOrder := by
  induction h with
  | refl =>
      refine ⟨by simp [start], fun k r hr => ?_⟩
      have hempty : (start config host args).journal.record? k = none := Journal.record?_empty k
      rw [hempty] at hr
      cases hr
  | tail _ hlast ih => exact ih.stride hlast

/-- The timers left at the end are cancelled, which closes their records. -/
theorem RecordsInOrder.closing (hl : l.RecordsInOrder) : l.closing.RecordsInOrder :=
  hl.cancelTimers _ _

end Launch

/-! ## At every moment -/

section Moment

variable {config : Config} {host : Host} {args : LaunchArguments} {description : List Action}

/-- **Every record goes through one lifecycle, step by step.** A run takes a course from body to
body, and its report holds the records as they are after the closing. Take any two moments on the
way to the end of a part of such a course, also in the middle of an activation. At the first one
each record stands at its number; its stage is the last one of its history, which began with
pending and has met no end before its last stage. If the record is that of an activation, its
history is a part of one of the lifecycles that the action can have, and a condition was evaluated
only if the action has one; else the action was passed over. At the second moment all records of
the first one are still there and have gone on, but for those that were closed. -/
theorem records_keep_to_lifecycles :
    (∀ x, Reachable config host args description x →
      (∃ bs, Course config host args description bs x.phase x.launch) ∧
        x.launch.finish.records = x.launch.closing.journal.records.toList) ∧
    ∀ bs t n m m', Course config host args description bs t n →
      Moves (fun _ => True) (.start config host args) m → Moves (fun _ => True) m m' →
      Moves (fun _ => True) m' n.closing →
      (∀ k r, m.journal.record? k = some r →
        r.seq = k ∧ r.history.getLast? = some r.stage ∧ r.history.head? = some .pending ∧
        (∀ s ∈ r.history.dropLast, s.isFinal = false) ∧
        ((∃ a path, .entered k a ∈ n.history ∧ r.IsOf a ∧
            Lifecycle a.condition.isSome path ∧ r.history <+: path ∧
            (.evaluatingCondition ∈ r.history → a.condition.isSome = true)) ∨
          (∀ a, .entered k a ∉ n.history) ∧ r.history <+: [.pending, .skipped])) ∧
      m.journal.Becomes m'.journal := by
  refine ⟨fun x hx => ⟨hx.course, rfl⟩, fun bs t n m m' hn hbefore hbetween hafter => ?_⟩
  refine ⟨fun k r hr => ?_, hbetween.journal⟩
  obtain ⟨hseq, hconsistent⟩ :=
    Journal.invariant_consistent.moves hbefore Journal.consistent_empty k r hr
  have horder : n.closing.RecordsInOrder := (Launch.recordsInOrder_of_strides hn.strides).closing
  have hentered : ∀ a, .entered k a ∈ n.closing.history ↔ .entered k a ∈ n.history := fun a =>
    Launch.mem_closing nofun
  obtain ⟨r', hr', hbecomes⟩ := Moves.journal (hbetween.trans hafter) k r hr
  -- What the record has gone through by then is a part of what it goes through by the end.
  by_cases hmem : ∃ a, .entered k a ∈ n.history
  · obtain ⟨a, ha⟩ := hmem
    obtain ⟨r'', hr'', hof, hin⟩ := horder.entered k a ((hentered a).mpr ha)
    obtain rfl : r' = r'' := Option.some.inj (hr'.symm.trans hr'')
    obtain ⟨path, hpath, hprefix⟩ := hin.exists_lifecycle
    have hpart : r.history <+: path := hbecomes.history.trans hprefix
    have hof' : r.IsOf a := ⟨hbecomes.action.symm.trans hof.action,
      hbecomes.kind.symm.trans hof.kind, hbecomes.label.symm.trans hof.label⟩
    exact ⟨hseq, hconsistent.last, hconsistent.first, hpath.not_isFinal_of_prefix hpart,
      .inl ⟨a, path, ha, hof', hpath, hpart, hpath.conditional_of_evaluating hpart⟩⟩
  · have hnone : ∀ a, .entered k a ∉ n.history := fun a ha => hmem ⟨a, ha⟩
    have hskipped := horder.others k r' hr' fun a ha => hnone a ((hentered a).mp ha)
    have hpart : r.history <+: [.pending, .skipped] := hskipped.1 ▸ hbecomes.history
    have hpath : Lifecycle false [.pending, .skipped] := .skipped
    exact ⟨hseq, hconsistent.last, hconsistent.first, hpath.not_isFinal_of_prefix hpart,
      .inr ⟨hnone, hpart⟩⟩

/-- The action, if the condition holds. -/
def Action.onlyIf (a : Action) (c : Condition) : Action :=
  .mk a.id (some c) a.deed

/-- A timer that is still pending at the end: its record runs, and is completed by the closing. -/
theorem pending_timer_closed_at_end :
    ∃ l r r', Course .standard .willing [] [(Action.later 1 "2" [] true).onlyIf (.all [])]
        [] .waiting l ∧
      l.journal.record? 0 = some r ∧ l.closing.journal.record? 0 = some r' ∧
      r.history = [.pending, .evaluatingCondition, .activated, .running] ∧
      r'.history = [.pending, .evaluatingCondition, .activated, .running, .completed] ∧
      r.history.getLast? = some r.stage ∧ r.Becomes r' := by
  let description := [(Action.later 1 "2" [] true).onlyIf (.all [])]
  let l := Launch.begin .standard .willing [] description
  have hcourse : Course .standard .willing [] description [] .waiting l := .begin
  obtain ⟨-, hrecords⟩ := @records_keep_to_lifecycles .standard .willing [] description
  obtain ⟨hall, hbecomes⟩ := hrecords [] .waiting l l l.closing hcourse hcourse.strides.moves
    l.closing_effects.moves .refl
  have hhistory : (l.journal.record? 0).map (·.history) =
      some [.pending, .evaluatingCondition, .activated, .running] := by decide +kernel
  obtain ⟨r, hr, hopen⟩ := Option.map_eq_some_iff.mp hhistory
  have hclosed : (l.closing.journal.record? 0).map (·.history) =
      some [.pending, .evaluatingCondition, .activated, .running, .completed] := by decide +kernel
  obtain ⟨r', hr', hdone⟩ := Option.map_eq_some_iff.mp hclosed
  obtain ⟨r'', hr'', hleads⟩ := hbecomes 0 r hr
  obtain rfl : r' = r'' := Option.some.inj (hr'.symm.trans hr'')
  exact ⟨l, r, r', hcourse, hr, hr', hopen, hdone, (hall 0 r hr).2.1, hleads⟩

end Moment

end Conductor
