import Conductor.Proofs.Launch.Books
import Conductor.Proofs.Launch.Finish

/-!
# The ledger of an activation

A timer belongs to the innermost group in which it was scheduled. When the group ends well its
timers pass to the group around it, and when it fails they are cancelled (`HandsOn`).
`activate_tracks` proves this of every activation, together with what becomes of the records, by
induction over the action.
-/

namespace Conductor

/-- Whether the timers scheduled inside are cancelled when the deed fails. -/
def Deed.ownsTimers : Deed → Bool
  | .group .. => true
  | .splice .. => true
  | _ => false

/-- The timer was scheduled while an action was being activated that owns its timers, and that
failed. What happened stands latest first. -/
def FailedAround (id : Nat) (os : List Occurrence) : Prop :=
  ∃ newer during older g a escalates reason t,
    os = newer ++ .left g (.failed escalates reason) :: (during ++ .entered g a :: older) ∧
      a.deed.ownsTimers = true ∧ .scheduled id t ∈ during

theorem FailedAround.append {id : Nat} {os : List Occurrence} (h : FailedAround id os)
    (newer older : List Occurrence) : FailedAround id (newer ++ os ++ older) := by
  obtain ⟨newer', during, older', g, a, escalates, reason, t, rfl, ha, ht⟩ := h
  refine ⟨newer ++ newer', during, older' ++ older, g, a, escalates, reason, t, ?_, ha, ht⟩
  simp

namespace Launch

variable {l m n : Launch} {seq : Nat}

/-! ## Groups and their timers -/

/-- What follows when timers pass to the innermost group being activated. -/
def handOn (ids : List Nat) : List (List Nat) → List (List Nat)
  | [] => []
  | own :: outer => (own ++ ids) :: outer

theorem handOn_nil (groups : List (List Nat)) : handOn [] groups = groups := by
  cases groups with
  | nil => rfl
  | cons own outer => exact congrArg (· :: outer) (List.append_nil own)

theorem handOn_handOn (ids ids' : List Nat) (groups : List (List Nat)) :
    handOn ids' (handOn ids groups) = handOn (ids ++ ids') groups := by
  cases groups with
  | nil => rfl
  | cons own outer => exact congrArg (· :: outer) (List.append_assoc own ids ids')

/-- Timers scheduled between the two launches pass to the innermost group. Timers are cancelled
with a group that fails: one around which the failure lies, or, if the flag says so, one that
ends in the second launch. -/
structure HandsOn (failed : Bool) (l m : Launch) (os : List Occurrence) : Prop where
  history : m.history = os ++ l.history
  groups : ∃ ids, m.groupTimers = handOn ids l.groupTimers ∧
    ∀ id ∈ ids, ∃ t, .scheduled id t ∈ os
  cancelled : ∀ id, .cancelled id ∈ os →
    FailedAround id os ∨ failed = true ∧ ∃ t, .scheduled id t ∈ os

theorem HandsOn.trans {failed : Bool} {os os' : List Occurrence} (h : l.HandsOn failed m os)
    (h' : m.HandsOn failed n os') : l.HandsOn failed n (os' ++ os) where
  history := by rw [h'.history, h.history, List.append_assoc]
  groups := by
    obtain ⟨ids, hgroups, hids⟩ := h.groups
    obtain ⟨ids', hgroups', hids'⟩ := h'.groups
    refine ⟨ids ++ ids', by rw [hgroups', hgroups, handOn_handOn], ?_⟩
    intro id hid
    rcases List.mem_append.mp hid with hid | hid
    · obtain ⟨t, ht⟩ := hids id hid
      exact ⟨t, List.mem_append_right os' ht⟩
    · obtain ⟨t, ht⟩ := hids' id hid
      exact ⟨t, List.mem_append_left os ht⟩
  cancelled := by
    intro id hid
    rcases List.mem_append.mp hid with hid | hid
    · rcases h'.cancelled id hid with hfail | ⟨hf, t, ht⟩
      · exact .inl (by simpa using hfail.append [] os)
      · exact .inr ⟨hf, t, List.mem_append_left os ht⟩
    · rcases h.cancelled id hid with hfail | ⟨hf, t, ht⟩
      · exact .inl (by simpa using hfail.append os' [])
      · exact .inr ⟨hf, t, List.mem_append_right os' ht⟩

theorem HandsOn.weaken {os : List Occurrence} (h : l.HandsOn false m os) (failed : Bool) :
    l.HandsOn failed m os where
  history := h.history
  groups := h.groups
  cancelled := by
    intro id hid
    rcases h.cancelled id hid with hfail | ⟨hf, -⟩
    · exact .inl hfail
    · cases hf

theorem SameTimers.handsOn (h : l.SameTimers m) : ∃ os, l.HandsOn false m os := by
  obtain ⟨os, hos, hq⟩ := h.history
  refine ⟨os, hos, ⟨[], by rw [h.groups, handOn_nil], by simp⟩, ?_⟩
  intro id hid
  cases hq _ hid

/-- A timer that is scheduled belongs to the innermost group. -/
theorem handsOn_schedule (l : Launch) (delay : Duration) (as : List Action) (scope : Scope)
    (record : Option Nat) (cancel : Bool) :
    ∃ os, l.HandsOn false (l.schedule delay as scope record cancel) os := by
  refine ⟨[.scheduled l.nextTimer ⟨record, as, scope, cancel, ⟨l.now.nanos + delay.nanos⟩⟩], rfl,
    ⟨[l.nextTimer], ?_, ?_⟩, by simp⟩
  · unfold schedule handOn
    cases l.groupTimers <;> rfl
  · intro id hid
    rw [List.mem_singleton.mp hid]
    exact ⟨_, List.mem_singleton.mpr rfl⟩

theorem groupTimers_cancelTimers (why : String) (ids : List Nat) (l : Launch) :
    (l.cancelTimers why ids).groupTimers = l.groupTimers := by
  induction ids generalizing l with
  | nil => rfl
  | cons id rest ih =>
      refine (ih (l.cancelTimer why id)).trans ?_
      rcases cancelTimer_cases why id l with ⟨-, h⟩ | ⟨t, -, h⟩
      · rw [h]
      · rw [h]

/-- The timers of a group that ends well pass to the group around it; those of a group that
fails are cancelled. -/
theorem handsOn_asGroup {scope : Scope} {f : Launch → Launch × Option LaunchError}
    (hf : ∀ m : Launch, ∃ os, m.HandsOn false (f m).1 os) :
    ∃ os, l.HandsOn (l.asGroup scope f).2.isSome (l.asGroup scope f).1 os := by
  obtain ⟨os, hos⟩ := hf { l.beginGroup with context := l.context.push scope }
  unfold asGroup under
  generalize hx : f { l.beginGroup with context := l.beginGroup.context.push scope } = x
  have hsame : f { l.beginGroup with context := l.context.push scope } = x := hx
  rw [hsame] at hos
  obtain ⟨m, failure⟩ := x
  obtain ⟨ids, hgroups, hids⟩ := hos.groups
  -- Inside the group only its own timers were added.
  have hown : m.groupTimers = ids :: l.groupTimers := hgroups
  have hhistory : m.history = os ++ l.history := hos.history
  unfold endGroup
  dsimp only
  rw [hown]
  cases failure with
  | none => exact ⟨os, hhistory, ⟨ids, rfl, hids⟩, hos.cancelled⟩
  | some e =>
      dsimp only
      generalize hm : ({ m with
        context := m.context.restore l.beginGroup.context.depth
        groupTimers := l.groupTimers } : Launch) = m'
      have hm' : m'.history = os ++ l.history := by
        rw [← hm]
        exact hhistory
      obtain ⟨os', hos', hcancelled⟩ := history_cancelTimers "owning group failed" ids m'
      refine ⟨os' ++ os, by rw [hos', hm', List.append_assoc], ⟨[], ?_, by simp⟩, ?_⟩
      · rw [groupTimers_cancelTimers, handOn_nil, ← hm]
      · intro id hid
        rcases List.mem_append.mp hid with hid | hid
        · obtain ⟨i, hi, heq⟩ := hcancelled _ hid
          cases heq
          obtain ⟨t, ht⟩ := hids id hi
          exact .inr ⟨rfl, t, List.mem_append_right os' ht⟩
        · rcases hos.cancelled id hid with hfail | ⟨hff, -⟩
          · exact .inl (by simpa using hfail.append os' [])
          · cases hff

/-! ## Whole activations -/

/-- Whether a deed could not be performed. -/
def isFailed : Performed → Bool
  | .error _ => true
  | _ => false

/-- What the activation of whole actions does: their records are closed or held open, and their
timers belong to the group around them. -/
structure Tracks (failed : Bool) (l m : Launch) : Prop where
  handsOn : ∃ os, l.HandsOn failed m os
  booked : ∀ opened, l.Booked opened → m.Booked opened

/-- What the performance of the deed of a record does. -/
structure Performs (seq : Nat) (a : Action) (l : Launch) (x : Launch × Performed) : Prop where
  handsOn : ∃ os, l.HandsOn (a.deed.ownsTimers && isFailed x.2) x.1 os
  booked : ∀ opened, l.Booked (seq :: opened) → l.journal.stage? seq = some .running →
    .entered seq a ∈ l.history → x.1.Booked (if isRunning x.2 then opened else seq :: opened)

theorem Tracks.trans {failed : Bool} (h : Tracks failed l m) (h' : Tracks failed m n) :
    Tracks failed l n := by
  obtain ⟨os, hos⟩ := h.handsOn
  obtain ⟨os', hos'⟩ := h'.handsOn
  exact ⟨⟨os' ++ os, hos.trans hos'⟩, fun opened hl => h'.booked opened (h.booked opened hl)⟩

theorem Tracks.weaken (h : Tracks false l m) (failed : Bool) : Tracks failed l m := by
  obtain ⟨os, hos⟩ := h.handsOn
  exact ⟨⟨os, hos.weaken failed⟩, h.booked⟩

theorem SameBooks.tracks (h : l.SameBooks m) : Tracks false l m :=
  ⟨h.toSameTimers.handsOn, fun _ hl => hl.keep h⟩

theorem Booked.endGroup (hl : l.Booked opened) (failure : Option LaunchError) :
    (l.endGroup failure).Booked opened := by
  have hregroup : ∀ groups, ({ l with groupTimers := groups } : Launch).Booked opened :=
    fun _ => ⟨hl.nodup, hl.below, hl.accounted, hl.scheduled, hl.given, hl.timed⟩
  unfold Launch.endGroup
  split
  · exact hl
  · cases failure with
    | none => exact hregroup _
    | some e => exact (hregroup _).cancelTimers _ _

theorem asGroup_tracks {scope : Scope} {f : Launch → Launch × Option LaunchError}
    (hf : ∀ m, Tracks false m (f m).1) (l : Launch) :
    Tracks (l.asGroup scope f).2.isSome l (l.asGroup scope f).1 where
  handsOn := handsOn_asGroup fun m => (hf m).handsOn
  booked := by
    intro opened hl
    have hbegun : ({ l.beginGroup with context := l.context.push scope } : Launch).Booked opened :=
      ⟨hl.nodup, hl.below, hl.accounted, hl.scheduled, hl.given, hl.timed⟩
    have hdone := (hf _).booked opened hbegun
    exact (hdone.keep (sameBooks_context _ _)).endGroup _

theorem skipAll_tracks (as : List Action) (why : String) (l : Launch) :
    Tracks false l (l.skipAll as why) :=
  ⟨SameTimers.handsOn ⟨rfl, rfl, rfl, [], rfl, by simp⟩, fun _ hl => hl.skipAll as why⟩

/-- A deed performed through its children never goes on in the background itself. -/
theorem performs_ofChildren {a : Action} {x : Launch × Option LaunchError}
    (hx : Tracks (a.deed.ownsTimers && x.2.isSome) l x.1) : Performs seq a l (ofChildren x) := by
  obtain ⟨m, failure⟩ := x
  cases failure with
  | none => exact ⟨hx.handsOn, fun opened hl _ _ => hx.booked _ hl⟩
  | some e => exact ⟨hx.handsOn, fun opened hl _ _ => hx.booked _ hl⟩

theorem performs_of_sameBooks {a : Action} {x : Launch × Performed} (hx : l.SameBooks x.1)
    (hr : isRunning x.2 = false) : Performs seq a l x := by
  obtain ⟨os, hos⟩ := hx.toSameTimers.handsOn
  refine ⟨⟨os, hos.weaken _⟩, fun opened hl _ _ => ?_⟩
  rw [hr]
  exact hl.keep hx

theorem performs_execute (l : Launch) (seq : Nat) (a : Action) (t : ProcessTemplate)
    (onExit : List Action) : Performs seq a l (l.execute seq a t onExit) := by
  obtain ⟨hsame, hkept⟩ := sameBooks_execute l seq a t onExit
  cases hr : isRunning (l.execute seq a t onExit).2 with
  | false => exact performs_of_sameBooks hsame hr
  | true =>
      obtain ⟨r, w, hmem, hrecord⟩ := hkept hr
      obtain ⟨os, hos⟩ := hsame.toSameTimers.handsOn
      refine ⟨⟨os, hos.weaken _⟩, fun opened hl _ _ => ?_⟩
      rw [hr]
      exact (hl.keep hsame).keepOpen hmem hrecord

theorem performs_timer {a : Action} {period : Template} {children : List Action} {cancel : Bool}
    (hd : a.deed = .timer period children cancel) (l : Launch) (seq : Nat) :
    Performs seq a l (l.performLeaf seq a (.timer period children cancel)) := by
  rw [performLeaf]
  split
  · exact performs_of_sameBooks (.refl l) rfl
  · split
    · exact performs_of_sameBooks (.refl l) rfl
    · obtain ⟨os, hos⟩ := handsOn_schedule l _ children l.context.snapshot (some seq) cancel
      refine ⟨⟨os, hos.weaken _⟩, fun opened hl hs ha => ?_⟩
      apply Booked.schedule hl
      intro k hk
      cases hk
      exact ⟨hs, a, period, ha, hd⟩

/-- A deed without children is performed in one go. -/
theorem performs_leaf {a : Action} {d : Deed}
    (hleaf : perform seq a d l = l.performLeaf seq a d) (hd : a.deed = d) :
    Performs seq a l (perform seq a d l) := by
  rw [hleaf]
  cases hw : d.startsWork with
  | false =>
      obtain ⟨hsame, hr⟩ := sameBooks_performLeaf hw l seq a
      exact performs_of_sameBooks hsame hr
  | true =>
      cases d with
      | execute t onExit => exact performs_execute l seq a t onExit
      | timer period children cancel => exact performs_timer hd l seq
      | _ => cases hw

/-- The timers that a deed owns are cancelled within the activation that fails. -/
theorem handsOn_leave {failed : Bool} {a : Action} {y : Launch × Outcome} {os : List Occurrence}
    (h : (l.enter a).2.HandsOn failed y.1 os)
    (hfailed : failed = true → a.deed.ownsTimers = true ∧
      ∃ escalates reason, y.2 = .failed escalates reason) :
    ∃ os', l.HandsOn false (leave (l.enter a).1 y).1 os' := by
  obtain ⟨ids, hgroups, hids⟩ := h.groups
  refine ⟨.left (l.enter a).1 y.2 :: (os ++ .entered (l.enter a).1 a :: []), ?_, ⟨ids, hgroups, ?_⟩,
    ?_⟩
  · have hentered : (l.enter a).2.history = .entered (l.enter a).1 a :: l.history := rfl
    show _ :: y.1.history = _
    rw [h.history, hentered]
    simp
  · intro id hid
    obtain ⟨t, ht⟩ := hids id hid
    exact ⟨t, by simp [ht]⟩
  · intro id hid
    have hid' : .cancelled id ∈ os := by simpa using hid
    left
    rcases h.cancelled id hid' with hfail | ⟨hf, t, ht⟩
    · exact hfail.append [.left (l.enter a).1 y.2] [.entered (l.enter a).1 a]
    · obtain ⟨howns, escalates, reason, hy⟩ := hfailed hf
      exact ⟨[], os, [], (l.enter a).1, a, escalates, reason, t, by rw [hy]; rfl, howns, ht⟩

/-- A deed that could not be performed fails its activation. -/
theorem settle_of_isFailed {x : Launch × Performed} (hx : isFailed x.2 = true) (seq : Nat)
    (d : Deed) : ∃ escalates reason, (settle seq d x).2 = .failed escalates reason := by
  obtain ⟨m, r⟩ := x
  match r with
  | .ok .done => cases hx
  | .ok .running => cases hx
  | .error e => exact ⟨d.escalates, e.message, rfl⟩

mutual

/-- **What the activation of an action does to the books.** -/
theorem activate_tracks : ∀ (a : Action) (l : Launch), Tracks false l (activate a l).1
  | .mk id condition deed, l => by
      have hgate := sameTimers_gate (l.enter (.mk id condition deed)).2
        (l.enter (.mk id condition deed)).1 (.mk id condition deed)
      have hpending : (l.enter (.mk id condition deed)).2.journal.stage?
          (l.enter (.mk id condition deed)).1 = some .pending :=
        (Journal.stage?_enter l.journal _ _).trans (if_pos rfl)
      have hbooked : ∀ opened, l.Booked opened → _ := fun opened hl =>
        (hl.enter (.mk id condition deed)).gate hpending (.mk id condition deed)
      obtain ⟨os, hos⟩ := hgate.handsOn
      rw [activate]
      dsimp only
      split
      · rename_i m outcome heq
        rw [heq] at hbooked hos
        refine ⟨handsOn_leave (y := (m, outcome)) hos (by simp), fun opened hl => ?_⟩
        exact ((hbooked opened hl).2 (by simp)).keep (sameBooks_happen _ rfl)
      · rename_i m heq
        rw [heq] at hbooked hos hgate
        have hdeed := perform_tracks deed (l.enter (.mk id condition deed)).1
          (.mk id condition deed) m rfl
        have hsettle := sameTimers_settle (l.enter (.mk id condition deed)).1 deed
          (perform (l.enter (.mk id condition deed)).1 (.mk id condition deed) deed m)
        obtain ⟨os', hos'⟩ := hdeed.handsOn
        obtain ⟨os'', hos''⟩ := hsettle.handsOn
        constructor
        · refine handsOn_leave (((hos.weaken _).trans hos').trans (hos''.weaken _)) fun hf => ?_
          rw [Bool.and_eq_true] at hf
          exact ⟨hf.1, settle_of_isFailed hf.2 _ deed⟩
        · intro opened hl
          obtain ⟨hopen, hrunning⟩ := (hbooked opened hl).1 rfl
          have hentered : .entered (l.enter (.mk id condition deed)).1 _ ∈ m.history :=
            hgate.mem List.mem_cons_self
          have hperformed := hdeed.booked opened hopen hrunning hentered
          exact (Booked.settle hperformed).keep (sameBooks_happen _ rfl)

/-- What the performance of a deed does to the books. -/
theorem perform_tracks : ∀ (d : Deed) (seq : Nat) (a : Action) (l : Launch), a.deed = d →
    Performs seq a l (perform seq a d l)
  | .group bindings children, seq, a, l, hd => by
      rw [perform]
      split
      · exact performs_of_sameBooks (.refl l) rfl
      · apply performs_ofChildren
        rw [hd]
        exact asGroup_tracks (fun m => activateChildren_tracks children m) l
  | .splice source arguments required, seq, a, l, hd => by
      rw [perform]
      apply performs_ofChildren
      rw [hd]
      exact activateSource_tracks source arguments l
  | .compute f, seq, a, l, hd => by
      rw [perform]
      apply performs_ofChildren
      rw [hd]
      exact activateYield_tracks (f l.context) l
  | .log .., _, _, _, hd => performs_leaf rfl hd
  | .execute .., _, _, _, hd => performs_leaf rfl hd
  | .declare _, _, _, _, hd => performs_leaf rfl hd
  | .setVariable .., _, _, _, hd => performs_leaf rfl hd
  | .unsetVariable _, _, _, _, hd => performs_leaf rfl hd
  | .setEnv .., _, _, _, hd => performs_leaf rfl hd
  | .unsetEnv _, _, _, _, hd => performs_leaf rfl hd
  | .register _, _, _, _, hd => performs_leaf rfl hd
  | .unregister _, _, _, _, hd => performs_leaf rfl hd
  | .emit _, _, _, _, hd => performs_leaf rfl hd
  | .timer .., _, _, _, hd => performs_leaf rfl hd
  | .shutdown _, _, _, _, hd => performs_leaf rfl hd

theorem activateSource_tracks : ∀ (s : Source) (arguments : List (String × Template))
    (l : Launch),
    Tracks (activateSource arguments s l).2.isSome l (activateSource arguments s l).1
  | .inline children, arguments, l => by
      rw [activateSource]
      split
      · exact (SameBooks.refl l).tracks.weaken _
      · exact asGroup_tracks (fun m => activateChildren_tracks children m) l
  | .computed name f, arguments, l => by
      rw [activateSource]
      exact activateLoaded_tracks (f l.context) name arguments l
  | .file path parse, arguments, l => by
      rw [activateSource]
      split
      · exact (SameBooks.refl l).tracks.weaken _
      · exact activateLoaded_tracks (parse _) path arguments l

theorem activateLoaded_tracks : ∀ (y : Yield) (name : String)
    (arguments : List (String × Template)) (l : Launch),
    Tracks (activateLoaded name arguments y l).2.isSome l (activateLoaded name arguments y l).1
  | .failure _, _, _, l => (SameBooks.refl l).tracks.weaken _
  | .interrupt, name, arguments, l => by
      have hask : Tracks false l l.interrupt := (sameBooks_happen l rfl).tracks
      rw [activateLoaded]
      split
      · exact hask.weaken _
      · exact (hask.weaken _).trans (asGroup_tracks (fun m => (SameBooks.refl m).tracks) _)
  | .actions children, name, arguments, l => by
      rw [activateLoaded]
      split
      · exact (SameBooks.refl l).tracks.weaken _
      · exact asGroup_tracks (fun m => activateChildren_tracks children m) l

theorem activateYield_tracks : ∀ (y : Yield) (l : Launch), Tracks false l (activateYield y l).1
  | .failure _, l => (SameBooks.refl l).tracks
  | .interrupt, l => (sameBooks_happen l rfl).tracks
  | .actions children, l => activateChildren_tracks children l

theorem activateChildren_tracks : ∀ (as : List Action) (l : Launch),
    Tracks false l (activateChildren as l).1
  | [], l => (SameBooks.refl l).tracks
  | a :: rest, l => by
      have hfirst := activate_tracks a l
      rw [activateChildren]
      split
      · rename_i heq
        rw [heq] at hfirst
        exact hfirst.trans (skipAll_tracks _ _ _)
      · rename_i heq
        rw [heq] at hfirst
        exact hfirst.trans (activateChildren_tracks rest _)

end

theorem activateAll_tracks (as : List Action) (l : Launch) : Tracks false l (activateAll as l) := by
  induction as generalizing l with
  | nil => exact (SameBooks.refl l).tracks
  | cons a rest ih => exact (activate_tracks a l).trans (ih _)

/-- **What the activation of a body does to the books.** -/
theorem activateBody_tracks (cause : BodyCause) (as : List Action) (scope : Option Scope)
    (l : Launch) : Tracks false l (activateBody cause as scope l) := by
  have hbegun : Tracks false l (l.happen (.began cause as scope)) :=
    (sameBooks_happen l rfl).tracks
  unfold activateBody
  cases scope with
  | none => exact hbegun.trans (activateAll_tracks as _)
  | some scope =>
      have hpush := (sameBooks_context (l.happen (.began cause as (some scope)))
        (l.context.push scope)).tracks
      have hbody := activateAll_tracks as { l.happen (.began cause as (some scope)) with
        context := l.context.push scope }
      exact ((hbegun.trans hpush).trans hbody).trans (sameBooks_context _ _).tracks

/-! ## Strides -/

theorem sameBooks_openTurn (l : Launch) (e : Event) : l.SameBooks (l.openTurn e).2 :=
  sameBooks_of_eq [] rfl rfl rfl rfl rfl (by simp)

theorem sameBooks_withoutNext (l : Launch) (rest : List Event) : l.SameBooks (l.withoutNext rest) :=
  sameBooks_context l _

theorem sameBooks_closeTurn (l : Launch) (e : Event) : l.SameBooks (l.closeTurn e) :=
  (sameBooks_context l l.context.endTurn).trans (sameBooks_happen _ rfl)

theorem sameBooks_withShutdown (l : Launch) (reason : String) (deadline : Duration) :
    l.SameBooks (l.withShutdown reason deadline) :=
  sameBooks_of_eq [.shutdownBegan reason] rfl rfl rfl rfl rfl (by simp [Occurrence.isOfTimer])

theorem sameBooks_withWriter (l : Launch) (h : RegisteredHandler) (writer : Nat) :
    l.SameBooks (l.withWriter h writer) :=
  sameBooks_of_eq [] rfl rfl rfl rfl rfl (by simp)

theorem sameBooks_arrive (l : Launch) (a : Arrival) : l.SameBooks (l.arrive a) :=
  sameBooks_of_eq [.received a.message] rfl rfl rfl rfl rfl (by simp [Occurrence.isOfTimer])

theorem sameBooks_releaseProcess (l : Launch) (id : ProcessId) :
    l.SameBooks (l.releaseProcess id) := by
  rcases l.releaseProcess_cases id with ⟨-, h⟩ | ⟨g, -, -, h⟩
  · rw [h]
    exact sameBooks_of_eq [] rfl rfl rfl rfl rfl (by simp)
  · rw [h]
    exact sameBooks_of_eq [.released g] rfl rfl rfl rfl rfl (by simp [Occurrence.isOfTimer])

theorem sameBooks_killRemaining (l : Launch) : l.SameBooks l.killRemaining := by
  unfold killRemaining
  split
  · exact .refl l
  · have hforced : l.SameBooks { l with forced := true } :=
      sameBooks_of_eq [] rfl rfl rfl rfl rfl (by simp)
    exact hforced.trans (sameBooks_signalLive _ _)

/-- Any record may be completed. -/
theorem complete_tracks (l : Launch) (seq : Nat) : Tracks false l (l.advance seq .completed) :=
  ⟨(sameTimers_advance l seq _).handsOn, fun _ hl => hl.complete seq⟩

/-- The end of a process completes its record. -/
theorem onNotice_tracks (l : Launch) (n : Notice) : Tracks false l (l.onNotice n) := by
  rcases l.onNotice_cases n with
      ⟨-, h⟩ | ⟨s, -, ⟨-, h⟩ | ⟨r, -, ⟨_, _, _, -, h⟩ | ⟨_, status, fault, -, h⟩⟩⟩
  · rw [h]
    exact (SameBooks.refl l).tracks
  · rw [h]
    exact (sameBooks_supervisor l s).tracks
  · rw [h]
    exact ((sameBooks_supervisor l s).trans (sameBooks_emit _ _)).tracks
  · rw [h]
    have hfault : ∀ m : Launch, m.SameBooks (m.reportFault r.info.name fault) := by
      intro m
      cases fault with
      | none => exact .refl m
      | some text => exact sameBooks_report m _
    have hnoted := ((sameBooks_supervisor l s).trans (hfault _)).trans
      (sameBooks_note _ r.record status.text)
    exact (hnoted.tracks.trans (complete_tracks _ r.record)).trans (sameBooks_emit _ _).tracks

theorem elapse_tracks {id : Nat} {t : Timer} (ht : l.timers.get? id = some t) :
    Tracks false l (l.elapse id t) where
  handsOn := by
    have hnone : ∀ os : List Occurrence, (∀ o ∈ os, ∀ i, o ≠ .cancelled i) →
        (l.elapse id t).history = os ++ l.history →
        (l.elapse id t).groupTimers = l.groupTimers →
        ∃ os, l.HandsOn false (l.elapse id t) os := by
      intro os hos hhistory hgroups
      refine ⟨os, hhistory, ⟨[], by rw [hgroups, handOn_nil], by simp⟩, ?_⟩
      intro i hi
      exact absurd rfl (hos _ hi i)
    cases hr : t.record with
    | none =>
        apply hnone [.fired id] (by simp)
        · unfold elapse
          rw [hr]
          rfl
        · unfold elapse
          rw [hr]
          rfl
    | some seq =>
        apply hnone [.emitted (.timerElapsed id), .fired id] (by simp)
        · unfold elapse
          rw [hr]
          rfl
        · unfold elapse
          rw [hr]
          rfl
  booked := fun _ hl => hl.elapse ht

theorem schedule_tracks (l : Launch) (delay : Duration) (as : List Action) (scope : Scope)
    (cancel : Bool) : Tracks false l (l.schedule delay as scope none cancel) := by
  refine ⟨handsOn_schedule l delay as scope none cancel, fun opened hl => ?_⟩
  have hnone : l.Booked ((none : Option Nat).toList ++ opened) := hl
  exact hnone.schedule delay as scope cancel (by simp)

end Launch

variable {p : Deed → Prop} {l m : Launch}

/-- What a stride does to the books, and to the timers unless it begins the shutdown. -/
theorem Stride.tracks (h : Stride p l m) :
    (Launch.Tracks false l m ∧ m.shutdown = l.shutdown) ∨
      (∀ opened, l.Booked opened → m.Booked opened) ∧ m.groupTimers = l.groupTimers ∧
        m.shutdown.isSome = true := by
  have hbody : ∀ (cause : BodyCause) (as : List Action) (scope : Option Scope) (n : Launch),
      Launch.Tracks false n (Launch.activateBody cause as scope n) ∧
        (Launch.activateBody cause as scope n).shutdown = n.shutdown := fun cause as scope n =>
    ⟨Launch.activateBody_tracks cause as scope n,
      (Launch.activateBody_effects (Action.every_true as) cause scope n).sameLoop.shutdown⟩
  cases h with
  | describe as hl has =>
      exact .inl ⟨Launch.activateAll_tracks as l,
        (Launch.activateAll_effects has l).sameLoop.shutdown⟩
  | take e rest hp hc hs =>
      have htaken := (Launch.sameBooks_withoutNext l rest).trans
        (Launch.sameBooks_happen _ (o := .dispatched e) rfl)
      exact .inl ⟨(htaken.trans (Launch.sameBooks_openTurn _ e)).tracks, rfl⟩
  | ignore e rest hp hc he hs =>
      exact .inl ⟨((Launch.sameBooks_withoutNext l rest).trans
        (Launch.sameBooks_happen _ rfl)).tracks, rfl⟩
  | interrupt e hc => exact .inl ⟨(Launch.sameBooks_happen l rfl).tracks, rfl⟩
  | answer e h writer as hc hf hm hy has =>
      obtain ⟨htracks, hshutdown⟩ :=
        hbody (.handler h.id) as h.handler.scope (l.withWriter h writer)
      exact .inl ⟨(Launch.sameBooks_withWriter l h writer).tracks.trans htracks, hshutdown⟩
  | decline e h writer err hc hf hm hy =>
      have hreport : Effects (fun _ => True) _ _ :=
        .single (Launch.report_effect (l.withWriter h writer) err)
      exact .inl ⟨((Launch.sameBooks_withWriter l h writer).trans
        (Launch.sameBooks_report _ err)).tracks, hreport.sameLoop.shutdown⟩
  | close e hc hs he => exact .inl ⟨(Launch.sameBooks_closeTurn l e).tracks, rfl⟩
  | release q status r hc hr =>
      refine .inl ⟨((Launch.sameBooks_closeTurn l _).trans
        (Launch.sameBooks_releaseProcess _ q.id)).tracks, ?_⟩
      rcases (l.closeTurn (.processExited q status)).releaseProcess_cases q.id with
          ⟨-, h⟩ | ⟨g, -, -, h⟩
      · rw [h]
        rfl
      · rw [h]
        rfl
  | respawn r hc hf ha => exact .inl (hbody _ _ _ l)
  | postpone r delay hc hf ha => exact .inl ⟨Launch.schedule_tracks l _ _ _ _, rfl⟩
  | shutdown reason due hc hb =>
      obtain ⟨deadline, -, rfl⟩ := Launch.beginShutdown_eq hb
      have hbegun := (Launch.sameBooks_closeTurn l (.shutdownRequested reason due)).trans
        (Launch.sameBooks_withShutdown _ reason deadline)
      have hsignal : ∀ n : Launch, n.SameBooks (n.signalLive .terminate) := fun n =>
        Launch.sameBooks_signalLive n .terminate
      refine .inr ⟨fun opened hl => ?_, ?_, ?_⟩
      · exact ((hl.keep hbegun).cancelTimers _ _).keep (hsignal _)
      · rw [(hsignal _).groups, Launch.groupTimers_cancelTimers, hbegun.groups]
      · have heffects : Effects (fun _ => True) _ _ :=
          (Launch.cancelTimers_effects "cancelled by shutdown"
            (l.closeTurn (.shutdownRequested reason due)).cancelledByShutdown
            ((l.closeTurn (.shutdownRequested reason due)).withShutdown reason deadline)).trans
            (Launch.signalLive_effects .terminate _)
        rw [heffects.sameLoop.shutdown]
        rfl
  | arrive a hc hp hn ht => exact .inl ⟨(Launch.sameBooks_arrive l a).tracks, rfl⟩
  | request reason due hc hf =>
      have hask := Launch.sameBooks_requestShutdown l reason due
      rw [Launch.requestShutdown_eq hf] at hask
      exact .inl ⟨hask.tracks, rfl⟩
  | notice a n hc hp ha =>
      refine .inl ⟨(Launch.sameBooks_arrive l a).tracks.trans (Launch.onNotice_tracks _ n), ?_⟩
      obtain ⟨s, -, heffects⟩ := (l.arrive a).onNotice_effects n
      exact heffects.sameLoop.shutdown
  | fire a id t hc hp ha ht has =>
      obtain ⟨htracks, hshutdown⟩ := hbody (.timer id) t.actions (some t.scope)
        ((l.arrive a).elapse id t)
      have helapse : ((l.arrive a).elapse id t).shutdown = l.shutdown :=
        (Launch.elapse_effects (l.arrive a) id t).sameLoop.shutdown
      exact .inl ⟨((Launch.sameBooks_arrive l a).tracks.trans
        (Launch.elapse_tracks (l := l.arrive a) ht)).trans htracks, hshutdown.trans helapse⟩
  | kill hc hp hs =>
      refine .inl ⟨(Launch.sameBooks_killRemaining l).tracks, ?_⟩
      rcases Launch.killRemaining_effects (p := p) l with h | h
      · rw [h]
      · exact h.sameLoop.shutdown

namespace Launch

/-- Between two strides no activation is going on, and no timer was cancelled but with its group
or by the shutdown. -/
structure Balanced (l : Launch) : Prop where
  booked : l.Booked []
  groups : l.groupTimers = []
  cancelled : l.shutdown = none → ∀ id, .cancelled id ∈ l.history → FailedAround id l.history

theorem Balanced.stride (hl : l.Balanced) (h : Stride p l m) : m.Balanced := by
  rcases h.tracks with ⟨htracks, hshutdown⟩ | ⟨hbooked, hgroups, hsome⟩
  · obtain ⟨os, hos⟩ := htracks.handsOn
    obtain ⟨ids, hids, -⟩ := hos.groups
    refine ⟨htracks.booked [] hl.booked, ?_, ?_⟩
    · rw [hids, hl.groups]
      rfl
    · intro hs id hid
      rw [hshutdown] at hs
      rw [hos.history] at hid ⊢
      rcases List.mem_append.mp hid with hid | hid
      · rcases hos.cancelled id hid with hfail | ⟨hf, -⟩
        · exact hfail.append [] l.history
        · cases hf
      · simpa using (hl.cancelled hs id hid).append os []
  · refine ⟨hbooked [] hl.booked, hgroups.trans hl.groups, ?_⟩
    intro hs
    rw [hs] at hsome
    cases hsome

/-- **Between two strides the books of a launch are in order.** -/
theorem balanced_of_strides {config : Config} {host : Host} {args : LaunchArguments}
    (h : Strides p (start config host args) l) : l.Balanced := by
  induction h with
  | refl =>
      refine ⟨⟨.nil, by simp, ?_, by simp [start], by simp [start], by simp [start]⟩, rfl,
        by simp [start]⟩
      intro k s hs
      cases (Journal.stage?_empty k).symm.trans hs
  | tail _ hlast ih => exact ih.stride hlast

end Launch

end Conductor
