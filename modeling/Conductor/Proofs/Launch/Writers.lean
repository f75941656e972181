import Conductor.Proofs.Launch.Course
import Conductor.Proofs.Launch.Upkeep

/-!
# The first writers of a turn

The turn of an event keeps a table of first writers, and who is writing goes by places in the
turn. The history tells the same by itself: it shows which handler was the first to write a
variable since the event was taken (`firstWriter?`). Most of what happens to a launch leaves the
table alone and says nothing on the history that bears on it (`Launch.SameWriters`).
-/

namespace Conductor

/-! ## Writes on the history -/

/-- The variable that a deed writes. -/
def Deed.written? : Deed → Option String
  | .setVariable _ name _ => some name
  | _ => none

theorem Deed.eq_setVariable_of_written? {d : Deed} {name : String} (h : d.written? = some name) :
    ∃ target value, d = .setVariable target name value := by
  cases d with
  | setVariable target name' value =>
      cases h
      exact ⟨target, value, rfl⟩
  | _ => cases h

namespace Occurrence

/-- Whether an event is taken, a body begins, or an activation begins or is over. -/
def bearsOnWrites : Occurrence → Bool
  | .dispatched _ => true
  | .began .. => true
  | .entered .. => true
  | .left .. => true
  | _ => false

/-- The action whose activation begins under a number. -/
def enteredAs? (k : Nat) : Occurrence → Option Action
  | .entered k' a => if k' = k then some a else none
  | _ => none

/-- What sets off the body that begins. -/
def cause? : Occurrence → Option BodyCause
  | .began cause .. => some cause
  | _ => none

theorem bearsOnWrites_of_isIncidental {o : Occurrence} (h : o.isIncidental = true) :
    o.bearsOnWrites = false := by
  cases o <;> first | rfl | cases h

theorem bearsOnWrites_of_isOfDeed {o : Occurrence} (h : o.isOfDeed = true) :
    o.bearsOnWrites = false := by
  cases o <;> first | rfl | cases h

end Occurrence

/-- The handler whose body began last, if the last body was that of a handler. -/
def answering? (os : List Occurrence) : Option Nat :=
  match os.findSome? Occurrence.cause? with
  | some (.handler id) => some id
  | _ => none

/-- The variable that has been written when this happens: an activation is completed whose action
writes it. -/
def written? (o : Occurrence) (older : List Occurrence) : Option String :=
  match o with
  | .left k .completed => (older.findSome? (·.enteredAs? k)).bind (·.deed.written?)
  | _ => none

/-- The handler that was the first to write a variable since the last event was taken. What
happened stands latest first. -/
def firstWriter? (name : String) : List Occurrence → Option Nat
  | [] => none
  | .dispatched _ :: _ => none
  | o :: older =>
      (firstWriter? name older).or (if written? o older = some name then answering? older else none)

section Reading

variable {name : String} {o : Occurrence} {os older : List Occurrence} {k : Nat}

theorem firstWriter?_cons (ho : ∀ e, o ≠ .dispatched e) :
    firstWriter? name (o :: older) = (firstWriter? name older).or
      (if written? o older = some name then answering? older else none) := by
  cases o with
  | dispatched e => exact absurd rfl (ho e)
  | _ => rfl

theorem firstWriter?_cons_of_not (ho : ∀ e, o ≠ .dispatched e) (hw : written? o older ≠ some name) :
    firstWriter? name (o :: older) = firstWriter? name older := by
  rw [firstWriter?_cons ho, if_neg hw, Option.or_none]

theorem written?_of_quiet (ho : o.bearsOnWrites = false) : written? o older = none := by
  cases o <;> first | rfl | cases ho

theorem written?_of_ne {outcome : Outcome} (h : outcome ≠ .completed) :
    written? (.left k outcome) older = none := by
  cases outcome with
  | completed => exact absurd rfl h
  | _ => rfl

/-- What is completed was written if it was a write that had begun just before. -/
theorem written?_completed (a : Action) :
    written? (.left k .completed) (.entered k a :: older) = a.deed.written? := by
  show ((Occurrence.entered k a :: older).findSome? (·.enteredAs? k)).bind _ = _
  rw [List.findSome?_cons_of_isSome]
  · simp [Occurrence.enteredAs?]
  · simp [Occurrence.enteredAs?]

theorem firstWriter?_append (hos : ∀ o ∈ os, o.bearsOnWrites = false) :
    firstWriter? name (os ++ older) = firstWriter? name older := by
  induction os with
  | nil => rfl
  | cons o rest ih =>
      obtain ⟨ho, hrest⟩ := List.forall_mem_cons.mp hos
      rw [List.cons_append, firstWriter?_cons_of_not, ih hrest]
      · rintro e rfl
        cases ho
      · rw [written?_of_quiet ho]
        exact nofun

theorem answering?_append (hos : ∀ o ∈ os, o.bearsOnWrites = false) :
    answering? (os ++ older) = answering? older := by
  have hnone : os.findSome? Occurrence.cause? = none := by
    apply List.findSome?_eq_none_iff.mpr
    intro o ho
    have hquiet := hos o ho
    cases o <;> first | rfl | cases hquiet
  unfold answering?
  rw [List.findSome?_append, hnone, Option.none_or]

theorem enteredAs?_append (hos : ∀ o ∈ os, o.bearsOnWrites = false) :
    (os ++ older).findSome? (·.enteredAs? k) = older.findSome? (·.enteredAs? k) := by
  have hnone : os.findSome? (·.enteredAs? k) = none := by
    apply List.findSome?_eq_none_iff.mpr
    intro o ho
    have hquiet := hos o ho
    cases o <;> first | rfl | cases hquiet
  rw [List.findSome?_append, hnone, Option.none_or]

end Reading

/-! ## The permission to write -/

namespace Context

variable {c : Context} {t : Turn} {target : Target} {name : String} {v : Value} {w first : Nat}

theorem write_of_turn_none (h : c.turn = none) :
    c.write target name v = (true, c.bind target name v) := by
  unfold write requestWrite
  rw [h]

/-- What no handler has written before, is written, and the writer noted. -/
theorem write_of_unwritten (h : c.turn = some t) (hw : t.writer = some w)
    (hf : t.firstWriters.get? name = none) :
    c.write target name v = (true, { c with
      turn := some { t with
        firstWriters := t.firstWriters.insert name w } }.bind target name v) := by
  unfold write requestWrite Turn.grant
  rw [h]
  dsimp only
  rw [hw]
  dsimp only
  rw [hf]

theorem write_of_written (h : c.turn = some t) (hw : t.writer = some w)
    (hf : t.firstWriters.get? name = some first) :
    c.write target name v =
      if first = w ∨ c.writePolicy = .lastWins then (true, c.bind target name v)
      else (false, c) := by
  have hsame : { c with turn := some t } = c := by rw [← h]
  unfold write requestWrite Turn.grant
  rw [h]
  dsimp only
  rw [hw]
  dsimp only
  rw [hf]
  dsimp only
  rw [hsame]
  by_cases hgrant : first = w ∨ c.writePolicy = .lastWins
  · have hbool : (Decidable.decide (first = w) ||
        Decidable.decide (c.writePolicy = .lastWins)) = true := by
      simpa using hgrant
    rw [if_pos hgrant, hbool]
  · have hbool : (Decidable.decide (first = w) ||
        Decidable.decide (c.writePolicy = .lastWins)) = false := by
      simpa using hgrant
    rw [if_neg hgrant, hbool]

/-- A write is performed if it is permitted. -/
theorem fst_write (c : Context) (target : Target) (name : String) (v : Value) :
    (c.write target name v).1 = (c.requestWrite name).1 := by
  unfold write
  split
  · rename_i h
    rw [h]
  · rename_i h
    rw [h]

theorem turn_bind (c : Context) (target : Target) (name : String) (v : Value) :
    (c.bind target name v).turn = c.turn ∧
      (c.bind target name v).writePolicy = c.writePolicy := by
  cases target <;> exact ⟨rfl, rfl⟩

end Context

namespace Launch

variable {l m n : Launch} {policy : WritePolicy}

/-! ## What leaves the writers alone -/

/-- The table of first writers is the same, and nothing has happened that bears on it. -/
structure SameWriters (l m : Launch) : Prop where
  turn : m.context.turn = l.context.turn
  policy : m.context.writePolicy = l.context.writePolicy
  history : ∃ os, m.history = os ++ l.history ∧ ∀ o ∈ os, o.bearsOnWrites = false

theorem SameWriters.refl (l : Launch) : l.SameWriters l :=
  ⟨rfl, rfl, [], rfl, by simp⟩

theorem SameWriters.trans (h : l.SameWriters m) (h' : m.SameWriters n) : l.SameWriters n := by
  obtain ⟨os, hos, hq⟩ := h.history
  obtain ⟨os', hos', hq'⟩ := h'.history
  refine ⟨h'.turn.trans h.turn, h'.policy.trans h.policy, os' ++ os,
    by rw [hos', hos, List.append_assoc], fun o ho => ?_⟩
  exact (List.mem_append.mp ho).elim (hq' o) (hq o)

theorem sameWriters_of_same (hc : m.context = l.context) (hh : m.history = l.history) :
    l.SameWriters m :=
  ⟨congrArg Context.turn hc, congrArg Context.writePolicy hc, [], hh, by simp⟩

theorem sameWriters_of_cons {o : Occurrence} (ht : m.context.turn = l.context.turn)
    (hp : m.context.writePolicy = l.context.writePolicy) (ho : o.bearsOnWrites = false)
    (hh : m.history = o :: l.history) : l.SameWriters m :=
  ⟨ht, hp, [o], hh, by simpa using ho⟩

theorem sameWriters_requestShutdown (l : Launch) (reason : String) (due : Bool) :
    l.SameWriters (l.requestShutdown reason due).2 := by
  unfold requestShutdown
  split
  · exact .refl l
  · exact sameWriters_of_cons (o := .emitted (.shutdownRequested reason due)) rfl rfl rfl rfl

theorem sameWriters_report (l : Launch) (e : LaunchError) : l.SameWriters (l.report e) := by
  have hfailed : l.SameWriters (l.happen (.failed e.kind e.message)) :=
    sameWriters_of_cons rfl rfl rfl rfl
  have hfatal : ∀ (n : Launch) reason, n.SameWriters { n with fatal := some reason } :=
    fun n reason => sameWriters_of_same rfl rfl
  unfold report onFailure
  split
  · exact (hfailed.trans (hfatal _ _)).trans (sameWriters_requestShutdown _ _ _)
  · exact hfailed

theorem sameWriters_fail (l : Launch) (seq : Nat) (d : Deed) (e : LaunchError) :
    l.SameWriters (l.fail seq d e).1 := by
  have hclosed : l.SameWriters (l.advance seq (.failed e.message)) := sameWriters_of_same rfl rfl
  exact hclosed.trans (sameWriters_report _ e)

theorem sameWriters_gate (l : Launch) (seq : Nat) (a : Action) :
    l.SameWriters (l.gate seq a).1 := by
  obtain ⟨n, hn, hgate⟩ := gate_cases l seq a
  have hasked : l.SameWriters n := by
    rcases hn with rfl | rfl
    · exact .refl _
    · exact sameWriters_of_same rfl rfl
  rcases hgate with hg | hg | hg | ⟨e, hg⟩ <;> rw [hg]
  · exact hasked.trans (sameWriters_of_same rfl rfl)
  · exact hasked.trans (sameWriters_of_same rfl rfl)
  · exact hasked.trans (sameWriters_of_same rfl rfl)
  · exact hasked.trans (sameWriters_fail n seq a.deed e)

theorem sameWriters_settle (seq : Nat) (d : Deed) (x : Launch × Performed) :
    x.1.SameWriters (settle seq d x).1 := by
  obtain ⟨m, r⟩ := x
  match r with
  | .ok .done => exact sameWriters_of_same rfl rfl
  | .ok .running => exact .refl m
  | .error e => exact sameWriters_fail m seq d e

theorem sameWriters_cancelTimers (why : String) (ids : List Nat) (l : Launch) :
    l.SameWriters (l.cancelTimers why ids) := by
  induction ids generalizing l with
  | nil => exact .refl l
  | cons id rest ih =>
      refine SameWriters.trans ?_ (ih (l.cancelTimer why id))
      rcases cancelTimer_cases why id l with ⟨-, h⟩ | ⟨t, -, h⟩
      · rw [h]
        exact .refl l
      · rw [h]
        exact sameWriters_of_cons (o := .cancelled id) rfl rfl rfl rfl

theorem sameWriters_endGroup (l : Launch) (failure : Option LaunchError) :
    l.SameWriters (l.endGroup failure) := by
  unfold endGroup
  split
  · exact .refl l
  · split
    · exact sameWriters_of_same rfl rfl
    · rename_i own outer _ _ _
      have hregrouped : l.SameWriters { l with groupTimers := outer } :=
        sameWriters_of_same rfl rfl
      exact hregrouped.trans (sameWriters_cancelTimers _ _ _)

theorem sameWriters_asked (l : Launch) (d : Deed) : l.SameWriters (l.asked d) := by
  obtain ⟨os, hos, hq⟩ := (aside_asked l d).history
  have hc := context_asked l d
  exact ⟨congrArg Context.turn hc, congrArg Context.writePolicy hc, os, hos,
    fun o ho => Occurrence.bearsOnWrites_of_isIncidental (hq o ho)⟩

theorem surrounds_sameWriters : Surrounds SameWriters where
  refl := .refl
  gate := sameWriters_gate
  settle := sameWriters_settle
  skipAll _ _ _ := sameWriters_of_same rfl rfl
  beginGroup _ := sameWriters_of_same rfl rfl
  endGroup := sameWriters_endGroup
  asked := sameWriters_asked

theorem sameWriters_signalLive (signal : Signal) (l : Launch) :
    l.SameWriters (l.signalLive signal) := by
  have hsent : ∀ (n : Launch) s, n.SameWriters { n with supervisor := s } := fun n s =>
    sameWriters_of_same rfl rfl
  have hone : ∀ (n : Launch) id, n.SameWriters (n.sendSignal signal id) := by
    intro n id
    unfold sendSignal
    split
    · exact (hsent n _).trans (sameWriters_of_cons (o := .signalled id signal) rfl rfl rfl rfl)
    · exact hsent n _
    · exact (hsent n _).trans (sameWriters_report _ _)
  unfold signalLive
  generalize l.supervisor.live = ids
  induction ids generalizing l with
  | nil => exact .refl l
  | cons id rest ih => exact (hone l id).trans (ih _)

theorem context_execute (l : Launch) (seq : Nat) (a : Action) (p : ProcessTemplate)
    (onExit : List Action) : ∃ pending, (l.execute seq a p onExit).1.context =
      { l.context with pending } := by
  unfold execute
  split
  · exact ⟨l.context.pending, rfl⟩
  · dsimp only
    split
    · exact ⟨l.context.pending, rfl⟩
    · rename_i spec _
      split
      · rename_i hs
        rw [startProcess_error hs]
        exact ⟨l.context.pending, rfl⟩
      · rename_i h l' hs
        obtain ⟨-, -, rfl⟩ := startProcess_ok hs
        obtain ⟨r, -, -, -, -, heq⟩ :=
          (({ l with attempts := l.attempts + 1 } : Launch).withStarted h spec).attend_eq seq a
            onExit spec.name h
        rw [heq]
        exact ⟨_, rfl⟩

theorem sameWriters_emit (l : Launch) (e : Event) : l.SameWriters (l.emit e) :=
  sameWriters_of_cons (o := .emitted e) rfl rfl rfl rfl

theorem sameWriters_schedule (l : Launch) (delay : Duration) (as : List Action) (scope : Scope)
    (record : Option Nat) (cancel : Bool) :
    l.SameWriters (l.schedule delay as scope record cancel) :=
  sameWriters_of_cons (o := .scheduled l.nextTimer _) rfl rfl rfl rfl

theorem sameWriters_releaseProcess (l : Launch) (id : ProcessId) :
    l.SameWriters (l.releaseProcess id) := by
  rcases l.releaseProcess_cases id with ⟨-, h⟩ | ⟨g, -, -, h⟩
  · rw [h]
    exact sameWriters_of_same rfl rfl
  · rw [h]
    exact sameWriters_of_cons (o := .released g) rfl rfl rfl rfl

theorem sameWriters_beginShutdown {reason : String} (h : l.beginShutdown reason = .ok m) :
    l.SameWriters m := by
  obtain ⟨deadline, -, rfl⟩ := beginShutdown_eq h
  have hbegun : l.SameWriters (l.withShutdown reason deadline) :=
    sameWriters_of_cons (o := .shutdownBegan reason) rfl rfl rfl rfl
  exact (hbegun.trans (sameWriters_cancelTimers _ _ _)).trans (sameWriters_signalLive _ _)

/-- Nor does what follows the turn of an event, unless a process is started again. -/
theorem sameWriters_afterTurn {e : Event} (hm : l.afterTurn e = .ok m)
    (hn : ∀ q status r, e = .processExited q status → l.processes.get? q.id.number = some r →
      (l.releaseProcess q.id).respawnDelay? r = none) : l.SameWriters m := by
  cases e with
  | shutdownRequested reason due => exact sameWriters_beginShutdown hm
  | processExited q status =>
      change Except.ok (l.finishProcess q.id) = .ok m at hm
      cases hm
      unfold finishProcess
      cases hr : l.processes.get? q.id.number with
      | none => exact .refl l
      | some r =>
          dsimp only
          rw [respawn_eq, hn q status r rfl hr]
          exact sameWriters_releaseProcess l q.id
  | _ =>
      cases hm
      exact .refl l

theorem sameWriters_elapse (l : Launch) (id : Nat) (t : Timer) :
    l.SameWriters (l.elapse id t) := by
  have htaken : l.SameWriters ({ l with timers := l.timers.erase id }.happen (.fired id)) :=
    sameWriters_of_cons (o := .fired id) rfl rfl rfl rfl
  have hclosed : ∀ (n : Launch) seq, n.SameWriters (n.advance seq .completed) := fun n seq =>
    sameWriters_of_same rfl rfl
  unfold elapse
  dsimp only
  split
  · exact htaken
  · exact (htaken.trans (hclosed _ _)).trans (sameWriters_emit _ _)

theorem sameWriters_onNotice (l : Launch) (n : Notice) : l.SameWriters (l.onNotice n) := by
  have hsup : ∀ s, l.SameWriters { l with supervisor := s } := fun s => sameWriters_of_same rfl rfl
  rcases l.onNotice_cases n with
      ⟨-, h⟩ | ⟨s, -, ⟨-, h⟩ | ⟨r, -, ⟨_, _, _, -, h⟩ | ⟨_, status, fault, -, h⟩⟩⟩
  · rw [h]
    exact .refl l
  · rw [h]
    exact hsup s
  · rw [h]
    exact (hsup s).trans (sameWriters_emit _ _)
  · have hfault : ∀ k : Launch, k.SameWriters (k.reportFault r.info.name fault) := by
      intro k
      cases fault with
      | none => exact .refl k
      | some text => exact sameWriters_report k _
    have hclosed : ∀ k : Launch,
        k.SameWriters ((k.note r.record status.text).advance r.record .completed) := fun k =>
      sameWriters_of_same rfl rfl
    rw [h]
    exact (((hsup s).trans (hfault _)).trans (hclosed _)).trans (sameWriters_emit _ _)

theorem sameWriters_killRemaining (l : Launch) : l.SameWriters l.killRemaining := by
  unfold killRemaining
  split
  · exact .refl l
  · have hforced : l.SameWriters { l with forced := true } := sameWriters_of_same rfl rfl
    exact hforced.trans (sameWriters_signalLive _ _)

theorem sameWriters_arrive (l : Launch) (a : Arrival) : l.SameWriters (l.arrive a) :=
  sameWriters_of_cons (o := .received a.message) rfl rfl rfl rfl

/-- A message that makes no timer fire leaves the writers alone. -/
theorem sameWriters_receive {a : Arrival}
    (ha : ∀ id, a.message = .timerFired id → l.timers.get? id = none) :
    l.SameWriters (l.receive a).launch := by
  apply (sameWriters_arrive l a).trans
  unfold receive
  cases hm : a.message with
  | notice n => exact sameWriters_onNotice _ n
  | timerFired id =>
      have hnone : (l.arrive a).timers.get? id = none := ha id hm
      show (l.arrive a).SameWriters ((l.arrive a).fireTimer id)
      unfold fireTimer
      rw [hnone]
      exact .refl _
  | interrupt =>
      show (l.arrive a).SameWriters (Standing.launch (if _ then _ else _))
      split
      · exact sameWriters_killRemaining _
      · exact sameWriters_requestShutdown _ _ _
  | graceElapsed =>
      show (l.arrive a).SameWriters (Standing.launch (if _ then _ else _))
      split
      · exact sameWriters_killRemaining _
      · exact .refl _

/-- A deed without children that writes no variable leaves the writers alone. -/
theorem sameWriters_performLeaf (l : Launch) (seq : Nat) (a : Action) {d : Deed}
    (hd : d.written? = none) : l.SameWriters (l.performLeaf seq a d).1 := by
  obtain ⟨os, hos, hq⟩ := history_performLeaf l seq a d
  have hsame : (l.performLeaf seq a d).1.context.turn = l.context.turn ∧
      (l.performLeaf seq a d).1.context.writePolicy = l.context.writePolicy := by
    cases d with
    | setVariable => cases hd
    | execute p onExit =>
        obtain ⟨pending, hc⟩ := context_execute l seq a p onExit
        exact ⟨(congrArg Context.turn hc).trans rfl, (congrArg Context.writePolicy hc).trans rfl⟩
    | declare argument =>
        rw [performLeaf]
        split
        · exact ⟨rfl, rfl⟩
        · split
          · exact ⟨rfl, rfl⟩
          · rename_i hdeclare
            obtain ⟨scopes, arguments, rfl⟩ := Context.declare_eq_rebind hdeclare
            exact ⟨rfl, rfl⟩
    | shutdown reason =>
        rw [performLeaf]
        split
        · exact ⟨rfl, rfl⟩
        · rename_i reason _
          have hask := sameWriters_requestShutdown l reason false
          split
          · rename_i h
            rw [h] at hask
            exact ⟨hask.turn, hask.policy⟩
          · rename_i h
            rw [h] at hask
            exact ⟨hask.turn, hask.policy⟩
    | log | setEnv | timer =>
        rw [performLeaf]
        repeat' split
        all_goals exact ⟨rfl, rfl⟩
    | _ => exact ⟨rfl, rfl⟩
  exact ⟨hsame.1, hsame.2, os, hos, fun o ho => Occurrence.bearsOnWrites_of_isOfDeed (hq o ho)⟩

end Launch

end Conductor
