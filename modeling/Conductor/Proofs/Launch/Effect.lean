import Mathlib.Logic.Basic
import Mathlib.Logic.Relation
import Conductor.Launch.Activation
import Conductor.Proofs.Action.Every
import Conductor.Proofs.Supervisor

/-!
# What an activation can do to a launch

An activation changes a launch only by a few small effects, one after the other. They are
collected in `Effect`, together with the guard under which each happens: a process is
started and a timer scheduled only while no shutdown is under way, an event is queued only
by a deed that emits it, and whatever is left behind for later comes from the action.

`activate_effects` says that this is all there is to an activation. What holds of every
launch is then proved effect by effect, and no later proof opens the activation again.
-/

namespace Conductor

namespace Context

/-- The context with other bindings; its events and what is known of a shutdown stay. -/
def rebind (c : Context) (scopes : ScopeStack) (arguments : Table String Argument)
    (turn : Option Turn) : Context :=
  { c with scopes, arguments, turn }

theorem bind_eq_rebind (c : Context) (target : Target) (name : String) (v : Value) :
    ∃ scopes, c.bind target name v = c.rebind scopes c.arguments c.turn := by
  cases target with
  | innermost => exact ⟨_, rfl⟩
  | root => exact ⟨_, rfl⟩

theorem write_eq_rebind (c : Context) (target : Target) (name : String) (v : Value) :
    ∃ scopes turn, (c.write target name v).2 = c.rebind scopes c.arguments turn := by
  have hreq : ∃ turn, (c.requestWrite name).2 = c.rebind c.scopes c.arguments turn := by
    unfold requestWrite
    split
    · exact ⟨c.turn, rfl⟩
    · exact ⟨_, rfl⟩
  obtain ⟨turn, hturn⟩ := hreq
  unfold write
  split
  · rename_i c' heq
    rw [heq] at hturn
    change c' = c.rebind c.scopes c.arguments turn at hturn
    subst hturn
    obtain ⟨scopes, hscopes⟩ := bind_eq_rebind (c.rebind c.scopes c.arguments turn) target name v
    exact ⟨scopes, turn, hscopes⟩
  · rename_i c' heq
    rw [heq] at hturn
    exact ⟨c.scopes, turn, hturn⟩

theorem bindDefault_eq_rebind (c : Context) (a : Argument) :
    ∃ scopes, c.bindDefault a = c.rebind scopes c.arguments c.turn := by
  unfold bindDefault
  split
  · exact bind_eq_rebind c _ _ _
  · exact ⟨c.scopes, rfl⟩

theorem declare_eq_rebind {c c' : Context} {a : Argument} (h : c.declare a = .ok c') :
    ∃ scopes arguments, c' = c.rebind scopes arguments c.turn := by
  obtain ⟨scopes, hscopes⟩ := bindDefault_eq_rebind c a
  unfold declare at h
  split at h
  · cases h
  · cases h
    exact ⟨scopes, c.arguments, hscopes⟩
  · split at h
    · cases h
    · cases h
      exact ⟨scopes, _, by rw [hscopes]; rfl⟩

end Context

/-- What remains to be said about a timer that is taken away: its record, if it has one, is
completed and says why. -/
def Timer.close (t : Timer) (why : String) (journal : Journal) : Journal :=
  match t.record with
  | none => journal
  | some seq => (journal.note seq why).advance seq .completed

namespace Launch

/-- The launch in which a process of the next number has started. -/
def withStarted (l : Launch) (h : ProcessHandle) (spec : ProcessSpec) : Launch :=
  { l with
    supervisor := { l.supervisor with
      nextId := l.supervisor.nextId + 1
      handles := l.supervisor.handles.insert l.supervisor.nextId h }
    history := .started h.id spec :: l.history }

/-- The launch in which a shutdown has been asked for. -/
def withRequest (l : Launch) (reason : String) (dueToSignal : Bool) : Launch :=
  { l with
    context := { l.context with
      shuttingDown := true
      pending := l.context.pending ++ [.shutdownRequested reason dueToSignal] }
    history := .emitted (.shutdownRequested reason dueToSignal) :: l.history }

end Launch

/-- One small thing that can happen to a launch while something is activated. Every deed
that is performed satisfies the predicate, and so does every deed of the actions that are
left behind for later. -/
inductive Effect (p : Deed → Prop) (l : Launch) : Launch → Prop where
  | enter (a : Action) : Effect p l (l.enter a).2
  | leave (seq : Nat) (outcome : Outcome) : Effect p l (l.happen (.left seq outcome))
  | advance (seq : Nat) (stage : Stage) : Effect p l (l.advance seq stage)
  | note (seq : Nat) (text : String) : Effect p l (l.note seq text)
  | skip (a : Action) (why : String) : Effect p l { l with journal := l.journal.skip a why }
  | line (level : LogLevel) (text : String) : Effect p l (l.happen (.line level text))
  | rebind (scopes : ScopeStack) (arguments : Table String Argument) (turn : Option Turn) :
      Effect p l { l with context := l.context.rebind scopes arguments turn }
  | regroup (groups : List (List Nat)) : Effect p l { l with groupTimers := groups }
  | attempt : Effect p l { l with attempts := l.attempts + 1 }
  | interrupt : Effect p l l.interrupt
  | register (h : Handler) (hh : h.Every p) :
      Effect p l { l with registry := l.registry.register h }
  | unregister (name : String) :
      Effect p l ({ l with registry := l.registry.unregister name }.happen (.unregistered name))
  | emit (e : Event) (he : p (.emit e)) : Effect p l (l.emit e)
  /-- The first request for a shutdown. -/
  | request (reason : String) (dueToSignal : Bool) (hl : l.context.shuttingDown = false) :
      Effect p l (l.withRequest reason dueToSignal)
  /-- A failure that is not the first one of a fail-fast launch. -/
  | fail (e : LaunchError) (hl : l.config.failurePolicy ≠ .failFast ∨ l.fatal ≠ none) :
      Effect p l (l.happen (.failed e.kind e.message))
  /-- The first failure of a fail-fast launch that is being shut down already. -/
  | failLate (e : LaunchError) (hpolicy : l.config.failurePolicy = .failFast)
      (hfatal : l.fatal = none) (hl : l.context.shuttingDown = true) :
      Effect p l { l.happen (.failed e.kind e.message) with fatal := some e.message }
  /-- The first failure of a fail-fast launch asks for a shutdown. -/
  | failFast (e : LaunchError) (hpolicy : l.config.failurePolicy = .failFast)
      (hfatal : l.fatal = none) (hl : l.context.shuttingDown = false) :
      Effect p l ({ l.happen (.failed e.kind e.message) with
        fatal := some e.message }.withRequest ("fail-fast: " ++ e.message) false)
  | cancelTimer (why : String) (id : Nat) (t : Timer) (ht : l.timers.get? id = some t) :
      Effect p l
        { l with
          timers := l.timers.erase id
          journal := t.close why l.journal
          history := .cancelled id :: l.history }
  | schedule (delay : Duration) (as : List Action) (scope : Scope) (record : Option Nat)
      (cancelOnShutdown : Bool) (hl : l.context.shuttingDown = false) (has : ∀ a ∈ as, a.Every p) :
      Effect p l (l.schedule delay as scope record cancelOnShutdown)
  /-- A process that could not be started has used up a number. -/
  | refuse :
      Effect p l { l with supervisor := { l.supervisor with nextId := l.supervisor.nextId + 1 } }
  | spawn (spec : ProcessSpec) (seq : Nat) (a : Action) (t : ProcessTemplate)
      (onExit : List Action) (h : ProcessHandle) (hid : h.id = ⟨l.supervisor.nextId⟩)
      (hh : h.status = none ∧ h.terminateSent = false ∧ h.killSent = false ∧ h.captured = [])
      (hl : l.context.shuttingDown = false) (hd : a.deed = .execute t onExit) (ha : a.Every p)
      (hseq : seq < l.journal.size) :
      Effect p l ((l.withStarted h spec).attend seq a onExit spec.name h)
  /-- A signal is noted on the handle of a living process before it is sent. -/
  | mark (id : ProcessId) (h : ProcessHandle) (signal : Signal) (sent : Nat)
      (hf : l.supervisor.find? id = some h) (ha : h.isAlive = true)
      (hw : h.wasSent signal = false) :
      Effect p l
        { l with
          supervisor := { l.supervisor.update (h.markSent signal) with signalsSent := sent } }
  | signalled (id : ProcessId) (signal : Signal) : Effect p l (l.happen (.signalled id signal))

theorem Timer.size_close (t : Timer) (why : String) (j : Journal) :
    (t.close why j).size = j.size := by
  unfold close
  split
  · rfl
  · rw [Journal.size_advance, Journal.size_note]

namespace Launch

/-- A process that has started is kept, with what is to follow its end in the registry. -/
theorem attend_eq (l : Launch) (seq : Nat) (a : Action) (onExit : List Action) (name : String)
    (h : ProcessHandle) :
    ∃ r : RunningProcess, r.record = seq ∧ r.info = ⟨h.id, a.id, name, h.pid, h.command⟩ ∧
      r.action = a ∧ r.scope = l.context.snapshot ∧
      l.attend seq a onExit name h =
        { l with
          journal := l.journal.note seq ("pid " ++ toString h.pid)
          context := l.context.emit (.processStarted r.info)
          registry :=
            if onExit.isEmpty then l.registry
            else l.registry.register (.onExitOf h.id onExit r.scope)
          processes := l.processes.insert h.id.number r
          history :=
            .kept r (if onExit.isEmpty then none else some l.registry.nextId) ::
              .emitted (.processStarted r.info) :: l.history } := by
  refine ⟨⟨seq, ⟨h.id, a.id, name, h.pid, h.command⟩, a, l.context.snapshot⟩, rfl, rfl, rfl, rfl,
    ?_⟩
  unfold attend
  dsimp only
  split
  · rfl
  · rfl

end Launch

/-- No record is lost. -/
theorem Effect.size_le {p : Deed → Prop} {l m : Launch} (h : Effect p l m) :
    l.journal.size ≤ m.journal.size := by
  have hsame : ∀ {j : Journal}, j.size = l.journal.size → l.journal.size ≤ j.size :=
    fun hj => Nat.le_of_eq hj.symm
  have hmore : ∀ {j : Journal}, j.size = l.journal.size + 1 → l.journal.size ≤ j.size :=
    fun hj => by omega
  cases h with
  | enter a => exact hmore (l.journal.size_enter a)
  | skip a why => exact hmore (l.journal.size_skip a why)
  | advance seq stage => exact hsame (l.journal.size_advance seq stage)
  | note seq text => exact hsame (l.journal.size_note seq text)
  | cancelTimer why id t ht => exact hsame (t.size_close why l.journal)
  | spawn spec seq a t onExit h _ _ _ _ _ _ =>
      obtain ⟨r, -, -, -, -, heq⟩ := (l.withStarted h spec).attend_eq seq a onExit spec.name h
      rw [heq]
      exact hsame (l.journal.size_note seq _)
  | _ => exact Nat.le_refl _

/-- Effects one after the other. -/
abbrev Effects (p : Deed → Prop) : Launch → Launch → Prop :=
  Relation.ReflTransGen (Effect p)

namespace Effects

variable {p : Deed → Prop} {l m : Launch}

theorem single (h : Effect p l m) : Effects p l m :=
  Relation.ReflTransGen.single h

theorem snoc {n : Launch} (h : Effects p l m) (hn : Effect p m n) : Effects p l n :=
  h.tail hn

/-- No record is lost. -/
theorem size_le (h : Effects p l m) : l.journal.size ≤ m.journal.size := by
  induction h with
  | refl => exact Nat.le_refl _
  | tail _ hlast ih => exact Nat.le_trans ih hlast.size_le

end Effects

namespace Launch

variable {p : Deed → Prop}

theorem rescope_effects (l : Launch) (scopes : ScopeStack) :
    Effects p l { l with context := { l.context with scopes } } :=
  .single (.rebind scopes l.context.arguments l.context.turn)

/-- Leaving a scope is one more effect of what is done under it. -/
theorem under_effects {α : Type} {l : Launch} {scope : Scope} {f : Launch → Launch × α}
    (hf : ∀ m, Effects p m (f m).1) : Effects p l (l.under scope f).1 := by
  have hpush : Effects p l { l with context := l.context.push scope } := rescope_effects l _
  exact (hpush.trans (hf _)).trans (rescope_effects _ _)

theorem skipAll_effects (as : List Action) (why : String) (l : Launch) :
    Effects p l (l.skipAll as why) := by
  induction as generalizing l with
  | nil => exact .refl
  | cons a rest ih => exact .head (.skip a why) (ih _)

theorem requestShutdown_eq {l : Launch} (hl : l.context.shuttingDown = false) (reason : String)
    (dueToSignal : Bool) :
    (l.requestShutdown reason dueToSignal).2 = l.withRequest reason dueToSignal := by
  unfold requestShutdown
  rw [if_neg (by simp [hl])]
  rfl

theorem requestShutdown_effects (l : Launch) (reason : String) (dueToSignal : Bool) :
    Effects p l (l.requestShutdown reason dueToSignal).2 := by
  cases hl : l.context.shuttingDown with
  | false =>
      rw [requestShutdown_eq hl]
      exact .single (.request reason dueToSignal hl)
  | true =>
      unfold requestShutdown
      rw [if_pos hl]

/-- A reported error is one effect, whether it asks for a shutdown or not. -/
theorem report_effect (l : Launch) (e : LaunchError) : Effect p l (l.report e) := by
  unfold report onFailure requestShutdown
  split
  · rename_i h
    split
    · rename_i hl
      exact .failLate e h.1 h.2 hl
    · rename_i hl
      exact .failFast e h.1 h.2 (Bool.eq_false_iff.mpr hl)
  · rename_i h
    exact .fail e (not_and_or.mp h)

/-- A timer that is cancelled is taken away and its record closed; one that is not pending is
left alone. -/
theorem cancelTimer_cases (why : String) (id : Nat) (l : Launch) :
    (l.timers.get? id = none ∧ l.cancelTimer why id = l) ∨
      ∃ t, l.timers.get? id = some t ∧
        l.cancelTimer why id =
          { l with
            timers := l.timers.erase id
            journal := t.close why l.journal
            history := .cancelled id :: l.history } := by
  unfold cancelTimer
  split
  · rename_i hn
    exact .inl ⟨hn, rfl⟩
  · rename_i t ht
    refine .inr ⟨t, ht, ?_⟩
    unfold Timer.close
    dsimp only
    cases t.record <;> rfl

theorem cancelTimer_effects (why : String) (id : Nat) (l : Launch) :
    Effects p l (l.cancelTimer why id) := by
  rcases cancelTimer_cases why id l with ⟨-, h⟩ | ⟨t, ht, h⟩
  · rw [h]
  · rw [h]
    exact .single (.cancelTimer why id t ht)

theorem cancelTimers_effects (why : String) (ids : List Nat) (l : Launch) :
    Effects p l (l.cancelTimers why ids) := by
  induction ids generalizing l with
  | nil => exact .refl
  | cons id rest ih => exact (cancelTimer_effects why id l).trans (ih _)

/-- A signal is noted, sent, and put on the history or reported as failed. -/
theorem sendSignal_effects (signal : Signal) (id : ProcessId) (l : Launch) :
    Effects p l (l.sendSignal signal id) := by
  -- The mark comes first, whatever becomes of the signal.
  have hsend : Effects p l
      { l with supervisor := (l.supervisor.send l.context.host id signal).2 } := by
    rcases l.supervisor.send_cases l.context.host id signal with
        ⟨-, h⟩ | ⟨-, -, -, h⟩ | ⟨h, n, hf, ha, hw, hs⟩
    · rw [h]
    · rw [h]
    · rw [hs]
      exact .single (.mark id h signal n hf ha hw)
  unfold sendSignal
  split
  · rename_i h
    rw [h] at hsend
    exact hsend.snoc (.signalled id signal)
  · rename_i h
    rw [h] at hsend
    exact hsend
  · rename_i h
    rw [h] at hsend
    exact hsend.snoc (report_effect _ _)

theorem signalLive_effects (signal : Signal) (l : Launch) :
    Effects p l (l.signalLive signal) := by
  -- Who is alive is asked once, before the first signal is sent.
  have hall : ∀ (ids : List ProcessId) (m : Launch),
      Effects p m (ids.foldl (fun m id => m.sendSignal signal id) m) := by
    intro ids
    induction ids with
    | nil => exact fun m => .refl
    | cons id rest ih => exact fun m => (sendSignal_effects signal id m).trans (ih _)
  exact hall _ l

theorem endGroup_effects (failure : Option LaunchError) (l : Launch) :
    Effects p l (l.endGroup failure) := by
  unfold endGroup
  split
  · exact .refl
  · split
    · exact .single (.regroup _)
    · exact .head (.regroup _) (cancelTimers_effects _ _ _)

/-- What is done as the children of a group is done between two ends of the group. -/
theorem asGroup_effects {l : Launch} {scope : Scope} {f : Launch → Launch × Option LaunchError}
    (hf : ∀ m, Effects p m (f m).1) : Effects p l (l.asGroup scope f).1 := by
  have hbegin : Effects p l l.beginGroup := .single (.regroup _)
  exact (hbegin.trans (under_effects hf)).trans (endGroup_effects _ _)

/-- A failure closes the record and is reported. -/
theorem fail_effects (l : Launch) (seq : Nat) (d : Deed) (e : LaunchError) :
    Effects p l (l.fail seq d e).1 :=
  .head (.advance seq (.failed e.message)) (.single (report_effect _ e))

theorem settle_effects {l : Launch} (seq : Nat) (d : Deed) {x : Launch × Performed}
    (hx : Effects p l x.1) : Effects p l (settle seq d x).1 := by
  obtain ⟨m, r⟩ := x
  match r with
  | .ok .done => exact hx.snoc (.advance seq .completed)
  | .ok .running => exact hx
  | .error e => exact hx.trans (fail_effects m seq d e)

theorem leave_effects {l : Launch} (seq : Nat) {x : Launch × Outcome} (hx : Effects p l x.1) :
    Effects p l (leave seq x).1 :=
  hx.snoc (.leave seq x.2)

theorem ofChildren_fst (x : Launch × Option LaunchError) : (ofChildren x).1 = x.1 := by
  obtain ⟨m, r⟩ := x
  cases r <;> rfl

/-! ## Deeds without children -/

theorem startProcess_error {l l' : Launch} {spec : ProcessSpec} {e : SupervisorError}
    (h : l.startProcess spec = (.error e, l')) :
    l' = { l with supervisor := { l.supervisor with nextId := l.supervisor.nextId + 1 } } := by
  unfold startProcess at h
  rcases l.supervisor.spawn_cases l.context.host spec with ⟨e', hs⟩ | ⟨hd, -, -, hs⟩
  · rw [hs] at h
    exact (Prod.mk.inj h).2.symm
  · rw [hs] at h
    cases (Prod.mk.inj h).1

theorem startProcess_ok {l l' : Launch} {spec : ProcessSpec} {h : ProcessHandle}
    (hs : l.startProcess spec = (.ok h, l')) :
    h.id = ⟨l.supervisor.nextId⟩ ∧
      (h.status = none ∧ h.terminateSent = false ∧ h.killSent = false ∧ h.captured = []) ∧
      l' = l.withStarted h spec := by
  unfold startProcess at hs
  rcases l.supervisor.spawn_cases l.context.host spec with ⟨e, he⟩ | ⟨h', hid, hh, he⟩
  · rw [he] at hs
    cases (Prod.mk.inj hs).1
  · rw [he] at hs
    obtain ⟨heq, hl⟩ := Prod.mk.inj hs
    cases heq
    exact ⟨hid, hh, hl.symm⟩

section Leaf

variable {l : Launch} {seq : Nat} {a : Action}

theorem execute_effects {t : ProcessTemplate} {onExit : List Action}
    (hd : a.deed = .execute t onExit) (ha : a.Every p) (hl : l.context.shuttingDown = false)
    (hseq : seq < l.journal.size) : Effects p l (l.execute seq a t onExit).1 := by
  unfold execute
  split
  · exact .refl
  · have hattempt : Effects p l { l with attempts := l.attempts + 1 } := .single .attempt
    dsimp only
    split
    · exact hattempt
    · rename_i spec _
      split
      · rename_i hs
        -- The number is lost, whether a process was started or not.
        rw [startProcess_error hs]
        exact hattempt.snoc .refuse
      · rename_i h l' hs
        obtain ⟨hid, hh, rfl⟩ := startProcess_ok hs
        exact hattempt.snoc (.spawn spec seq a t onExit h hid hh hl hd ha hseq)

theorem performLeaf_effects {d : Deed} (hd : a.deed = d) (ha : a.Every p)
    (hl : d.startsWork → l.context.shuttingDown = false) (hseq : seq < l.journal.size) :
    Effects p l (l.performLeaf seq a d).1 := by
  have hevery : d.Every p := hd ▸ Action.every_iff.mp ha
  cases d with
  | log level message =>
      rw [performLeaf]
      split
      · exact .refl
      · exact .single (.line _ _)
  | execute t onExit => exact execute_effects hd ha (hl rfl) hseq
  | declare argument =>
      rw [performLeaf]
      split
      · exact .refl
      · split
        · exact .refl
        · rename_i hc
          obtain ⟨scopes, arguments, rfl⟩ := Context.declare_eq_rebind hc
          exact .single (.rebind scopes arguments l.context.turn)
  | setVariable target name value =>
      rw [performLeaf]
      split
      · exact .refl
      · rename_i v _
        obtain ⟨scopes, turn, hw⟩ := Context.write_eq_rebind l.context target name v
        have hbind : Effects p l { l with context := (l.context.write target name v).2 } := by
          rw [hw]
          exact .single (.rebind scopes l.context.arguments turn)
        split
        · rename_i hc
          rw [hc] at hbind
          exact hbind
        · rename_i hc
          rw [hc] at hbind
          exact hbind.snoc (.note _ _)
  | unsetVariable name => exact rescope_effects l _
  | setEnv name value =>
      rw [performLeaf]
      split
      · exact .refl
      · exact rescope_effects l _
  | unsetEnv name => exact rescope_effects l _
  | register h => exact .single (.register h hevery.2)
  | unregister name => exact .single (.unregister name)
  | emit e => exact .single (.emit e hevery)
  | timer period children cancelOnShutdown =>
      rw [performLeaf]
      split
      · exact .refl
      · split
        · exact .refl
        · exact .single (.schedule _ _ _ _ _ (hl rfl) (everyDeed_iff.mp hevery.2))
  | shutdown reason =>
      rw [performLeaf]
      split
      · exact .refl
      · rename_i reason _
        have hask : Effects p l (l.requestShutdown reason false).2 :=
          requestShutdown_effects l reason false
        split
        · rename_i hr
          rw [hr] at hask
          exact hask
        · rename_i hr
          rw [hr] at hask
          exact hask.snoc (.note _ _)
  | group | splice | compute => exact .refl

/-- The condition of an action only changes its record. An action that is let through while
a shutdown is under way starts nothing. -/
theorem gate_effects (l : Launch) (seq : Nat) (a : Action) :
    Effects p l (l.gate seq a).1 ∧
      ((l.gate seq a).2 = none → a.deed.startsWork →
        (l.gate seq a).1.context.shuttingDown = false) := by
  have hstart : ∀ m : Launch,
      Effects p m ((m.advance seq .activated).advance seq .running) := fun m =>
    .head (.advance seq .activated) (.single (.advance seq .running))
  have hskip : ∀ m : Launch,
      Effects p m ((m.advance seq .skipped).note seq "shutdown in progress") := fun m =>
    .head (.advance seq .skipped) (.single (.note seq _))
  have hask : Effects p l (l.advance seq .evaluatingCondition) := .single (.advance seq _)
  unfold gate
  cases a.condition with
  | none =>
      dsimp only
      split
      · exact ⟨hskip l, by simp⟩
      · rename_i hs
        refine ⟨hstart l, ?_⟩
        -- The gate was passed, so whatever starts something found the flag off.
        intro _ hw
        simp only [hw, Bool.and_true] at hs
        exact Bool.eq_false_iff.mpr hs
  | some c =>
      dsimp only
      split
      · rename_i heq
        obtain ⟨rfl, _⟩ := Prod.mk.inj heq
        exact ⟨hask.trans (fail_effects _ seq a.deed _), by simp⟩
      · rename_i heq
        obtain ⟨rfl, _⟩ := Prod.mk.inj heq
        exact ⟨hask.snoc (.advance seq .skipped), by simp⟩
      · rename_i heq
        obtain ⟨rfl, _⟩ := Prod.mk.inj heq
        split
        · exact ⟨hask.trans (hskip _), by simp⟩
        · rename_i hs
          refine ⟨hask.trans (hstart _), ?_⟩
          intro _ hw
          simp only [hw, Bool.and_true] at hs
          exact Bool.eq_false_iff.mpr hs

end Leaf

/-! ## Whole actions -/

/-- A deed without children is performed in one go. -/
theorem leaf_effects {l : Launch} {seq : Nat} {a : Action} {d : Deed}
    (hleaf : perform seq a d l = l.performLeaf seq a d) (hd : a.deed = d) (ha : a.Every p)
    (hl : d.startsWork → l.context.shuttingDown = false) (hseq : seq < l.journal.size) :
    Effects p l (perform seq a d l).1 := by
  rw [hleaf]
  exact performLeaf_effects hd ha hl hseq

mutual

/-- **An activation is made of effects.** -/
theorem activate_effects : ∀ (a : Action) (l : Launch), a.Every p → Effects p l (activate a l).1
  | .mk id condition deed, l, h => by
      have henter : Effects p l (l.enter (.mk id condition deed)).2 := .single (.enter _)
      obtain ⟨hgate, hwork⟩ := gate_effects (p := p) (l.enter (.mk id condition deed)).2
        (l.enter (.mk id condition deed)).1 (.mk id condition deed)
      rw [activate]
      dsimp only
      split
      · rename_i heq
        rw [heq] at hgate
        exact leave_effects _ (henter.trans hgate)
      · rename_i heq
        rw [heq] at hgate hwork
        -- The gate let the action through, so nothing is started during a shutdown.
        refine leave_effects _ ((henter.trans hgate).trans (settle_effects _ _ ?_))
        -- The record was opened before.
        have hopened : l.journal.size < (l.enter (.mk id condition deed)).2.journal.size :=
          Nat.lt_of_lt_of_eq (Nat.lt_succ_self _) (l.journal.size_enter _).symm
        have hsize := Nat.lt_of_lt_of_le hopened hgate.size_le
        exact perform_effects deed _ _ _ rfl h (hwork rfl) hsize

/-- A deed is performed by effects, given that it starts nothing during a shutdown. -/
theorem perform_effects : ∀ (d : Deed) (seq : Nat) (a : Action) (l : Launch), a.deed = d →
    a.Every p → (d.startsWork → l.context.shuttingDown = false) → seq < l.journal.size →
    Effects p l (perform seq a d l).1
  | .group bindings children, seq, a, l, hd, ha, _, _ => by
      have hevery : (Deed.group bindings children).Every p := hd ▸ Action.every_iff.mp ha
      rw [perform]
      split
      · exact .refl
      · rw [ofChildren_fst]
        exact asGroup_effects fun m => activateChildren_effects children m hevery.2
  | .splice source arguments required, seq, a, l, hd, ha, _, _ => by
      have hevery : (Deed.splice source arguments required).Every p :=
        hd ▸ Action.every_iff.mp ha
      rw [perform, ofChildren_fst]
      exact activateSource_effects source arguments l hevery.2
  | .compute f, seq, a, l, hd, ha, _, _ => by
      have hevery : (Deed.compute f).Every p := hd ▸ Action.every_iff.mp ha
      rw [perform, ofChildren_fst]
      exact activateYield_effects (f l.context) l (hevery.2 _)
  | .log .., _, _, _, hd, ha, hl, hs => leaf_effects rfl hd ha hl hs
  | .execute .., _, _, _, hd, ha, hl, hs => leaf_effects rfl hd ha hl hs
  | .declare _, _, _, _, hd, ha, hl, hs => leaf_effects rfl hd ha hl hs
  | .setVariable .., _, _, _, hd, ha, hl, hs => leaf_effects rfl hd ha hl hs
  | .unsetVariable _, _, _, _, hd, ha, hl, hs => leaf_effects rfl hd ha hl hs
  | .setEnv .., _, _, _, hd, ha, hl, hs => leaf_effects rfl hd ha hl hs
  | .unsetEnv _, _, _, _, hd, ha, hl, hs => leaf_effects rfl hd ha hl hs
  | .register _, _, _, _, hd, ha, hl, hs => leaf_effects rfl hd ha hl hs
  | .unregister _, _, _, _, hd, ha, hl, hs => leaf_effects rfl hd ha hl hs
  | .emit _, _, _, _, hd, ha, hl, hs => leaf_effects rfl hd ha hl hs
  | .timer .., _, _, _, hd, ha, hl, hs => leaf_effects rfl hd ha hl hs
  | .shutdown _, _, _, _, hd, ha, hl, hs => leaf_effects rfl hd ha hl hs

theorem activateSource_effects : ∀ (s : Source) (arguments : List (String × Template))
    (l : Launch), s.Every p → Effects p l (activateSource arguments s l).1
  | .inline children, arguments, l, h => by
      rw [activateSource]
      split
      · exact .refl
      · exact asGroup_effects fun m => activateChildren_effects children m h
  | .computed name f, arguments, l, h => by
      rw [activateSource]
      exact activateLoaded_effects (f l.context) name arguments l (h _)
  | .file path parse, arguments, l, h => by
      rw [activateSource]
      split
      · exact .refl
      · exact activateLoaded_effects (parse _) path arguments l (h _)

theorem activateLoaded_effects : ∀ (y : Yield) (name : String)
    (arguments : List (String × Template)) (l : Launch), y.Every p →
    Effects p l (activateLoaded name arguments y l).1
  | .failure _, _, _, _, _ => .refl
  | .interrupt, name, arguments, l, _ => by
      have hask : Effects p l l.interrupt := .single .interrupt
      rw [activateLoaded]
      split
      · exact hask
      · exact hask.trans (asGroup_effects fun m => .refl)
  | .actions children, name, arguments, l, h => by
      rw [activateLoaded]
      split
      · exact .refl
      · exact asGroup_effects fun m => activateChildren_effects children m h

theorem activateYield_effects : ∀ (y : Yield) (l : Launch), y.Every p →
    Effects p l (activateYield y l).1
  | .failure _, _, _ => .refl
  | .interrupt, _, _ => .single .interrupt
  | .actions children, l, h => activateChildren_effects children l h

theorem activateChildren_effects : ∀ (as : List Action) (l : Launch), everyDeed p as →
    Effects p l (activateChildren as l).1
  | [], l, _ => .refl
  | a :: rest, l, h => by
      have hfirst := activate_effects a l h.1
      rw [activateChildren]
      split
      · rename_i heq
        rw [heq] at hfirst
        -- The child ended the list; its later siblings are recorded and no more.
        exact hfirst.trans (skipAll_effects _ _ _)
      · rename_i heq
        rw [heq] at hfirst
        exact hfirst.trans (activateChildren_effects rest _ h.2)

end

theorem activateAll_effects {as : List Action} (h : ∀ a ∈ as, a.Every p) (l : Launch) :
    Effects p l (activateAll as l) := by
  induction as generalizing l with
  | nil => exact .refl
  | cons a rest ih =>
      have hrest := ih (fun b hb => h b (List.mem_cons_of_mem a hb)) (activate a l).1
      exact (activate_effects a l (h a List.mem_cons_self)).trans hrest

end Launch

end Conductor
