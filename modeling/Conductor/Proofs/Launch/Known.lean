import Conductor.Proofs.Launch.Origin
import Conductor.Proofs.Launch.Writes

/-!
# Records that are still known

A timer and a process stand under the record of the action that they come from, until they are
over. Such a record has been opened in every state of a launch, also in the middle of an
activation: whatever leaves nothing for later adds no timer and no process
(`Launch.addsNothing_of_moves`), and what a deed leaves stands under its own record
(`Launch.KnowsRecords.performLeaf`).
-/

namespace Conductor

namespace Launch

/-- The records under which timers and processes stand have been opened. -/
structure KnowsRecords (l : Launch) : Prop where
  timers : ∀ id t k, l.timers.get? id = some t → t.record = some k → k < l.journal.size
  processes : ∀ id r, l.processes.get? id = some r → r.record < l.journal.size

variable {p : Deed → Prop} {l m n : Launch}

/-! ## What leaves nothing for later -/

/-- Nothing that is left for later is new on the history. -/
abbrev LeavesNothing : Launch → Launch → Prop :=
  Leaves fun _ _ => False

theorem LeavesNothing.leftBy (h : l.LeavesNothing m) (os : List Occurrence)
    (hos : m.history = os ++ l.history) : ∀ o ∈ os, o.LeftBy fun _ _ => False := by
  obtain ⟨os', hos', hleft⟩ := h
  rw [hos] at hos'
  rw [(List.append_inj' hos' rfl).1]
  exact hleft

/-- No timer and no process is new, and no record is lost. -/
structure AddsNothing (l m : Launch) : Prop where
  size : l.journal.size ≤ m.journal.size
  timers : ∀ i t, m.timers.get? i = some t → l.timers.get? i = some t
  processes : ∀ i r, m.processes.get? i = some r → l.processes.get? i = some r
  history : l.history <:+ m.history

theorem AddsNothing.refl (l : Launch) : l.AddsNothing l :=
  ⟨Nat.le_refl _, fun _ _ => id, fun _ _ => id, List.suffix_rfl⟩

theorem AddsNothing.trans (h : l.AddsNothing m) (h' : m.AddsNothing n) : l.AddsNothing n :=
  ⟨Nat.le_trans h.size h'.size, fun i t ht => h.timers i t (h'.timers i t ht),
    fun i r hr => h.processes i r (h'.processes i r hr), h.history.trans h'.history⟩

/-- What happens on the way leaves nothing if the whole leaves nothing. -/
theorem LeavesNothing.split (h : l.LeavesNothing n) (hl : l.history <:+ m.history)
    (hm : m.history <:+ n.history) : l.LeavesNothing m ∧ m.LeavesNothing n := by
  obtain ⟨os, hos⟩ := hl
  obtain ⟨os', hos'⟩ := hm
  have hleft := h.leftBy (os' ++ os) (by rw [← hos', ← hos, List.append_assoc])
  exact ⟨⟨os, hos.symm, fun o ho => hleft o (List.mem_append_right os' ho)⟩,
    ⟨os', hos'.symm, fun o ho => hleft o (List.mem_append_left os ho)⟩⟩

theorem addsNothing_of_same (hj : m.journal = l.journal) (ht : m.timers = l.timers)
    (hp : m.processes = l.processes) (hh : l.history <:+ m.history) : l.AddsNothing m := by
  refine ⟨Nat.le_of_eq (congrArg Journal.size hj).symm, fun i t h => ?_, fun i r h => ?_, hh⟩
  · rw [← ht]
    exact h
  · rw [← hp]
    exact h

theorem addsNothing_of_cons {o : Occurrence} (hj : m.journal = l.journal)
    (ht : m.timers = l.timers) (hp : m.processes = l.processes)
    (hh : m.history = o :: l.history) : l.AddsNothing m :=
  addsNothing_of_same hj ht hp (hh ▸ List.suffix_cons o l.history)

theorem KnowsRecords.keep (hl : l.KnowsRecords) (h : l.AddsNothing m) : m.KnowsRecords where
  timers i t k ht hk := Nat.lt_of_lt_of_le (hl.timers i t k (h.timers i t ht) hk) h.size
  processes i r hr := Nat.lt_of_lt_of_le (hl.processes i r (h.processes i r hr)) h.size

theorem Effect.addsNothing (h : Effect p l m) (hq : l.LeavesNothing m) : l.AddsNothing m := by
  have hsize := h.size_le
  have hhistory := hq.suffix_history
  cases h with
  | cancelTimer why i t ht =>
      exact ⟨hsize, fun _ _ => Table.get?_of_get?_erase, fun _ _ => id, hhistory⟩
  | schedule delay as scope record cancel _ _ =>
      obtain ⟨-, -, hnone, -⟩ := hq.leftBy [.scheduled l.nextTimer _] rfl _
        List.mem_cons_self
      exact hnone.elim
  | spawn spec seq a t onExit h _ _ _ _ _ _ =>
      obtain ⟨r, -, -, -, -, heq⟩ := (l.withStarted h spec).attend_eq seq a onExit spec.name h
      rw [heq] at hq
      obtain ⟨-, hnone, -⟩ := hq.leftBy [.kept r _, _, .started h.id spec] rfl _
        List.mem_cons_self
      exact hnone.elim
  | _ => exact ⟨hsize, fun _ _ => id, fun _ _ => id, hhistory⟩

theorem suffix_of_effects (h : Effects p l m) : l.history <:+ m.history := by
  obtain ⟨os, hos, -⟩ := h.grown.history
  exact ⟨os, hos.symm⟩

theorem Effects.addsNothing (h : Effects p l m) (hq : l.LeavesNothing m) : l.AddsNothing m := by
  induction h with
  | refl => exact .refl l
  | tail hbefore hlast ih =>
      obtain ⟨hfirst, hthen⟩ := hq.split (suffix_of_effects hbefore)
        (suffix_of_effects (.single hlast))
      exact (ih hfirst).trans (Effect.addsNothing hlast hthen)

/-- A process that is given up is gone. -/
theorem addsNothing_givenUp (l : Launch) (q : ProcessInfo) (status : ExitStatus) :
    l.AddsNothing (l.givenUp q status) := by
  have hturn : l.AddsNothing (l.closeTurn (.processExited q status)) :=
    addsNothing_of_cons (o := .turnEnded (.processExited q status)) rfl rfl rfl rfl
  refine hturn.trans ?_
  unfold givenUp
  rcases (l.closeTurn (.processExited q status)).releaseProcess_cases q.id with
    ⟨-, heq⟩ | ⟨g, -, -, heq⟩
  · rw [heq]
    exact ⟨Nat.le_refl _, fun _ _ => id, fun _ _ => Table.get?_of_get?_erase, List.suffix_rfl⟩
  · rw [heq]
    exact ⟨Nat.le_refl _, fun _ _ => id, fun _ _ => Table.get?_of_get?_erase,
      List.suffix_cons (Occurrence.released g) _⟩

/-- Before its effects a move adds nothing. -/
theorem exists_effects (h : Move p l m) : ∃ k q, l.AddsNothing k ∧ Effects q k m := by
  have hdone : l.AddsNothing m → ∃ k q, l.AddsNothing k ∧ Effects q k m := fun hadds =>
    ⟨m, p, hadds, .refl⟩
  cases h with
  | effect h => exact ⟨l, p, .refl l, .single h⟩
  | take e rest hp hc hs =>
      exact hdone (addsNothing_of_cons (o := .dispatched e) rfl rfl rfl rfl)
  | ignore e rest hp hc he hs =>
      exact hdone (addsNothing_of_cons (o := .ignored e) rfl rfl rfl rfl)
  | answer e h writer as hc hf hm hy has =>
      exact hdone (addsNothing_of_cons (o := .began (.handler h.id) as h.handler.scope)
        rfl rfl rfl rfl)
  | decline e h writer hc hf hm hy =>
      exact hdone (addsNothing_of_same rfl rfl rfl List.suffix_rfl)
  | resume cause as scope hcause has =>
      exact hdone (addsNothing_of_cons (o := .began cause as scope) rfl rfl rfl rfl)
  | close e hc hs he =>
      exact hdone (addsNothing_of_cons (o := .turnEnded e) rfl rfl rfl rfl)
  | release q status r hc hr => exact hdone (addsNothing_givenUp l q status)
  | shutdown reason due hc hb =>
      obtain ⟨deadline, heffects⟩ := beginShutdown_effects (p := p) hb
      have hturn : l.AddsNothing (l.closeTurn (.shutdownRequested reason due)) :=
        addsNothing_of_cons (o := .turnEnded (.shutdownRequested reason due)) rfl rfl rfl rfl
      refine ⟨_, _, hturn.trans ?_, heffects⟩
      exact addsNothing_of_cons (o := .shutdownBegan reason) rfl rfl rfl rfl
  | arrive a hc hp ha =>
      exact hdone (addsNothing_of_cons (o := .received a.message) rfl rfl rfl rfl)
  | notice a n hc hp ha =>
      obtain ⟨s, -, heffects⟩ := (l.arrive a).onNotice_effects n
      refine ⟨_, _, ?_, heffects⟩
      exact addsNothing_of_cons (o := .received a.message) rfl rfl rfl rfl
  | elapse i t hc hp ht =>
      refine ⟨_, _, ?_, l.elapse_effects i t⟩
      exact ⟨Nat.le_refl _, fun _ _ => Table.get?_of_get?_erase, fun _ _ => id,
        List.suffix_cons (Occurrence.fired i) _⟩
  | kill hc hp hs =>
      rcases l.killRemaining_effects (p := p) with heq | heffects
      · rw [heq]
        exact ⟨l, p, .refl l, .refl⟩
      · refine ⟨_, _, ?_, heffects⟩
        exact addsNothing_of_same rfl rfl rfl List.suffix_rfl

theorem suffix_of_move (h : Move p l m) : l.history <:+ m.history := by
  obtain ⟨k, q, hadds, heffects⟩ := exists_effects h
  exact hadds.history.trans (suffix_of_effects heffects)

theorem suffix_of_moves (h : Moves p l m) : l.history <:+ m.history := by
  induction h with
  | refl => exact List.suffix_rfl
  | tail _ hlast ih => exact ih.trans (suffix_of_move hlast)

/-- **What leaves nothing for later adds no timer and no process.** -/
theorem addsNothing_of_moves (h : Moves p l m) (hq : l.LeavesNothing m) : l.AddsNothing m := by
  induction h with
  | refl => exact .refl l
  | tail hbefore hlast ih =>
      obtain ⟨hfirst, hthen⟩ := hq.split (suffix_of_moves hbefore) (suffix_of_move hlast)
      obtain ⟨k, q, hadds, heffects⟩ := exists_effects hlast
      obtain ⟨-, hrest⟩ := hthen.split hadds.history (suffix_of_effects heffects)
      exact ((ih hfirst).trans hadds).trans (Effects.addsNothing heffects hrest)

/-! ## Activations -/

theorem KnowsRecords.aside (hl : l.KnowsRecords) (h : Effects p l m) (ha : l.Aside m) :
    m.KnowsRecords :=
  hl.keep (Effects.addsNothing h ha.leaves)

theorem KnowsRecords.schedule (hl : l.KnowsRecords) (delay : Duration) (as : List Action)
    (scope : Scope) {record : Option Nat} (cancel : Bool)
    (hr : ∀ k, record = some k → k < l.journal.size) :
    (l.schedule delay as scope record cancel).KnowsRecords where
  timers := by
    intro id t k ht hk
    change (l.timers.insert l.nextTimer _).get? id = some t at ht
    rw [Table.get?_insert] at ht
    split at ht
    · cases ht
      exact hr k hk
    · exact hl.timers id t k ht hk
  processes := hl.processes

theorem KnowsRecords.execute (hl : l.KnowsRecords) {seq : Nat} (hseq : seq < l.journal.size)
    (a : Action) (t : ProcessTemplate) (onExit : List Action) :
    (l.execute seq a t onExit).1.KnowsRecords := by
  unfold Launch.execute
  split
  · exact hl
  · dsimp only
    split
    · exact ⟨hl.timers, hl.processes⟩
    · rename_i spec _
      split
      · rename_i hs
        rw [startProcess_error hs]
        exact ⟨hl.timers, hl.processes⟩
      · rename_i h m hs
        obtain ⟨-, -, rfl⟩ := startProcess_ok hs
        obtain ⟨r, hr, -, -, -, heq⟩ :=
          (({ l with attempts := l.attempts + 1 } : Launch).withStarted h spec).attend_eq seq a
            onExit spec.name h
        have hsize : (l.journal.note seq ("pid " ++ toString h.pid)).size = l.journal.size :=
          l.journal.size_note seq _
        rw [heq]
        refine ⟨fun id t k ht hk => ?_, fun id r' hr' => ?_⟩
        · exact Nat.lt_of_lt_of_eq (hl.timers id t k ht hk) hsize.symm
        · change (l.processes.insert h.id.number r).get? id = some r' at hr'
          rw [Table.get?_insert] at hr'
          refine Nat.lt_of_lt_of_eq ?_ hsize.symm
          split at hr'
          · cases hr'
            rw [hr]
            exact hseq
          · exact hl.processes id r' hr'

/-- What a deed without children leaves for later stands under the record of its action. -/
theorem KnowsRecords.performLeaf (hl : l.KnowsRecords) {seq : Nat}
    (hseq : seq < l.journal.size) {a : Action} (hleaf : a.deed.isLeaf = true)
    (hwork : a.deed.startsWork → l.context.shuttingDown = false) :
    (l.performLeaf seq a a.deed).1.KnowsRecords := by
  by_cases htimer : ∃ period as cancel, a.deed = .timer period as cancel
  · obtain ⟨period, as, cancel, hd⟩ := htimer
    rw [hd, Launch.performLeaf]
    split
    · exact hl
    · split
      · exact hl
      · refine hl.schedule _ _ _ _ fun k hk => ?_
        cases hk
        exact hseq
  · by_cases hexecute : ∃ t onExit, a.deed = .execute t onExit
    · obtain ⟨t, onExit, hd⟩ := hexecute
      rw [hd]
      exact hl.execute hseq a t onExit
    · -- Every other deed leaves nothing for later.
      obtain ⟨os, hos, hleft⟩ := leaves_performLeaf l seq a hleaf
      have hnothing : l.LeavesNothing (l.performLeaf seq a a.deed).1 := by
        refine ⟨os, hos, fun o ho => ?_⟩
        have ho := hleft o ho
        cases o with
        | scheduled id t =>
            obtain ⟨b, k, ⟨rfl, -⟩, hs⟩ := ho
            obtain ⟨period, cancel, hd⟩ := hs.deed
            exact absurd ⟨period, t.actions, cancel, hd⟩ htimer
        | kept r w =>
            obtain ⟨k, ⟨rfl, -⟩, hs⟩ := ho
            exact absurd hs.deed hexecute
        | began cause as scope => exact ho
        | _ => trivial
      have heffects : Effects (fun _ => True) l (l.performLeaf seq a a.deed).1 :=
        performLeaf_effects rfl (a.every_of_forall fun _ => trivial) hwork hseq
      exact hl.keep (Effects.addsNothing heffects hnothing)

theorem KnowsRecords.enter (hl : l.KnowsRecords) (a : Action) : (l.enter a).2.KnowsRecords :=
  hl.keep (Effect.addsNothing (p := fun _ => True) (.enter a)
    (leaves_of_cons (o := .entered l.journal.size a) rfl trivial))

theorem KnowsRecords.leave (hl : l.KnowsRecords) (seq : Nat) (outcome : Outcome) :
    (l.happen (.left seq outcome)).KnowsRecords :=
  ⟨hl.timers, hl.processes⟩

theorem KnowsRecords.gate (hl : l.KnowsRecords) (seq : Nat) (a : Action) :
    (l.gate seq a).1.KnowsRecords :=
  hl.aside (gate_effects (p := fun _ => True) l seq a).1 (aside_gate l seq a)

theorem KnowsRecords.settle {x : Launch × Performed} (hl : x.1.KnowsRecords) (seq : Nat)
    (d : Deed) : (Launch.settle seq d x).1.KnowsRecords :=
  hl.aside (settle_effects (p := fun _ => True) seq d .refl) (aside_settle seq d x)

/-- **The records that timers and processes stand under stay known**, also in the middle of an
activation. -/
theorem upheld_knowsRecords : Upheld fun _ l => l.KnowsRecords where
  refused := by
    intro os l m a outcome hl hgate
    have hm := (hl.enter a).gate l.journal.size a
    rw [hgate] at hm
    exact hm.leave _ _
  leaf := by
    intro os l m a hl ha hleaf
    have hm := (hl.enter a).gate l.journal.size a
    obtain ⟨-, hwork⟩ := gate_effects (p := fun _ => True) (l.enter a).2 l.journal.size a
    have hsize := ha.size_lt
    unfold Admits at ha
    rw [ha] at hm hwork
    rw [activate_of_admits ha, perform_eq, if_pos hleaf]
    exact ((hm.performLeaf hsize hleaf (hwork rfl)).settle _ _).leave _ _
  admitted := by
    intro os l m a hl ha _
    have hm := (hl.enter a).gate l.journal.size a
    unfold Admits at ha
    rw [ha] at hm
    exact hm
  asked := by
    intro os l d hl
    have hheard (y : Yield) : (l.heard y).KnowsRecords := by
      unfold heard
      split
      · exact ⟨hl.timers, hl.processes⟩
      · exact hl
    unfold asked
    split
    · exact hheard _
    · exact hheard _
    · exact hl
  performed := by
    intro os seq m d failure hl
    refine KnowsRecords.leave (KnowsRecords.settle ?_ seq d) seq _
    rw [ofChildren_fst]
    exact hl
  skipAll as why hl :=
    hl.aside (skipAll_effects (p := fun _ => True) as why _) (aside_skipAll _ as why)
  beginGroup hl := ⟨hl.timers, hl.processes⟩
  endGroup failure hl :=
    hl.aside (endGroup_effects (p := fun _ => True) failure _) (aside_endGroup _ failure)
  inScope scope hl := ⟨hl.timers, hl.processes⟩
  restore depth hl := ⟨hl.timers, hl.processes⟩

end Launch

/-! ## Along a course -/

variable {config : Config} {host : Host} {args : LaunchArguments} {description : List Action}
  {bs : List Beginning} {s t : Phase} {b : Beginning} {l m : Launch}

namespace Launch

theorem knowsRecords_start (config : Config) (host : Host) (args : LaunchArguments) :
    (start config host args).KnowsRecords where
  timers id t k ht := by cases ht
  processes id r hr := by cases hr

end Launch

/-- Between two bodies no timer and no process is added. -/
theorem Phase.Begins.addsNothing {p : Deed → Prop} (hl : l.Sound p) (hfits : s.Fits l)
    (hb : s.Begins l b t) : l.AddsNothing b.launch := by
  have hleaves := hb.steady.leaves
  cases hb with
  | @answer _ m e writer id ids g as hf hy hm ha =>
      rcases hm with rfl | rfl
      · exact Launch.addsNothing_of_same rfl rfl rfl List.suffix_rfl
      · exact Launch.addsNothing_of_cons (o := .interrupted) rfl rfl rfl rfl
  | @restart _ q status writer r delay hr hd hz => exact Launch.addsNothing_givenUp l q status
  | @fire _ a id t hp hi ha ht =>
      have harrive : Move p l (l.arrive a) := by
        refine .arrive a hfits hp fun n hn => ?_
        rw [ha] at hn
        cases hn
      exact Launch.addsNothing_of_moves (.head harrive (.single (.elapse id t hfits hp ht))) hleaves

namespace Course

/-- What is known when a body begins is known when its first action is activated, and when it is
over. -/
theorem knowsRecords_body (h : Course config host args description bs s l)
    (hl : l.KnowsRecords) (hb : s.Begins l b t) :
    b.opened.KnowsRecords ∧ b.closed.KnowsRecords := by
  have hleads := h.leadsTo (Action.every_true description)
  have hsound := (Launch.sound_start config host args).strides hleads.strides
  have hbegun := hl.keep (hb.addsNothing hsound hleads.fits)
  exact Launch.upheld_knowsRecords.body [] ⟨hbegun.timers, hbegun.processes⟩

/-- **Along a course timers and processes stand under records that have been opened.** -/
theorem knowsRecords (h : Course config host args description bs s l) : l.KnowsRecords := by
  induction h with
  | begin =>
      exact @Launch.Upheld.activateAll _ Launch.upheld_knowsRecords [] _ description
        (Launch.knowsRecords_start config host args)
  | pass hbefore hp ih =>
      rcases hp.steady_or with hsteady | ⟨q, status, r, delay, -, rfl⟩
      · have hleads := hbefore.leadsTo (Action.every_true description)
        have hsound := (Launch.sound_start config host args).strides hleads.strides
        have hmoves := (hp.leadsTo hsound hleads.fits).strides.moves
        exact ih.keep (Launch.addsNothing_of_moves hmoves hsteady.leaves)
      · -- A process that waits to be started again stands under no record.
        have hgiven := ih.keep (Launch.addsNothing_givenUp _ q status)
        exact hgiven.schedule delay [r.action] r.scope true fun k hk => by cases hk
  | body hbefore hb ih => exact (hbefore.knowsRecords_body ih hb).2

/-- The same holds wherever children are activated in the description or in a body. -/
theorem knowsRecords_opens (h : Course config host args description bs s l) {a : Action}
    {children : List Action} {k : Launch} (hm : HasPerformed config host args description bs a m)
    (ho : m.opens a.deed = some (children, k)) : k.KnowsRecords := by
  have hreached {as : List Action} {n : Launch} (hn : n.KnowsRecords)
      (hr : BodyReaches as n a m) : k.KnowsRecords := by
    obtain ⟨os, l', hl', ha⟩ := @Launch.Upheld.bodyReaches _ Launch.upheld_knowsRecords [] _ _ _ _
      hr hn
    exact @Launch.Upheld.opens _ Launch.upheld_knowsRecords os _ _ _ _ _ ha ho hl'
  rcases hm with hr | ⟨body, hbody, hr⟩
  · exact hreached (Launch.knowsRecords_start config host args) hr
  · obtain ⟨later, earlier, hbs⟩ := List.append_of_mem hbody
    obtain ⟨s', l', t', hbefore, hbegins⟩ := h.exists_begins hbs
    exact hreached (hbefore.knowsRecords_body hbefore.knowsRecords hbegins).1 hr

end Course

end Conductor
