import Conductor.Proofs.Launch.Stride
import Conductor.Proofs.Launch.Upkeep

/-!
# The handles of processes

A handle carries the name and the mode of output that its process was started with. Nothing that
happens to it later changes them, so they can be read off the history as long as the handle is
there, and also once it has been released (`Launch.Named`).
-/

namespace Conductor

/-- The handle that was given up. -/
def Occurrence.released? : Occurrence → Option ProcessHandle
  | .released g => some g
  | _ => none

namespace Launch

variable {p : Deed → Prop} {l m : Launch}

/-- A process was started whose name and mode of output the handle has. -/
def AskedFor (l : Launch) (g : ProcessHandle) : Prop :=
  ∃ spec, .started g.id spec ∈ l.history ∧ g.name = spec.name ∧ g.output = spec.output

/-- Every handle, released or not, is that of a process that was started as it says. -/
structure Named (l : Launch) : Prop where
  handle : ∀ k g, l.supervisor.handles.get? k = some g → l.AskedFor g
  released : ∀ g, .released g ∈ l.history → l.AskedFor g

theorem AskedFor.mono {g g' : ProcessHandle} {os : List Occurrence} (hg : l.AskedFor g)
    (hos : m.history = os ++ l.history) (hid : g'.id = g.id) (hname : g'.name = g.name)
    (hout : g'.output = g.output) : m.AskedFor g' := by
  obtain ⟨spec, hs, hn, ho⟩ := hg
  refine ⟨spec, ?_, hname.trans hn, hout.trans ho⟩
  rw [hos, hid]
  exact List.mem_append_right os hs

/-- Handles come from handles of the same name and mode. -/
theorem Named.keep (hl : l.Named) {os : List Occurrence} (hos : m.history = os ++ l.history)
    (hreleased : ∀ g, .released g ∈ os → ∃ k, l.supervisor.handles.get? k = some g)
    (hh : ∀ k g, m.supervisor.handles.get? k = some g →
      ∃ k' g', l.supervisor.handles.get? k' = some g' ∧
        g.id = g'.id ∧ g.name = g'.name ∧ g.output = g'.output) : m.Named where
  handle := by
    intro k g hg
    obtain ⟨k', g', hg', hid, hname, hout⟩ := hh k g hg
    exact (hl.handle k' g' hg').mono hos hid hname hout
  released := by
    intro g hg
    rw [hos] at hg
    rcases List.mem_append.mp hg with hnew | hold
    · obtain ⟨k, hk⟩ := hreleased g hnew
      exact (hl.handle k g hk).mono hos rfl rfl rfl
    · exact (hl.released g hold).mono hos rfl rfl rfl

/-- The handles are the same, and none was released. -/
theorem Named.keepAll (hl : l.Named) {os : List Occurrence} (hos : m.history = os ++ l.history)
    (hnone : ∀ g, .released g ∉ os) (hs : m.supervisor.handles = l.supervisor.handles) :
    m.Named := by
  refine hl.keep hos (fun g hg => absurd hg (hnone g)) fun k g hg => ?_
  rw [hs] at hg
  exact ⟨k, g, hg, rfl, rfl, rfl⟩

theorem Named.same (hl : l.Named) (hh : m.history = l.history)
    (hs : m.supervisor.handles = l.supervisor.handles) : m.Named := by
  have hos : m.history = [] ++ l.history := hh
  exact hl.keepAll hos (by simp) hs

theorem Named.cons (hl : l.Named) {o : Occurrence} (ho : o.released? = none)
    (hh : m.history = o :: l.history) (hs : m.supervisor.handles = l.supervisor.handles) :
    m.Named := by
  have hos : m.history = [o] ++ l.history := hh
  refine hl.keepAll hos (fun g hg => ?_) hs
  rw [← List.mem_singleton.mp hg] at ho
  cases ho

theorem Named.happen (hl : l.Named) {o : Occurrence} (ho : o.released? = none) :
    (l.happen o).Named :=
  hl.cons ho rfl rfl

/-- A handle is put in place of one of the same name and mode. -/
theorem Named.update (hl : l.Named) (os : List Occurrence) (hos : m.history = os ++ l.history)
    (hnone : ∀ g, .released g ∉ os) {k : Nat} {g g' : ProcessHandle}
    (hg : l.supervisor.handles.get? k = some g)
    (hsame : g'.id = g.id ∧ g'.name = g.name ∧ g'.output = g.output) {k' : Nat}
    (hs : m.supervisor.handles = l.supervisor.handles.insert k' g') : m.Named := by
  refine hl.keep hos (fun h hh => absurd hh (hnone h)) fun i h hh => ?_
  rw [hs, Table.get?_insert] at hh
  split at hh
  · cases hh
    exact ⟨k, g, hg, hsame⟩
  · exact ⟨i, h, hh, rfl, rfl, rfl⟩

/-- A process is started under the name and with the mode that were asked for. -/
theorem Named.start (hl : l.Named) (os : List Occurrence) (hos : m.history = os ++ l.history)
    (hnone : ∀ g, .released g ∉ os) {k : Nat} {g : ProcessHandle} {spec : ProcessSpec}
    (hspec : .started g.id spec ∈ os) (hname : g.name = spec.name)
    (hout : g.output = spec.output)
    (hs : m.supervisor.handles = l.supervisor.handles.insert k g) : m.Named where
  handle := by
    intro i h hh
    rw [hs, Table.get?_insert] at hh
    split at hh
    · cases hh
      refine ⟨spec, ?_, hname, hout⟩
      rw [hos]
      exact List.mem_append_left _ hspec
    · exact (hl.handle i h hh).mono hos rfl rfl rfl
  released := by
    intro h hh
    rw [hos] at hh
    exact (hl.released h ((List.mem_append.mp hh).resolve_left (hnone h))).mono hos rfl rfl rfl

/-! ## Around deeds -/

/-- Effects of which no deed is the cause start no process. -/
theorem Named.effect (hl : l.Named) (h : Effect (fun _ => False) l m) : m.Named := by
  have heffects : Effects (fun _ => False) l m := .single h
  obtain ⟨os, hos, hq⟩ := heffects.grown.history
  have hnone : ∀ g, .released g ∉ os := fun g hg => by cases hq _ hg
  cases h with
  | spawn spec seq a t onExit h hid hh hl hd ha hseq => exact (Action.every_iff.mp ha).self.elim
  | mark id g signal sent hf ha hw =>
      refine hl.update os hos hnone hf ?_ rfl
      cases signal with
      | terminate => exact ⟨rfl, rfl, rfl⟩
      | kill => exact ⟨rfl, rfl, rfl⟩
  | _ => exact hl.keepAll hos hnone rfl

theorem Named.effects (hl : l.Named) (h : Effects (fun _ => False) l m) : m.Named := by
  induction h with
  | refl => exact hl
  | tail _ hlast ih => exact ih.effect hlast

theorem Named.enter (hl : l.Named) (a : Action) : (l.enter a).2.Named :=
  hl.effect (.enter a)

theorem Named.admitted (hl : l.Named) {a : Action} (ha : l.Admits a m) : m.Named := by
  have hgated := (hl.enter a).effects (gate_effects (l.enter a).2 l.journal.size a).1
  unfold Admits at ha
  rw [ha] at hgated
  exact hgated

/-! ## Deeds without children -/

/-- A process that is started has a handle with the name and the mode that were asked for. -/
theorem startProcess_asked {l' : Launch} {spec : ProcessSpec} {h : ProcessHandle}
    (hs : l.startProcess spec = (.ok h, l')) : h.name = spec.name ∧ h.output = spec.output := by
  unfold startProcess Supervisor.spawn at hs
  dsimp only at hs
  cases hstart : l.context.host.start ⟨l.supervisor.nextId⟩ spec with
  | ok pid =>
      rw [hstart] at hs
      cases (Prod.mk.inj hs).1
      exact ⟨rfl, rfl⟩
  | error e =>
      rw [hstart] at hs
      cases e with
      | notFound => cases (Prod.mk.inj hs).1
      | refused => cases (Prod.mk.inj hs).1

theorem Named.execute (hl : l.Named) (seq : Nat) (a : Action) (t : ProcessTemplate)
    (onExit : List Action) : (l.execute seq a t onExit).1.Named := by
  have hattempt : ({ l with attempts := l.attempts + 1 } : Launch).Named :=
    hl.same rfl rfl
  unfold Launch.execute
  split
  · exact hl
  · dsimp only
    split
    · exact hattempt
    · rename_i spec _
      split
      · rename_i hs
        rw [startProcess_error hs]
        exact hattempt.same rfl rfl
      · rename_i h l' hs
        obtain ⟨hname, hout⟩ := startProcess_asked hs
        obtain ⟨-, -, rfl⟩ := startProcess_ok hs
        obtain ⟨r, -, -, -, -, heq⟩ :=
          (({ l with attempts := l.attempts + 1 } : Launch).withStarted h spec).attend_eq seq a
            onExit spec.name h
        rw [heq]
        exact hattempt.start [_, _, .started h.id spec] rfl (by simp) (by simp) hname hout
          rfl

/-- Only a deed that starts a process touches the processes. -/
theorem supervisor_performLeaf (l : Launch) (seq : Nat) (a : Action) {d : Deed}
    (hd : ∀ t onExit, d ≠ .execute t onExit) :
    (l.performLeaf seq a d).1.supervisor = l.supervisor := by
  cases d with
  | log level message =>
      rw [performLeaf]
      split <;> rfl
  | execute t onExit => exact absurd rfl (hd t onExit)
  | declare argument =>
      rw [performLeaf]
      split
      · rfl
      · split <;> rfl
  | setVariable target name value =>
      rw [performLeaf]
      split
      · rfl
      · split <;> rfl
  | setEnv name value =>
      rw [performLeaf]
      split <;> rfl
  | timer period children cancelOnShutdown =>
      rw [performLeaf]
      split
      · rfl
      · split <;> rfl
  | shutdown reason =>
      rw [performLeaf]
      split
      · rfl
      · unfold requestShutdown
        by_cases hf : l.context.shuttingDown = true
        · rw [if_pos hf]
          rfl
        · rw [if_neg hf]
          rfl
  | _ => rfl

theorem Named.performLeaf (hl : l.Named) (seq : Nat) (a : Action) (d : Deed) :
    (l.performLeaf seq a d).1.Named := by
  by_cases hd : ∃ t onExit, d = .execute t onExit
  · obtain ⟨t, onExit, rfl⟩ := hd
    exact hl.execute seq a t onExit
  · obtain ⟨os, hos, hq⟩ := history_performLeaf l seq a d
    have hsame := supervisor_performLeaf l seq a (d := d) fun t onExit h => hd ⟨t, onExit, h⟩
    refine hl.keepAll hos (fun g hg => ?_) (congrArg _ hsame)
    cases hq _ hg

/-! ## Between strides -/

theorem upheld_named : Upheld fun _ l => l.Named where
  refused := by
    intro os l m a outcome hl hgate
    have hgated := (hl.enter a).effects (gate_effects (l.enter a).2 l.journal.size a).1
    rw [hgate] at hgated
    exact hgated.happen rfl
  leaf := by
    intro os l m a hl hadmits hleaf
    rw [activate_of_admits hadmits, perform_eq, if_pos hleaf]
    have hdone := (hl.admitted hadmits).performLeaf l.journal.size a a.deed
    exact hdone.effects (leave_effects _ (settle_effects _ _ .refl))
  admitted hl hadmits _ := hl.admitted hadmits
  asked := by
    intro os l d hl
    have hheard : ∀ y, (l.heard y).Named := by
      intro y
      unfold heard
      split
      · exact hl.effect .interrupt
      · exact hl
    unfold asked
    split
    · exact hheard _
    · exact hheard _
    · exact hl
  performed := by
    intro os seq m d failure hl
    refine hl.effects (leave_effects _ (settle_effects _ _ ?_))
    rw [ofChildren_fst]
  skipAll as why hl := hl.effects (skipAll_effects as why _)
  beginGroup hl := hl.effect (.regroup _)
  endGroup failure hl := hl.effects (endGroup_effects failure _)
  inScope scope hl := hl.same rfl rfl
  restore depth hl := hl.same rfl rfl

theorem Named.activateBody (hl : l.Named) (cause : BodyCause) (as : List Action)
    (scope : Option Scope) : (Launch.activateBody cause as scope l).Named :=
  @Upheld.activateBody _ upheld_named [] l cause as scope (hl.happen rfl)

theorem Named.releaseProcess (hl : l.Named) (id : ProcessId) : (l.releaseProcess id).Named := by
  rcases l.releaseProcess_cases id with ⟨-, h⟩ | ⟨g, hg, -, h⟩
  · rw [h]
    exact hl.same rfl rfl
  · rw [h]
    refine @Named.keep l _ hl [.released g] rfl ?_ ?_
    · intro g' hg'
      cases List.mem_singleton.mp hg'
      exact ⟨id.number, hg⟩
    · intro k g' hg'
      exact ⟨k, g', Table.get?_of_get?_erase hg', rfl, rfl, rfl⟩

/-- What a notice changes of a handle is neither its name nor its mode. -/
theorem Named.absorb (hl : l.Named) {n : Notice} {s : Supervisor}
    (hs : l.supervisor.absorb? n = some s) : ({ l with supervisor := s } : Launch).Named := by
  rcases l.supervisor.absorb?_cases n with
      ⟨-, hn⟩ | ⟨g, hg, ⟨_, status, _, -, hu⟩ | ⟨_, _, _, -, ⟨captured, hu⟩ | ⟨shown, hu⟩⟩⟩
  · cases hs.symm.trans hn
  · cases hs.symm.trans hu
    refine hl.update [] rfl (by simp) hg ?_ rfl
    exact ⟨rfl, rfl, rfl⟩
  · cases hs.symm.trans hu
    refine hl.update [] rfl (by simp) hg ?_ rfl
    exact ⟨rfl, rfl, rfl⟩
  · cases hs.symm.trans hu
    exact hl.same rfl rfl

theorem Named.emit (hl : l.Named) (e : Event) : (l.emit e).Named :=
  hl.cons (o := .emitted e) rfl rfl rfl

theorem Named.onNotice (hl : l.Named) (n : Notice) : (l.onNotice n).Named := by
  rcases l.onNotice_cases n with
    ⟨-, h⟩ | ⟨s, hs, ⟨-, h⟩ | ⟨r, -, ⟨_, _, _, -, h⟩ | ⟨_, status, fault, -, h⟩⟩⟩
  · rw [h]
    exact hl
  · rw [h]
    exact hl.absorb hs
  · rw [h]
    exact (hl.absorb hs).emit _
  · obtain ⟨k, hk, hend⟩ :=
      processEnded_effects (p := fun _ => False) { l with supervisor := s } r status fault
    rw [h, hend]
    exact ((hl.absorb hs).effects hk).emit _

theorem Named.elapse (hl : l.Named) (id : Nat) (t : Timer) : (l.elapse id t).Named := by
  have hfired : ({ l with timers := l.timers.erase id }.happen (.fired id)).Named :=
    hl.cons (o := .fired id) rfl rfl rfl
  unfold Launch.elapse
  dsimp only
  split
  · exact hfired
  · exact (hfired.effect (.advance _ .completed)).emit _

/-- **A stride leaves the handles named.** -/
theorem Named.stride (hl : l.Named) (h : Stride p l m) : m.Named := by
  have hwriter : ∀ h writer, (l.withWriter h writer).Named := fun h writer =>
    hl.same rfl rfl
  cases h with
  | describe as _ has => exact @Upheld.activateAll _ upheld_named [] l as hl
  | take e rest hp hc hs => exact hl.cons (o := .dispatched e) rfl rfl rfl
  | ignore e rest hp hc he hs => exact hl.cons (o := .ignored e) rfl rfl rfl
  | interrupt e hc => exact hl.effect .interrupt
  | answer e h writer as hc hf hm hy has => exact (hwriter h writer).activateBody _ _ _
  | decline e h writer err hc hf hm hy => exact (hwriter h writer).effect (report_effect _ err)
  | close e hc hs he => exact hl.cons (o := .turnEnded e) rfl rfl rfl
  | release q status r hc hr =>
      have hclosed : (l.closeTurn (.processExited q status)).Named :=
        hl.cons (o := .turnEnded (.processExited q status)) rfl rfl rfl
      exact hclosed.releaseProcess q.id
  | respawn r hc hf ha => exact hl.activateBody _ _ _
  | postpone r delay hc hf ha => exact hl.cons (o := .scheduled l.nextTimer _) rfl rfl rfl
  | shutdown reason due hc hb =>
      obtain ⟨deadline, heffects⟩ := beginShutdown_effects (p := fun _ => False) hb
      have hclosed : (l.closeTurn (.shutdownRequested reason due)).Named :=
        hl.cons (o := .turnEnded (.shutdownRequested reason due)) rfl rfl rfl
      have hbegun : ((l.closeTurn (.shutdownRequested reason due)).withShutdown reason
          deadline).Named :=
        hclosed.cons (o := .shutdownBegan reason) rfl rfl rfl
      exact hbegun.effects heffects
  | arrive a hc hp hn ht => exact hl.cons (o := .received a.message) rfl rfl rfl
  | request reason due hc hf =>
      exact hl.cons (o := .emitted (.shutdownRequested reason due)) rfl rfl rfl
  | notice a n hc hp ha =>
      have harrived : (l.arrive a).Named := hl.cons (o := .received a.message) rfl rfl rfl
      exact harrived.onNotice n
  | fire a id t hc hp ha ht has =>
      have harrived : (l.arrive a).Named := hl.cons (o := .received a.message) rfl rfl rfl
      exact (harrived.elapse id t).activateBody _ _ _
  | kill hc hp hs =>
      rcases killRemaining_effects (p := fun _ => False) l with h | h
      · rw [h]
        exact hl
      · have hforced : ({ l with forced := true } : Launch).Named :=
          hl.same rfl rfl
        exact hforced.effects h

/-- **Between two strides the handles are named as their processes were asked for.** -/
theorem named_of_strides {config : Config} {host : Host} {args : LaunchArguments}
    (h : Strides p (start config host args) l) : l.Named := by
  induction h with
  | refl => exact ⟨by simp [start, Supervisor.start], by simp [start]⟩
  | tail _ hlast ih => exact ih.stride hlast

end Launch

end Conductor
