import Conductor.Proofs.Launch.Chronicle
import Conductor.Proofs.Launch.Siblings

/-!
# Stretches of history

Records are numbered, and every number is given once. So what stands on the history between the
beginning and the end of an activation with one number is the course of one activation, in the
launch as it was at the beginning (`Filed`). What is proved of activations is carried over to the
history of a whole run in this way, at whatever depth they stand on it.
-/

namespace Conductor

namespace Launch

/-- The stretch of history is what one activation put there. -/
def Retraces (g : Nat) (a : Action) (outcome : Outcome) (during older : List Occurrence) : Prop :=
  ∃ k : Launch, k.history = older ∧ k.journal.size = g ∧ (activate a k).2 = outcome ∧
    (activate a k).1.history = .left g outcome :: (during ++ .entered g a :: older)

/-- Activations stand on the history under numbers that were given, and as a whole. -/
structure Filed (l : Launch) : Prop where
  numbers : ∀ g a, .entered g a ∈ l.history → g < l.journal.size
  stretches : ∀ newer during older g a outcome,
    l.history = newer ++ .left g outcome :: (during ++ .entered g a :: older) →
      Retraces g a outcome during older

/-- Between the two launches activations were put on the history as they are filed. -/
structure Files (l m : Launch) : Prop where
  size : l.journal.size ≤ m.journal.size
  history : ∃ os, m.history = os ++ l.history ∧ ∀ g a, .entered g a ∈ os → l.journal.size ≤ g
  filed : l.Filed → m.Filed

variable {l m n : Launch}

theorem Files.refl (l : Launch) : l.Files l :=
  ⟨Nat.le_refl _, ⟨[], rfl, by simp⟩, id⟩

theorem Files.trans (h : l.Files m) (h' : m.Files n) : l.Files n := by
  obtain ⟨os, hos, hnew⟩ := h.history
  obtain ⟨os', hos', hnew'⟩ := h'.history
  refine ⟨Nat.le_trans h.size h'.size, ⟨os' ++ os, ?_, ?_⟩, fun hl => h'.filed (h.filed hl)⟩
  · rw [hos', hos, List.append_assoc]
  · intro g a hg
    rcases List.mem_append.mp hg with hg | hg
    · exact Nat.le_trans h.size (hnew' g a hg)
    · exact hnew g a hg

/-- Where no activation begins or is over, nothing is filed. -/
theorem Continues.files (h : l.Continues m) (hsize : l.journal.size ≤ m.journal.size) :
    l.Files m := by
  obtain ⟨os, hos, hq⟩ := h
  have hnone : ∀ o ∈ os, ∀ g a, o ≠ .entered g a := by
    rintro o ho g a rfl
    cases hq _ ho
  refine ⟨hsize, ⟨os, hos, fun g a hg => absurd rfl (hnone _ hg g a)⟩, fun hl => ⟨?_, ?_⟩⟩
  · intro g a hg
    rw [hos] at hg
    have hold := (List.mem_append.mp hg).resolve_left fun hnew => hnone _ hnew g a rfl
    exact Nat.lt_of_lt_of_le (hl.numbers g a hold) hsize
  · intro newer during older g a outcome hsplit
    rw [hos] at hsplit
    have hleft : .left g outcome ∉ os := by
      intro hmem
      cases hq _ hmem
    obtain ⟨rest, -, hold⟩ := split_of_not_mem hsplit hleft
    exact hl.stretches rest during older g a outcome hold

theorem files_of_same (hh : m.history = l.history) (hj : m.journal.size = l.journal.size) :
    l.Files m :=
  (continues_of_same hh).files (Nat.le_of_eq hj.symm)

theorem files_of_cons {o : Occurrence} (ho : o.marksActivation = false)
    (hh : m.history = o :: l.history) (hj : m.journal.size = l.journal.size) : l.Files m :=
  (continues_of_cons ho hh).files (Nat.le_of_eq hj.symm)

theorem files_enter (l : Launch) (a : Action) : l.Files (l.enter a).2 := by
  have hsize : (l.enter a).2.journal.size = l.journal.size + 1 := l.journal.size_enter a
  have hhistory : (l.enter a).2.history = .entered l.journal.size a :: l.history := rfl
  refine ⟨by omega, ⟨[.entered l.journal.size a], hhistory, ?_⟩, fun hl => ⟨?_, ?_⟩⟩
  · intro g b hg
    cases List.mem_singleton.mp hg
    exact Nat.le_refl _
  · intro g b hg
    rw [hhistory] at hg
    rcases List.mem_cons.mp hg with heq | hold
    · cases heq
      omega
    · have hlt := hl.numbers g b hold
      omega
  · intro newer during older g b outcome hsplit
    rw [hhistory] at hsplit
    rcases split_of_cons hsplit with ⟨-, heq, -⟩ | ⟨rest, -, hold⟩
    · cases heq
    · exact hl.stretches rest during older g b outcome hold

/-- An activation is filed with all that happened in its course. -/
theorem files_of_leave {a : Action} {x : Launch × Outcome}
    (hx : (l.enter a).2.Files x.1) (ha : activate a l = leave l.journal.size x) :
    l.Files (activate a l).1 := by
  have hthere := (files_enter l a).trans hx
  obtain ⟨os, hos, hnew⟩ := hx.history
  have hsize : (l.enter a).2.journal.size = l.journal.size + 1 := l.journal.size_enter a
  have hinside : x.1.history = os ++ .entered l.journal.size a :: l.history := hos
  have hhistory : (activate a l).1.history = .left l.journal.size x.2 :: x.1.history := by
    rw [ha]
    rfl
  have hjournal : (activate a l).1.journal = x.1.journal := by
    rw [ha]
    rfl
  refine ⟨?_, ?_, fun hl => ⟨?_, ?_⟩⟩
  · rw [hjournal]
    exact hthere.size
  · obtain ⟨os', hos', hnew'⟩ := hthere.history
    refine ⟨.left l.journal.size x.2 :: os', by rw [hhistory, hos']; rfl, fun g b hg => ?_⟩
    exact hnew' g b (by simpa using hg)
  · intro g b hg
    rw [hhistory] at hg
    rw [hjournal]
    exact (hthere.filed hl).numbers g b (by simpa using hg)
  · intro newer during older g b outcome hsplit
    rw [hhistory] at hsplit
    rcases split_of_cons hsplit with ⟨-, heq, hcourse⟩ | ⟨rest, -, hold⟩
    · cases heq
      have hretraced : (activate a l).1.history =
          .left l.journal.size x.2 :: (during ++ .entered l.journal.size b :: older) := by
        rw [hhistory, hcourse]
      -- The number was given once, so the beginning is the one just before the stretch.
      rw [hinside] at hcourse
      rcases split_of_append hcourse with ⟨rest, -, hrest⟩ | ⟨rest, hrest, -⟩
      · rcases split_of_cons hrest with ⟨-, heq, hold⟩ | ⟨rest', -, hold⟩
        · cases heq
          exact ⟨l, hold, rfl, by rw [ha]; rfl, hretraced⟩
        · have hbefore : .entered l.journal.size b ∈ l.history := by
            rw [hold]
            exact List.mem_append_cons_self
          exact absurd (hl.numbers _ b hbefore) (Nat.lt_irrefl _)
      · have hlater : .entered l.journal.size b ∈ os := by
          rw [hrest]
          exact List.mem_append_cons_self
        have hle := hnew _ b hlater
        omega
    · exact (hthere.filed hl).stretches rest during older g b outcome hold

/-! ## Whole activations -/

theorem files_gate (l : Launch) (seq : Nat) (a : Action) : l.Files (l.gate seq a).1 :=
  (aside_gate l seq a).continues.files (gate_effects (p := fun _ => True) l seq a).1.size_le

theorem files_settle (seq : Nat) (d : Deed) (x : Launch × Performed) :
    x.1.Files (settle seq d x).1 :=
  (aside_settle seq d x).continues.files
    (settle_effects (p := fun _ => True) seq d (x := x) .refl).size_le

theorem files_skipAll (l : Launch) (as : List Action) (why : String) :
    l.Files (l.skipAll as why) :=
  (aside_skipAll l as why).continues.files
    (skipAll_effects (p := fun _ => True) as why l).size_le

theorem files_asked (l : Launch) (d : Deed) : l.Files (l.asked d) := by
  have hheard : ∀ y, (l.heard y).journal = l.journal := by
    intro y
    unfold heard
    split <;> rfl
  refine (aside_asked l d).continues.files (Nat.le_of_eq (congrArg Journal.size ?_))
  unfold asked
  split
  · exact (hheard _).symm
  · exact (hheard _).symm
  · rfl

theorem files_asGroup {scope : Scope} {f : Launch → Launch × Option LaunchError}
    (hf : (l.beginGroup.inScope scope).Files (f (l.beginGroup.inScope scope)).1) :
    l.Files (l.asGroup scope f).1 := by
  rw [asGroup_eq]
  have hbegin : l.Files (l.beginGroup.inScope scope) := files_of_same rfl rfl
  have hback : ∀ n : Launch,
      n.Files { n with context := n.context.restore l.context.depth } := fun n =>
    files_of_same rfl rfl
  have hend : ∀ (n : Launch) failure, n.Files (n.endGroup failure) := fun n failure =>
    (aside_endGroup n failure).continues.files
      (endGroup_effects (p := fun _ => True) failure n).size_le
  exact ((hbegin.trans hf).trans (hback _)).trans (hend _ _)

theorem activateChildren_files {as : List Action}
    (has : ∀ a ∈ as, ∀ l : Launch, l.Files (activate a l).1) (l : Launch) :
    l.Files (activateChildren as l).1 := by
  induction as generalizing l with
  | nil =>
      rw [activateChildren_nil]
      exact .refl l
  | cons a rest ih =>
      obtain ⟨ha, hrest⟩ := List.forall_mem_cons.mp has
      cases hesc : (activate a l).2.escalates with
      | true =>
          obtain ⟨reason, hreason⟩ := exists_reason_of_escalates hesc
          rw [activateChildren_of_escalates hreason rest]
          exact (ha l).trans (files_skipAll _ _ _)
      | false =>
          rw [activateChildren_of_not_escalates hesc rest]
          exact (ha l).trans (ih hrest _)

/-- A leaf marks no activation, and a plan is carried out through its children. -/
theorem perform_files {a : Action} (seq : Nat) (m : Launch)
    (hchildren : ∀ c, ∀ b ∈ (a.deed.plan c).children, ∀ l : Launch, l.Files (activate b l).1)
    (hsize : m.journal.size ≤ (perform seq a a.deed m).1.journal.size) :
    m.Files (perform seq a a.deed m).1 := by
  rw [perform_eq] at hsize ⊢
  split
  · rename_i hleaf
    rw [if_pos hleaf] at hsize
    exact (continues_performLeaf m seq a a.deed).files hsize
  · rw [ofChildren_fst]
    have hasked := files_asked m a.deed
    have hall := hchildren m.context
    cases hplan : a.deed.plan m.context with
    | direct => exact hasked
    | refused e => exact hasked
    | here children =>
        rw [hplan] at hall
        exact hasked.trans (activateChildren_files hall _)
    | inside scope children =>
        rw [hplan] at hall
        exact hasked.trans (files_asGroup (activateChildren_files hall _))

/-- What stands between the opening of the record of an activation and its end. -/
theorem exists_leave {a : Action}
    (hchildren : ∀ c, ∀ b ∈ (a.deed.plan c).children, ∀ l : Launch, l.Files (activate b l).1)
    (l : Launch) : ∃ x : Launch × Outcome, (l.enter a).2.Files x.1 ∧
      activate a l = leave l.journal.size x := by
  have hgate := files_gate (l.enter a).2 l.journal.size a
  obtain ⟨-, hwork⟩ := gate_effects (p := fun _ => True) (l.enter a).2 l.journal.size a
  have hactivate := activate_eq a l
  cases hopen : (l.enter a).2.gate l.journal.size a with
  | mk m refused =>
      rw [hopen] at hgate hwork hactivate
      cases refused with
      | some outcome => exact ⟨(m, outcome), hgate, hactivate⟩
      | none =>
          have hopened : l.journal.size < m.journal.size := by
            have hsize : (l.enter a).2.journal.size = l.journal.size + 1 := l.journal.size_enter a
            have hle : (l.enter a).2.journal.size ≤ m.journal.size := hgate.size
            omega
          have hperform := perform_effects a.deed l.journal.size a m rfl
            (a.every_of_forall fun _ => trivial) (hwork rfl) hopened
          exact ⟨_, (hgate.trans (perform_files _ m hchildren hperform.size_le)).trans
            (files_settle _ _ _), hactivate⟩

/-- **Every activation is filed as a whole.** -/
theorem activate_files : ∀ (a : Action) (l : Launch), l.Files (activate a l).1 := by
  apply Action.plan_induction
  intro a hchildren l
  obtain ⟨x, hx, ha⟩ := exists_leave hchildren l
  exact files_of_leave hx ha

/-- An activation puts its beginning, its course and its end on the history. -/
theorem exists_retraces (a : Action) (l : Launch) : ∃ during,
    (activate a l).1.history = .left l.journal.size (activate a l).2 ::
        (during ++ .entered l.journal.size a :: l.history) ∧
      Retraces l.journal.size a (activate a l).2 during l.history := by
  obtain ⟨x, hx, ha⟩ := exists_leave (fun _ b _ k => activate_files b k) l
  obtain ⟨during, hduring, -⟩ := hx.history
  have hhistory : (activate a l).1.history = .left l.journal.size (activate a l).2 ::
      (during ++ .entered l.journal.size a :: l.history) := by
    rw [ha]
    exact congrArg _ hduring
  exact ⟨during, hhistory, l, rfl, rfl, rfl, hhistory⟩

/-- Every body is filed. -/
theorem activateAll_files (as : List Action) (l : Launch) : l.Files (activateAll as l) := by
  induction as generalizing l with
  | nil => exact .refl l
  | cons a rest ih => exact (activate_files a l).trans (ih (activate a l).1)

theorem activateBody_files (cause : BodyCause) (as : List Action) (scope : Option Scope)
    (l : Launch) : l.Files (activateBody cause as scope l) := by
  have hbegun : l.Files (l.happen (.began cause as scope)) := files_of_cons rfl rfl rfl
  unfold activateBody
  cases scope with
  | none => exact hbegun.trans (activateAll_files as _)
  | some scope =>
      have hpush : (l.happen (.began cause as (some scope))).Files
          ((l.happen (.began cause as (some scope))).inScope scope) := files_of_same rfl rfl
      have hbody := activateAll_files as ((l.happen (.began cause as (some scope))).inScope scope)
      exact ((hbegun.trans hpush).trans hbody).trans (files_of_same rfl rfl)

/-! ## Whole runs -/

theorem files_report (l : Launch) (e : LaunchError) : l.Files (l.report e) :=
  (aside_report l e).continues.files (report_effect (p := fun _ => True) l e).size_le

theorem files_sendSignal (signal : Signal) (id : ProcessId) (l : Launch) :
    l.Files (l.sendSignal signal id) := by
  have hsent : ∀ s, l.Files { l with supervisor := s } := fun s => files_of_same rfl rfl
  unfold sendSignal
  split
  · exact (hsent _).trans (files_of_cons rfl rfl rfl)
  · exact hsent _
  · exact (hsent _).trans (files_report _ _)

theorem files_signalLive (signal : Signal) (l : Launch) : l.Files (l.signalLive signal) := by
  unfold signalLive
  generalize l.supervisor.live = ids
  induction ids generalizing l with
  | nil => exact .refl l
  | cons id rest ih => exact (files_sendSignal signal id l).trans (ih _)

theorem files_cancelTimers (why : String) (ids : List Nat) (l : Launch) :
    l.Files (l.cancelTimers why ids) :=
  (aside_cancelTimers why ids l).continues.files
    (cancelTimers_effects (p := fun _ => True) why ids l).size_le

theorem files_releaseProcess (l : Launch) (id : ProcessId) : l.Files (l.releaseProcess id) := by
  rcases l.releaseProcess_cases id with ⟨-, h⟩ | ⟨g, -, -, h⟩
  · rw [h]
    exact files_of_same rfl rfl
  · rw [h]
    exact files_of_cons (o := .released g) rfl rfl rfl

theorem files_onNotice (l : Launch) (n : Notice) : l.Files (l.onNotice n) := by
  have htaken : ∀ s, l.Files { l with supervisor := s } := fun s => files_of_same rfl rfl
  rcases l.onNotice_cases n with
    ⟨-, h⟩ | ⟨s, -, ⟨-, h⟩ | ⟨r, -, ⟨_, _, _, -, h⟩ | ⟨_, status, fault, -, h⟩⟩⟩
  · rw [h]
    exact .refl l
  · rw [h]
    exact htaken s
  · rw [h]
    exact (htaken s).trans (files_of_cons rfl rfl rfl)
  · rw [h]
    have hfault : ∀ m : Launch, m.Files (m.reportFault r.info.name fault) := by
      intro m
      cases fault with
      | none => exact .refl m
      | some text => exact files_report m _
    have hnoted : ∀ m : Launch,
        m.Files ((m.note r.record status.text).advance r.record .completed) := fun m =>
      files_of_same rfl ((m.note r.record status.text).journal.size_advance _ _ |>.trans
        (m.journal.size_note _ _))
    exact (((htaken s).trans (hfault _)).trans (hnoted _)).trans (files_of_cons rfl rfl rfl)

theorem files_elapse (l : Launch) (id : Nat) (t : Timer) : l.Files (l.elapse id t) := by
  have htaken : l.Files ({ l with timers := l.timers.erase id }.happen (.fired id)) :=
    files_of_cons rfl rfl rfl
  unfold elapse
  dsimp only
  split
  · exact htaken
  · exact htaken.trans (files_of_cons rfl rfl (Journal.size_advance _ _ _))

end Launch

variable {p : Deed → Prop} {l m : Launch}

/-- In a stride activations are filed as a whole. -/
theorem Stride.files (h : Stride p l m) : l.Files m := by
  have hclose : ∀ e, l.Files (l.closeTurn e) := fun e =>
    Launch.files_of_cons (o := .turnEnded e) rfl rfl rfl
  have harrive : ∀ a, l.Files (l.arrive a) := fun a =>
    Launch.files_of_cons (o := .received a.message) rfl rfl rfl
  cases h with
  | describe as _ has => exact Launch.activateAll_files as l
  | take e rest hp hc hs => exact Launch.files_of_cons (o := .dispatched e) rfl rfl rfl
  | ignore e rest hp hc he hs => exact Launch.files_of_cons (o := .ignored e) rfl rfl rfl
  | interrupt e hc => exact Launch.files_of_cons (o := .interrupted) rfl rfl rfl
  | answer e h writer as hc hf hm hy has =>
      have hwriter : l.Files (l.withWriter h writer) := Launch.files_of_same rfl rfl
      exact hwriter.trans (Launch.activateBody_files _ _ _ _)
  | decline e h writer err hc hf hm hy =>
      have hwriter : l.Files (l.withWriter h writer) := Launch.files_of_same rfl rfl
      exact hwriter.trans (Launch.files_report _ _)
  | close e hc hs he => exact hclose e
  | release q status r hc hr => exact (hclose _).trans (Launch.files_releaseProcess _ _)
  | respawn r hc hf ha => exact Launch.activateBody_files _ _ _ _
  | postpone r delay hc hf ha =>
      exact Launch.files_of_cons (o := .scheduled l.nextTimer _) rfl rfl rfl
  | shutdown reason due hc hb =>
      obtain ⟨deadline, -, rfl⟩ := Launch.beginShutdown_eq hb
      have hbegun : (l.closeTurn (.shutdownRequested reason due)).Files
          ((l.closeTurn (.shutdownRequested reason due)).withShutdown reason deadline) :=
        Launch.files_of_cons (o := .shutdownBegan reason) rfl rfl rfl
      exact (((hclose _).trans hbegun).trans (Launch.files_cancelTimers _ _ _)).trans
        (Launch.files_signalLive _ _)
  | arrive a hc hp hn ht => exact harrive a
  | request reason due hc hf =>
      exact Launch.files_of_cons (o := .emitted (.shutdownRequested reason due)) rfl rfl rfl
  | notice a n hc hp ha => exact (harrive a).trans (Launch.files_onNotice _ n)
  | fire a id t hc hp ha ht has =>
      exact ((harrive a).trans (Launch.files_elapse _ id t)).trans
        (Launch.activateBody_files _ _ _ _)
  | kill hc hp hs =>
      have hforced : l.Files { l with forced := true } := Launch.files_of_same rfl rfl
      unfold Launch.killRemaining
      split
      · exact .refl l
      · exact hforced.trans (Launch.files_signalLive _ _)

/-- **On the history of a run every stretch between the beginning and the end of an activation is
the course of one activation.** -/
theorem Launch.filed_of_strides {config : Config} {host : Host} {args : LaunchArguments}
    (h : Strides p (.start config host args) l) : l.Filed := by
  have hfiles : (Launch.start config host args).Files l := by
    induction h with
    | refl => exact .refl _
    | tail _ hlast ih => exact ih.trans hlast.files
  exact hfiles.filed ⟨by simp [Launch.start], by simp [Launch.start]⟩

end Conductor
