import Conductor.Proofs.Launch.Pieces

/-!
# What activations keep up

Some things hold of a launch as long as it knows which activations are going on in it: their
records are running, nothing else closes them, and what is said of them is said last. `Upheld`
lists what such a property must bear with, one field for each piece of an activation, with the
records of the activations that are going on, innermost first. It is then kept by whole
activations (`Upheld.activate`), and it holds wherever a deed is performed in their course
(`Upheld.reaches`).
-/

namespace Conductor

/-- Whether a deed without children can put this on the history. -/
def Occurrence.isOfDeed : Occurrence → Bool
  | .line .. => true
  | .emitted _ => true
  | .started .. => true
  | .kept .. => true
  | .unregistered _ => true
  | .scheduled .. => true
  | _ => false

namespace Launch

/-! ## Pieces of an activation -/

/-- The gate asks the condition of the action, if it has one, and then lets the action through,
skips it, or fails because the condition cannot be decided. -/
theorem gate_cases (l : Launch) (seq : Nat) (a : Action) :
    ∃ n, (n = l ∨ n = l.advance seq .evaluatingCondition) ∧
      (l.gate seq a = ((n.advance seq .activated).advance seq .running, none) ∨
        l.gate seq a = (n.advance seq .skipped, some .skipped) ∨
        l.gate seq a = ((n.advance seq .skipped).note seq "shutdown in progress", some .skipped) ∨
        ∃ e, l.gate seq a = ((n.fail seq a.deed e).1, some (n.fail seq a.deed e).2)) := by
  unfold gate
  cases a.condition with
  | none =>
      refine ⟨l, .inl rfl, ?_⟩
      dsimp only
      split
      · exact .inr (.inr (.inl rfl))
      · exact .inl rfl
  | some c =>
      refine ⟨_, .inr rfl, ?_⟩
      dsimp only
      cases l.context.decide c with
      | error e => exact .inr (.inr (.inr ⟨e, rfl⟩))
      | ok b =>
          cases b with
          | false => exact .inr (.inl rfl)
          | true =>
              dsimp only
              split
              · exact .inr (.inr (.inl rfl))
              · exact .inl rfl

/-- An action that is let through finds the launch as it was, but for its record. -/
theorem Admits.cases {l m : Launch} {a : Action} (h : l.Admits a m) :
    ∃ n, (n = (l.enter a).2 ∨ n = (l.enter a).2.advance l.journal.size .evaluatingCondition) ∧
      m = (n.advance l.journal.size .activated).advance l.journal.size .running := by
  obtain ⟨n, hn, hgate⟩ := gate_cases (l.enter a).2 l.journal.size a
  refine ⟨n, hn, ?_⟩
  unfold Admits at h
  rcases hgate with hg | hg | hg | ⟨e, hg⟩ <;> rw [h] at hg
  · exact congrArg Prod.fst hg
  · cases congrArg Prod.snd hg
  · cases congrArg Prod.snd hg
  · cases congrArg Prod.snd hg

theorem Admits.context {l m : Launch} {a : Action} (h : l.Admits a m) : m.context = l.context := by
  obtain ⟨n, rfl | rfl, rfl⟩ := h.cases
  · rfl
  · rfl

theorem Admits.history {l m : Launch} {a : Action} (h : l.Admits a m) :
    m.history = .entered l.journal.size a :: l.history := by
  obtain ⟨n, rfl | rfl, rfl⟩ := h.cases
  · rfl
  · rfl

theorem history_execute_isOfDeed (l : Launch) (seq : Nat) (a : Action) (t : ProcessTemplate)
    (onExit : List Action) : ∃ os, (l.execute seq a t onExit).1.history = os ++ l.history ∧
      ∀ o ∈ os, o.isOfDeed = true := by
  unfold execute
  split
  · exact ⟨[], rfl, by simp⟩
  · dsimp only
    split
    · exact ⟨[], rfl, by simp⟩
    · rename_i spec _
      split
      · rename_i hs
        rw [startProcess_error hs]
        exact ⟨[], rfl, by simp⟩
      · rename_i h l' hs
        obtain ⟨-, -, rfl⟩ := startProcess_ok hs
        obtain ⟨r, -, -, -, -, heq⟩ :=
          (({ l with attempts := l.attempts + 1 } : Launch).withStarted h spec).attend_eq seq a
            onExit spec.name h
        rw [heq]
        exact ⟨[_, _, .started h.id spec], rfl, by simp [Occurrence.isOfDeed]⟩

/-- **A deed without children puts little on the history.** -/
theorem history_performLeaf (l : Launch) (seq : Nat) (a : Action) (d : Deed) :
    ∃ os, (l.performLeaf seq a d).1.history = os ++ l.history ∧ ∀ o ∈ os, o.isOfDeed = true := by
  have hnone : ∀ {m : Launch}, m.history = l.history →
      ∃ os, m.history = os ++ l.history ∧ ∀ o ∈ os, o.isOfDeed = true := fun hm =>
    ⟨[], hm, by simp⟩
  have hone : ∀ {m : Launch} {o : Occurrence}, o.isOfDeed = true → m.history = o :: l.history →
      ∃ os, m.history = os ++ l.history ∧ ∀ o ∈ os, o.isOfDeed = true := fun ho hm =>
    ⟨[_], hm, by simpa using ho⟩
  cases d with
  | log level message =>
      rw [performLeaf]
      split
      · exact hnone rfl
      · exact hone (o := .line level _) rfl rfl
  | execute t onExit => exact history_execute_isOfDeed l seq a t onExit
  | declare argument =>
      rw [performLeaf]
      split
      · exact hnone rfl
      · split <;> exact hnone rfl
  | setVariable target name value =>
      rw [performLeaf]
      split
      · exact hnone rfl
      · split <;> exact hnone rfl
  | setEnv name value =>
      rw [performLeaf]
      split <;> exact hnone rfl
  | unregister name => exact hone (o := .unregistered name) rfl rfl
  | emit e => exact hone (o := .emitted e) rfl rfl
  | timer period children cancel =>
      rw [performLeaf]
      split
      · exact hnone rfl
      · split
        · exact hnone rfl
        · exact hone (o := .scheduled l.nextTimer _) rfl rfl
  | shutdown reason =>
      rw [performLeaf]
      split
      · exact hnone rfl
      · unfold requestShutdown
        by_cases hf : l.context.shuttingDown = true
        · rw [if_pos hf]
          exact hnone rfl
        · rw [if_neg hf]
          exact hone (o := .emitted (.shutdownRequested _ false)) rfl rfl
  | unsetVariable | unsetEnv | register => exact hnone rfl
  | group | splice | compute => exact hnone rfl

/-! ## From pieces to activations -/

/-- What a property of launches must bear with to be kept by activations. -/
structure Upheld (I : List Nat → Launch → Prop) : Prop where
  /-- An action that is not let through is over at once. -/
  refused : ∀ {os l m a outcome}, I os l →
    (l.enter a).2.gate l.journal.size a = (m, some outcome) →
    I os (m.happen (.left l.journal.size outcome))
  /-- A deed without children is over before anything else begins. -/
  leaf : ∀ {os l m a}, I os l → l.Admits a m → a.deed.isLeaf = true → I os (activate a l).1
  admitted : ∀ {os l m a}, I os l → l.Admits a m → a.deed.isLeaf = false →
    I (l.journal.size :: os) m
  asked : ∀ {os l} d, I os l → I os (l.asked d)
  /-- A deed with children is done, or has failed. -/
  performed : ∀ {os seq m} d failure, I (seq :: os) m →
    I os (leave seq (settle seq d (ofChildren (m, failure)))).1
  skipAll : ∀ {os l} as why, I os l → I os (l.skipAll as why)
  beginGroup : ∀ {os l}, I os l → I os l.beginGroup
  endGroup : ∀ {os l} failure, I os l → I os (l.endGroup failure)
  inScope : ∀ {os l} scope, I os l → I os (l.inScope scope)
  restore : ∀ {os l} depth, I os l → I os { l with context := l.context.restore depth }

namespace Upheld

variable {I : List Nat → Launch → Prop} (hI : Upheld I) {os : List Nat} {l m : Launch}
include hI

theorem asGroup {scope : Scope} {f : Launch → Launch × Option LaunchError}
    (hf : ∀ n, I os n → I os (f n).1) (h : I os l) : I os (l.asGroup scope f).1 := by
  rw [asGroup_eq]
  exact hI.endGroup _ (hI.restore _ (hf _ (hI.inScope scope (hI.beginGroup h))))

theorem activateChildren_of {as : List Action}
    (has : ∀ a ∈ as, ∀ os l, I os l → I os (Launch.activate a l).1) (h : I os l) :
    I os (Launch.activateChildren as l).1 := by
  induction as generalizing l with
  | nil =>
      rw [activateChildren_nil]
      exact h
  | cons a rest ih =>
      obtain ⟨ha, hrest⟩ := List.forall_mem_cons.mp has
      have hfirst := ha os l h
      cases hesc : (Launch.activate a l).2.escalates with
      | true =>
          obtain ⟨reason, hreason⟩ := exists_reason_of_escalates hesc
          rw [activateChildren_of_escalates hreason rest]
          exact hI.skipAll rest _ hfirst
      | false =>
          rw [activateChildren_of_not_escalates hesc rest]
          exact ih hrest hfirst

theorem follow_of {plan : Plan}
    (has : ∀ a ∈ plan.children, ∀ os l, I os l → I os (Launch.activate a l).1) (h : I os l) :
    I os (l.follow plan).1 := by
  cases plan with
  | direct => exact h
  | refused e => exact h
  | here children => exact hI.activateChildren_of has h
  | inside scope children => exact hI.asGroup (fun n hn => hI.activateChildren_of has hn) h

/-- **What the pieces keep up, whole activations keep up.** -/
theorem activate : ∀ (a : Action) (os : List Nat) (l : Launch), I os l →
    I os (Launch.activate a l).1 := by
  apply Action.plan_induction
  intro a hchildren os l h
  cases hgate : (l.enter a).2.gate l.journal.size a with
  | mk m refused =>
      cases refused with
      | some outcome =>
          rw [activate_eq, hgate]
          exact hI.refused h hgate
      | none =>
          have hadmits : l.Admits a m := hgate
          cases hleaf : a.deed.isLeaf with
          | true => exact hI.leaf h hadmits hleaf
          | false =>
              have hopen := hI.asked a.deed (hI.admitted h hadmits hleaf)
              have hdone := hI.follow_of (hchildren m.context) hopen
              rw [activate_of_admits hadmits, perform_eq, hleaf, if_neg Bool.false_ne_true]
              exact hI.performed a.deed _ hdone

theorem activateChildren (as : List Action) (h : I os l) :
    I os (Launch.activateChildren as l).1 :=
  hI.activateChildren_of (fun a _ os l => hI.activate a os l) h

theorem activateAll (as : List Action) (h : I os l) : I os (Launch.activateAll as l) := by
  induction as generalizing l with
  | nil => exact h
  | cons a rest ih => exact ih (hI.activate a os l h)

/-- A body is activated once it is noted that it begins. -/
theorem activateBody {cause : BodyCause} {as : List Action} {scope : Option Scope}
    (h : I os (l.happen (.began cause as scope))) :
    I os (Launch.activateBody cause as scope l) := by
  cases scope with
  | none => exact hI.activateAll as h
  | some scope => exact hI.restore _ (hI.activateAll as (hI.inScope scope h))

/-- The children of a deed that is performed find kept up what its admission left. -/
theorem opens {a : Action} {k : Launch} {children : List Action} (ha : l.Admits a m)
    (ho : m.opens a.deed = some (children, k)) (h : I os l) : I (l.journal.size :: os) k := by
  have hleaf : a.deed.isLeaf = false := by
    rw [Bool.eq_false_iff]
    intro hleaf
    rw [Launch.opens, Deed.plan_of_isLeaf hleaf] at ho
    cases ho
  have hopen := hI.asked a.deed (hI.admitted h ha hleaf)
  unfold Launch.opens at ho
  split at ho
  · cases ho
  · cases ho
  · cases ho
    exact hopen
  · cases ho
    exact hI.inScope _ (hI.beginGroup hopen)

mutual

/-- **Wherever a deed is performed, it was so when its action was let through.** -/
theorem reaches {a b : Action} {os : List Nat} {l m : Launch} (hr : Reaches a l b m)
    (h : I os l) : ∃ os' k, I os' k ∧ k.Admits b m :=
  match hr with
  | .self ha => ⟨os, l, h, ha⟩
  | .child ha ho hc => childrenReach hc (hI.opens ha ho h)

theorem childrenReach {as : List Action} {b : Action} {os : List Nat} {l m : Launch}
    (hr : ChildrenReach as l b m) (h : I os l) : ∃ os' k, I os' k ∧ k.Admits b m :=
  match hr with
  | .head hr => reaches hr h
  | .tail _ hr => childrenReach hr (hI.activate _ os l h)

end

theorem bodyReaches {as : List Action} {b : Action} (hr : BodyReaches as l b m) (h : I os l) :
    ∃ os' k, I os' k ∧ k.Admits b m := by
  induction hr with
  | head hr => exact hI.reaches hr h
  | tail _ ih => exact ih (hI.activate _ os _ h)

end Upheld

end Launch

end Conductor
