import Conductor.Proofs.Launch.Pieces

/-!
# Activations on the history

The history tells of every activation when it begins and when it is over, and what begins in
between is over before. So it can be read like nested brackets: `siblings` gives the actions
that were activated one beside the other, leaving out those activated in their course. What it
gives for the activation of a list is the list (`activateAll_siblings`), or the part of it that
was come to (`activateChildren_siblings`).
-/

namespace Conductor

namespace Occurrence

/-- Whether an activation begins or is over. -/
def marksActivation : Occurrence → Bool
  | .entered .. => true
  | .left .. => true
  | _ => false

/-- The actions whose activations stand beside each other on a stretch of history, first one
first. The stretch is read from its end, inside of `depth` activations that are over. -/
def siblings : Nat → List Occurrence → List Action
  | _, [] => []
  | depth, .left _ _ :: older => siblings (depth + 1) older
  | 0, .entered _ a :: older => siblings 0 older ++ [a]
  | 1, .entered _ a :: older => siblings 0 older ++ [a]
  | depth + 2, .entered _ _ :: older => siblings (depth + 1) older
  | depth, _ :: older => siblings depth older

/-- What stands on the stretch is inside of the activation that it is part of. -/
def Nested (os : List Occurrence) : Prop :=
  ∀ depth older, siblings (depth + 1) (os ++ older) = siblings (depth + 1) older

theorem siblings_cons {o : Occurrence} (ho : o.marksActivation = false) (depth : Nat)
    (older : List Occurrence) : siblings depth (o :: older) = siblings depth older := by
  cases o with
  | entered => cases ho
  | left => cases ho
  | _ => rfl

theorem siblings_append {os : List Occurrence} (hos : ∀ o ∈ os, o.marksActivation = false)
    (depth : Nat) (older : List Occurrence) :
    siblings depth (os ++ older) = siblings depth older := by
  induction os with
  | nil => rfl
  | cons o rest ih =>
      obtain ⟨ho, hrest⟩ := List.forall_mem_cons.mp hos
      exact (siblings_cons ho depth (rest ++ older)).trans (ih hrest)

theorem Nested.append {os os' : List Occurrence} (h : Nested os) (h' : Nested os') :
    Nested (os' ++ os) := by
  intro depth older
  rw [List.append_assoc, h', h]

/-- An activation is nested in what it is part of, if all that happens in its course is in it. -/
theorem Nested.enclose {os : List Occurrence} (h : Nested os) (seq : Nat) (a : Action)
    (outcome : Outcome) : Nested (.left seq outcome :: (os ++ [.entered seq a])) := by
  intro depth older
  rw [List.cons_append, List.append_assoc]
  show siblings (depth + 1 + 1) (os ++ .entered seq a :: older) = _
  rw [h]
  rfl

theorem siblings_enclose {os : List Occurrence} (h : Nested os) (seq : Nat) (a : Action)
    (outcome : Outcome) (older : List Occurrence) :
    siblings 0 (.left seq outcome :: (os ++ [.entered seq a]) ++ older) =
      siblings 0 older ++ [a] := by
  rw [List.cons_append, List.append_assoc]
  show siblings 1 (os ++ .entered seq a :: older) = _
  rw [h]
  rfl

end Occurrence

namespace Launch

/-- No activation begins or is over between the two launches. -/
def Continues (l m : Launch) : Prop :=
  ∃ os, m.history = os ++ l.history ∧ ∀ o ∈ os, o.marksActivation = false

/-- What begins between the two launches is over in the second one. -/
def Nests (l m : Launch) : Prop :=
  ∃ os, m.history = os ++ l.history ∧ Occurrence.Nested os

/-- Between the two launches the actions were activated, one after the other. -/
def Activates (l : Launch) (as : List Action) (m : Launch) : Prop :=
  ∃ os, m.history = os ++ l.history ∧ Occurrence.Nested os ∧
    ∀ older, Occurrence.siblings 0 (os ++ older) = Occurrence.siblings 0 older ++ as

variable {l m n : Launch}

theorem Continues.refl (l : Launch) : l.Continues l :=
  ⟨[], rfl, by simp⟩

theorem Continues.trans (h : l.Continues m) (h' : m.Continues n) : l.Continues n := by
  obtain ⟨os, hos, hq⟩ := h
  obtain ⟨os', hos', hq'⟩ := h'
  refine ⟨os' ++ os, by rw [hos', hos, List.append_assoc], ?_⟩
  intro o ho
  rcases List.mem_append.mp ho with ho | ho
  · exact hq' o ho
  · exact hq o ho

theorem continues_of_same (h : m.history = l.history) : l.Continues m :=
  ⟨[], h, by simp⟩

theorem continues_of_cons {o : Occurrence} (ho : o.marksActivation = false)
    (h : m.history = o :: l.history) : l.Continues m :=
  ⟨[o], h, by simpa using ho⟩

theorem Nests.trans (h : l.Nests m) (h' : m.Nests n) : l.Nests n := by
  obtain ⟨os, hos, hq⟩ := h
  obtain ⟨os', hos', hq'⟩ := h'
  exact ⟨os' ++ os, by rw [hos', hos, List.append_assoc], hq.append hq'⟩

theorem Continues.nests (h : l.Continues m) : l.Nests m := by
  obtain ⟨os, hos, hq⟩ := h
  exact ⟨os, hos, fun depth older => Occurrence.siblings_append hq (depth + 1) older⟩

theorem Activates.nests {as : List Action} (h : l.Activates as m) : l.Nests m := by
  obtain ⟨os, hos, hn, -⟩ := h
  exact ⟨os, hos, hn⟩

theorem Activates.nil (l : Launch) : l.Activates [] l :=
  ⟨[], rfl, fun _ _ => rfl, fun _ => (List.append_nil _).symm⟩

theorem Activates.append {as bs : List Action} (h : l.Activates as m) (h' : m.Activates bs n) :
    l.Activates (as ++ bs) n := by
  obtain ⟨os, hos, hn, hs⟩ := h
  obtain ⟨os', hos', hn', hs'⟩ := h'
  refine ⟨os' ++ os, by rw [hos', hos, List.append_assoc], hn.append hn', fun older => ?_⟩
  rw [List.append_assoc, hs', hs, List.append_assoc]

theorem Activates.continue {as : List Action} (h : l.Activates as m) (h' : m.Continues n) :
    l.Activates as n := by
  obtain ⟨os, hos, hn, hs⟩ := h
  obtain ⟨os', hos', hq⟩ := h'
  refine ⟨os' ++ os, by rw [hos', hos, List.append_assoc], ?_, fun older => ?_⟩
  · exact hn.append fun depth older => Occurrence.siblings_append hq (depth + 1) older
  · rw [List.append_assoc, Occurrence.siblings_append hq, hs]

/-! ## What marks no activation -/

theorem Aside.continues (h : l.Aside m) : l.Continues m := by
  obtain ⟨os, hos, hq⟩ := h.history
  refine ⟨os, hos, fun o ho => ?_⟩
  have hincident := hq o ho
  cases o with
  | failed | emitted | interrupted | cancelled => rfl
  | _ => cases hincident

theorem continues_attend (l : Launch) (seq : Nat) (a : Action) (onExit : List Action)
    (name : String) (h : ProcessHandle) : l.Continues (l.attend seq a onExit name h) := by
  obtain ⟨r, -, -, -, -, heq⟩ := l.attend_eq seq a onExit name h
  rw [heq]
  exact ⟨[_, _], rfl, by simp [Occurrence.marksActivation]⟩

theorem continues_execute (l : Launch) (seq : Nat) (a : Action) (t : ProcessTemplate)
    (onExit : List Action) : l.Continues (l.execute seq a t onExit).1 := by
  unfold execute
  split
  · exact .refl l
  · dsimp only
    split
    · exact continues_of_same rfl
    · rename_i spec _
      split
      · rename_i hs
        rw [startProcess_error hs]
        exact continues_of_same rfl
      · rename_i h l' hs
        obtain ⟨-, -, rfl⟩ := startProcess_ok hs
        have hstarted : l.Continues (({ l with attempts := l.attempts + 1 } : Launch).withStarted
            h spec) := continues_of_cons rfl rfl
        exact hstarted.trans (continues_attend _ seq a onExit spec.name h)

/-- A deed that has no children marks no activation. -/
theorem continues_performLeaf (l : Launch) (seq : Nat) (a : Action) (d : Deed) :
    l.Continues (l.performLeaf seq a d).1 := by
  cases d with
  | log level message =>
      rw [performLeaf]
      split
      · exact .refl l
      · exact continues_of_cons rfl rfl
  | execute t onExit => exact continues_execute l seq a t onExit
  | declare argument =>
      rw [performLeaf]
      split
      · exact .refl l
      · split <;> exact continues_of_same rfl
  | setVariable target name value =>
      rw [performLeaf]
      split
      · exact .refl l
      · split <;> exact continues_of_same rfl
  | setEnv name value =>
      rw [performLeaf]
      split <;> exact continues_of_same rfl
  | unregister name => exact continues_of_cons rfl rfl
  | emit e => exact continues_of_cons rfl rfl
  | timer period children cancel =>
      rw [performLeaf]
      split
      · exact .refl l
      · split
        · exact .refl l
        · exact continues_of_cons rfl rfl
  | shutdown reason =>
      rw [performLeaf]
      split
      · exact .refl l
      · rename_i reason _
        have hask := (aside_requestShutdown l reason false).continues
        split
        · rename_i h
          rw [h] at hask
          exact hask
        · rename_i h
          rw [h] at hask
          exact hask.trans (continues_of_same rfl)
  | unsetVariable | unsetEnv | register => exact continues_of_same rfl
  | group | splice | compute => exact .refl l

/-! ## Whole activations -/

/-- What is done as the children of a group is done between two launches that nest it. -/
theorem nests_asGroup {scope : Scope} {f : Launch → Launch × Option LaunchError}
    (hf : (l.beginGroup.inScope scope).Nests (f (l.beginGroup.inScope scope)).1) :
    l.Nests (l.asGroup scope f).1 := by
  have hbegin : l.Continues (l.beginGroup.inScope scope) := continues_of_same rfl
  have hend : (f (l.beginGroup.inScope scope)).1.Continues (l.asGroup scope f).1 :=
    Continues.trans (m := (l.beginGroup.under scope f).1) (continues_of_same rfl)
      (aside_endGroup _ _).continues
  exact (hbegin.nests.trans hf).trans hend.nests

theorem activates_of_nests {a : Action} {seq : Nat} {x : Launch × Outcome}
    (hx : (l.happen (.entered seq a)).Nests x.1) : l.Activates [a] (leave seq x).1 := by
  obtain ⟨os, hos, hn⟩ := hx
  refine ⟨.left seq x.2 :: (os ++ [.entered seq a]), ?_, hn.enclose seq a x.2,
    Occurrence.siblings_enclose hn seq a x.2⟩
  show .left seq x.2 :: x.1.history = _
  rw [hos, List.cons_append, List.append_assoc]
  rfl

/-- The part of a list of children that is activated: all of it, or what stands before the first
one whose failure escalates, and that one. -/
def reached : List Action → Launch → List Action
  | [], _ => []
  | a :: rest, l =>
      if (activate a l).2.escalates then [a] else a :: reached rest (activate a l).1

theorem activateChildren_activates {as : List Action}
    (has : ∀ a ∈ as, ∀ l : Launch, l.Activates [a] (activate a l).1) (l : Launch) :
    l.Activates (reached as l) (activateChildren as l).1 := by
  induction as generalizing l with
  | nil =>
      rw [activateChildren_nil]
      exact .nil l
  | cons a rest ih =>
      obtain ⟨ha, hrest⟩ := List.forall_mem_cons.mp has
      rw [reached]
      cases hesc : (activate a l).2.escalates with
      | true =>
          obtain ⟨reason, hreason⟩ := exists_reason_of_escalates hesc
          rw [activateChildren_of_escalates hreason rest, if_pos rfl]
          exact (ha l).continue (aside_skipAll _ _ _).continues
      | false =>
          rw [activateChildren_of_not_escalates hesc rest, if_neg Bool.false_ne_true]
          exact (ha l).append (ih hrest _)

/-- **The activation of an action begins and is over, with all that happens in its course.** -/
theorem activate_activates : ∀ (a : Action) (l : Launch), l.Activates [a] (activate a l).1 := by
  apply Action.plan_induction
  intro a hchildren l
  have henter : (l.happen (.entered l.journal.size a)).Continues
      ((l.enter a).2.gate l.journal.size a).1 :=
    Continues.trans (m := (l.enter a).2) (continues_of_same rfl) (aside_gate _ _ _).continues
  rw [activate_eq]
  cases hgate : (l.enter a).2.gate l.journal.size a with
  | mk m refused =>
      rw [hgate] at henter
      cases refused with
      | some outcome => exact activates_of_nests henter.nests
      | none =>
          refine activates_of_nests (henter.nests.trans (Nests.trans ?_
            (aside_settle _ _ _).continues.nests))
          rw [perform_eq]
          split
          · exact (continues_performLeaf _ _ _ _).nests
          · rw [ofChildren_fst]
            have hasked := (aside_asked m a.deed).continues
            have hall := hchildren m.context
            cases hplan : a.deed.plan m.context with
            | direct => exact hasked.nests
            | refused e => exact hasked.nests
            | here children =>
                rw [hplan] at hall
                exact hasked.nests.trans (activateChildren_activates hall _).nests
            | inside scope children =>
                rw [hplan] at hall
                exact hasked.nests.trans
                  (nests_asGroup (activateChildren_activates hall _).nests)

/-- Every action of a body is activated, whatever becomes of those before it. -/
theorem activateAll_activates (as : List Action) (l : Launch) :
    l.Activates as (activateAll as l) := by
  induction as generalizing l with
  | nil => exact .nil l
  | cons a rest ih => exact (activate_activates a l).append (ih (activate a l).1)

/-- A body begins, and then its actions are activated, every one of them. -/
theorem activateBody_activates (cause : BodyCause) (as : List Action) (scope : Option Scope)
    (l : Launch) :
    (l.happen (.began cause as scope)).Activates as (activateBody cause as scope l) := by
  have hactivates := activateAll_activates as
  cases scope with
  | none => exact hactivates _
  | some scope => exact (hactivates ((l.happen (.began cause as (some scope))).inScope scope))

end Launch

end Conductor
