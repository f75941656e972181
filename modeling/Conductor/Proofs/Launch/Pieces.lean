import Conductor.Proofs.Arguments
import Conductor.Proofs.Launch.Effect
import Conductor.Proofs.Launch.Plan

/-!
# The pieces of an activation

An activation is put together from deeds without children, from scopes that are entered and left
again, and from what stands around them: records, reports and the timers of groups (`Surrounds`).
`Assembled` lists what a relation between the launch before and the launch after must satisfy,
piece by piece, to hold of whole activations; the relation may speak of the deeds performed in
between. `Aside` says what the pieces around deeds have in common in any launch, and `Composed` is
for relations that need no more.
-/

namespace Conductor

/-- Whether this can happen around the deeds of an activation, between its beginning and its
end. -/
def Occurrence.isIncidental : Occurrence → Bool
  | .failed .. => true
  | .emitted _ => true
  | .interrupted => true
  | .cancelled _ => true
  | _ => false

namespace Launch

/-- The bindings, the declared arguments and the handlers are as they were, and nothing but
incidents has happened. -/
structure Aside (l m : Launch) : Prop where
  scopes : m.context.scopes = l.context.scopes
  declared : m.context.declared = l.context.declared
  registry : m.registry = l.registry
  history : ∃ os, m.history = os ++ l.history ∧ ∀ o ∈ os, o.isIncidental = true

variable {l m n : Launch}

theorem Aside.refl (l : Launch) : l.Aside l :=
  ⟨rfl, rfl, rfl, [], rfl, by simp⟩

theorem Aside.trans (h : l.Aside m) (h' : m.Aside n) : l.Aside n := by
  obtain ⟨os, hos, hq⟩ := h.history
  obtain ⟨os', hos', hq'⟩ := h'.history
  refine ⟨h'.scopes.trans h.scopes, h'.declared.trans h.declared, h'.registry.trans h.registry,
    os' ++ os, ?_, ?_⟩
  · rw [hos', hos, List.append_assoc]
  · intro o ho
    rcases List.mem_append.mp ho with ho | ho
    · exact hq' o ho
    · exact hq o ho

/-- What happens around deeds adds one incident at a time. -/
theorem aside_of_cons {o : Occurrence} (ho : o.isIncidental = true)
    (hs : m.context.scopes = l.context.scopes) (hd : m.context.declared = l.context.declared)
    (hr : m.registry = l.registry) (hh : m.history = o :: l.history) : l.Aside m :=
  ⟨hs, hd, hr, [o], hh, by simpa using ho⟩

theorem aside_advance (l : Launch) (seq : Nat) (stage : Stage) : l.Aside (l.advance seq stage) :=
  ⟨rfl, rfl, rfl, [], rfl, by simp⟩

theorem aside_note (l : Launch) (seq : Nat) (text : String) : l.Aside (l.note seq text) :=
  ⟨rfl, rfl, rfl, [], rfl, by simp⟩

theorem aside_skipAll (l : Launch) (as : List Action) (why : String) :
    l.Aside (l.skipAll as why) :=
  ⟨rfl, rfl, rfl, [], rfl, by simp⟩

theorem aside_beginGroup (l : Launch) : l.Aside l.beginGroup :=
  ⟨rfl, rfl, rfl, [], rfl, by simp⟩

theorem aside_requestShutdown (l : Launch) (reason : String) (due : Bool) :
    l.Aside (l.requestShutdown reason due).2 := by
  unfold requestShutdown
  split
  · exact .refl l
  · exact aside_of_cons rfl rfl rfl rfl rfl

theorem aside_report (l : Launch) (e : LaunchError) : l.Aside (l.report e) := by
  have hfailed : l.Aside (l.happen (.failed e.kind e.message)) := aside_of_cons rfl rfl rfl rfl rfl
  have hfatal (n : Launch) (reason : String) : n.Aside { n with fatal := some reason } :=
    ⟨rfl, rfl, rfl, [], rfl, by simp⟩
  unfold report onFailure
  split
  · exact (hfailed.trans (hfatal _ _)).trans (aside_requestShutdown _ _ _)
  · exact hfailed

theorem aside_fail (l : Launch) (seq : Nat) (d : Deed) (e : LaunchError) :
    l.Aside (l.fail seq d e).1 :=
  (aside_advance l seq (.failed e.message)).trans (aside_report _ e)

theorem aside_gate (l : Launch) (seq : Nat) (a : Action) : l.Aside (l.gate seq a).1 := by
  -- A condition that lets the action through, or none, leaves it to the shutdown.
  have hpass (n : Launch) : n.Aside (if n.context.shuttingDown && a.deed.startsWork then
      ((n.advance seq .skipped).note seq "shutdown in progress", some Outcome.skipped)
      else ((n.advance seq .activated).advance seq .running, none)).1 := by
    split
    · exact (aside_advance n seq _).trans (aside_note _ seq _)
    · exact (aside_advance n seq _).trans (aside_advance _ seq _)
  unfold gate
  cases a.condition with
  | none => exact hpass l
  | some c =>
      have hasked := aside_advance l seq .evaluatingCondition
      dsimp only
      cases l.context.decide c with
      | error e => exact hasked.trans (aside_fail _ seq a.deed e)
      | ok b =>
          cases b with
          | false => exact hasked.trans (aside_advance _ seq .skipped)
          | true => exact hasked.trans (hpass _)

theorem aside_settle (seq : Nat) (d : Deed) (x : Launch × Performed) :
    x.1.Aside (settle seq d x).1 := by
  obtain ⟨m, r⟩ := x
  match r with
  | .ok .done => exact aside_advance m seq .completed
  | .ok .running => exact .refl m
  | .error e => exact aside_fail m seq d e

theorem aside_cancelTimers (why : String) (ids : List Nat) (l : Launch) :
    l.Aside (l.cancelTimers why ids) := by
  have hone (n : Launch) (id : Nat) : n.Aside (n.cancelTimer why id) := by
    rcases cancelTimer_cases why id n with ⟨-, h⟩ | ⟨t, -, h⟩
    · rw [h]
      exact .refl n
    · rw [h]
      exact aside_of_cons rfl rfl rfl rfl rfl
  induction ids generalizing l with
  | nil => exact .refl l
  | cons id rest ih => exact (hone l id).trans (ih _)

theorem aside_endGroup (l : Launch) (failure : Option LaunchError) :
    l.Aside (l.endGroup failure) := by
  have hregroup (n : Launch) (groups : List (List Nat)) :
      n.Aside { n with groupTimers := groups } := ⟨rfl, rfl, rfl, [], rfl, by simp⟩
  unfold endGroup
  split
  · exact .refl l
  · split
    · exact hregroup l _
    · exact (hregroup l _).trans (aside_cancelTimers _ _ _)

theorem aside_asked (l : Launch) (d : Deed) : l.Aside (l.asked d) := by
  have hheard : ∀ y, l.Aside (l.heard y) := by
    intro y
    unfold heard
    split
    · exact aside_of_cons rfl rfl rfl rfl rfl
    · exact .refl l
  unfold asked
  split
  · exact hheard _
  · exact hheard _
  · exact .refl l

/-! ## From pieces to activations -/

/-- A relation that holds of whatever stands around the deeds of an activation. -/
structure Surrounds (A : Launch → Launch → Prop) : Prop where
  refl : ∀ l, A l l
  gate : ∀ l seq a, A l (l.gate seq a).1
  settle : ∀ seq d (x : Launch × Performed), A x.1 (settle seq d x).1
  skipAll : ∀ l as why, A l (l.skipAll as why)
  beginGroup : ∀ l, A l l.beginGroup
  endGroup : ∀ l failure, A l (l.endGroup failure)
  asked : ∀ l d, A l (l.asked d)

theorem surrounds_aside : Surrounds Aside where
  refl := .refl
  gate := aside_gate
  settle := aside_settle
  skipAll := aside_skipAll
  beginGroup := aside_beginGroup
  endGroup := aside_endGroup
  asked := aside_asked

/-- What a relation between two launches, with the deeds performed in between, must satisfy to
hold of whole activations, where the first relation holds of what stands around deeds. -/
structure Assembled (A : Launch → Launch → Prop)
    (R : (Action → Launch → Prop) → Launch → Launch → Prop) : Prop where
  mono : ∀ {P Q l m}, (∀ b k, P b k → Q b k) → R P l m → R Q l m
  trans : ∀ {P l m n}, R P l m → R P m n → R P l n
  around : ∀ {P l m}, A l m → R P l m
  enter : ∀ {P l} a, R P l (l.enter a).2
  leave : ∀ {P l} seq outcome, R P l (l.happen (.left seq outcome))
  leaf : ∀ {seq a l}, a.deed.isLeaf = true →
    R (fun b k => b = a ∧ k = l) l (l.performLeaf seq a a.deed).1
  inside : ∀ {P l m} scope, R P (l.inScope scope) m →
    R P l { m with context := m.context.restore l.context.depth }

namespace Assembled

variable {A : Launch → Launch → Prop} {R : (Action → Launch → Prop) → Launch → Launch → Prop}
  (hA : Surrounds A) (hR : Assembled A R)
include hA hR

/-- What is done as the children of a group, in a scope of their own. -/
theorem asGroup {P : Action → Launch → Prop} {scope : Scope}
    {f : Launch → Launch × Option LaunchError}
    (hf : R P (l.beginGroup.inScope scope) (f (l.beginGroup.inScope scope)).1) :
    R P l (l.asGroup scope f).1 := by
  rw [asGroup_eq]
  have hbegin : R P l l.beginGroup := hR.around (hA.beginGroup l)
  exact hR.trans (hR.trans hbegin (hR.inside scope hf)) (hR.around (hA.endGroup _ _))

/-- What is done around the deed of an action. -/
theorem admitted {P : Action → Launch → Prop} {a : Action} (ha : l.Admits a m)
    (h : R P m (perform l.journal.size a a.deed m).1) : R P l (Launch.activate a l).1 := by
  have hgate : A (l.enter a).2 m := by
    have := hA.gate (l.enter a).2 l.journal.size a
    rwa [show (l.enter a).2.gate l.journal.size a = (m, none) from ha] at this
  rw [activate_of_admits ha]
  refine hR.trans (hR.trans (hR.trans (hR.enter a) (hR.around hgate)) h) ?_
  exact hR.trans (hR.around (hA.settle _ _ _)) (hR.leave _ _)

theorem activateChildren_of {as : List Action}
    (has : ∀ a ∈ as, ∀ l, R (Reaches a l) l (Launch.activate a l).1) (l : Launch) :
    R (ChildrenReach as l) l (Launch.activateChildren as l).1 := by
  induction as generalizing l with
  | nil =>
      rw [activateChildren_nil]
      exact hR.around (hA.refl l)
  | cons a rest ih =>
      obtain ⟨ha, hrest⟩ := List.forall_mem_cons.mp has
      have hfirst : R (ChildrenReach (a :: rest) l) l (Launch.activate a l).1 :=
        hR.mono (fun b k h => .head h) (ha l)
      cases hesc : (Launch.activate a l).2.escalates with
      | true =>
          obtain ⟨reason, hreason⟩ := exists_reason_of_escalates hesc
          rw [activateChildren_of_escalates hreason rest]
          exact hR.trans hfirst (hR.around (hA.skipAll _ _ _))
      | false =>
          rw [activateChildren_of_not_escalates hesc rest]
          exact hR.trans hfirst (hR.mono (fun b k h => ChildrenReach.tail hesc h) (ih hrest _))

/-- Performing a deed that may have children, where the relation holds of their activations. -/
theorem perform_of {a : Action} (ha : l.Admits a m)
    (hchildren : ∀ c, ∀ b ∈ (a.deed.plan c).children, ∀ l,
      R (Reaches b l) l (Launch.activate b l).1) :
    R (Reaches a l) m (perform l.journal.size a a.deed m).1 := by
  rw [perform_eq]
  split
  · rename_i hleaf
    refine hR.mono ?_ (hR.leaf hleaf)
    rintro b k ⟨rfl, rfl⟩
    exact .self ha
  · rw [ofChildren_fst]
    have hasked : R (Reaches a l) m (m.asked a.deed) := hR.around (hA.asked m a.deed)
    have hall := hchildren m.context
    cases hplan : a.deed.plan m.context with
    | direct => exact hasked
    | refused e => exact hasked
    | here children =>
        rw [hplan] at hall
        have hopens : m.opens a.deed = some (children, m.asked a.deed) := by rw [opens, hplan]
        exact hR.trans hasked
          (hR.mono (fun b k h => .child ha hopens h) (hR.activateChildren_of hA hall _))
    | inside scope children =>
        rw [hplan] at hall
        have hopens : m.opens a.deed =
            some (children, (m.asked a.deed).beginGroup.inScope scope) := by rw [opens, hplan]
        refine hR.trans hasked (hR.asGroup hA ?_)
        exact hR.mono (fun b k h => .child ha hopens h) (hR.activateChildren_of hA hall _)

/-- **A relation that holds of the pieces holds of whole activations.** -/
theorem activate : ∀ (a : Action) (l : Launch), R (Reaches a l) l (Launch.activate a l).1 := by
  apply Action.plan_induction
  intro a hchildren l
  cases hgate : (l.enter a).2.gate l.journal.size a with
  | mk m refused =>
      cases refused with
      | none => exact hR.admitted hA hgate (hR.perform_of hA hgate hchildren)
      | some outcome =>
          have hout : A (l.enter a).2 m := by
            have := hA.gate (l.enter a).2 l.journal.size a
            rwa [hgate] at this
          rw [activate_eq, hgate]
          exact hR.trans (hR.trans (hR.enter a) (hR.around hout)) (hR.leave _ _)

theorem activateChildren (as : List Action) (l : Launch) :
    R (ChildrenReach as l) l (Launch.activateChildren as l).1 :=
  hR.activateChildren_of hA (fun a _ l => hR.activate hA a l) l

theorem activateAll (as : List Action) (l : Launch) :
    R (BodyReaches as l) l (Launch.activateAll as l) := by
  induction as generalizing l with
  | nil => exact hR.around (hA.refl l)
  | cons a rest ih =>
      exact hR.trans (hR.mono (fun b k h => .head h) (hR.activate hA a l))
        (hR.mono (fun b k h => .tail h) (ih (Launch.activate a l).1))

end Assembled

/-- The same where all that is known of what stands around deeds is that it is aside. -/
structure Composed (R : (Action → Launch → Prop) → Launch → Launch → Prop) : Prop where
  mono : ∀ {P Q l m}, (∀ b k, P b k → Q b k) → R P l m → R Q l m
  trans : ∀ {P l m n}, R P l m → R P m n → R P l n
  aside : ∀ {P l m}, l.Aside m → R P l m
  enter : ∀ {P l} a, R P l (l.enter a).2
  leave : ∀ {P l} seq outcome, R P l (l.happen (.left seq outcome))
  leaf : ∀ {seq a l}, a.deed.isLeaf = true →
    R (fun b k => b = a ∧ k = l) l (l.performLeaf seq a a.deed).1
  inside : ∀ {P l m} scope, R P (l.inScope scope) m →
    R P l { m with context := m.context.restore l.context.depth }

namespace Composed

variable {R : (Action → Launch → Prop) → Launch → Launch → Prop}

theorem assembled (hR : Composed R) : Assembled Aside R where
  mono := hR.mono
  trans := hR.trans
  around := hR.aside
  enter := hR.enter
  leave := hR.leave
  leaf := hR.leaf
  inside := hR.inside

theorem activate (hR : Composed R) (a : Action) (l : Launch) :
    R (Reaches a l) l (Launch.activate a l).1 :=
  hR.assembled.activate surrounds_aside a l

theorem activateChildren (hR : Composed R) (as : List Action) (l : Launch) :
    R (ChildrenReach as l) l (Launch.activateChildren as l).1 :=
  hR.assembled.activateChildren surrounds_aside as l

theorem activateAll (hR : Composed R) (as : List Action) (l : Launch) :
    R (BodyReaches as l) l (Launch.activateAll as l) :=
  hR.assembled.activateAll surrounds_aside as l

end Composed

end Launch

end Conductor
