import Conductor.Proofs.Launch.Course
import Conductor.Proofs.Launch.Upkeep

/-!
# The two halves of an activation

A deed that is performed in the course of an activation divides it: there is what happens until
then, and what happens once the action of the deed is over. Scopes that are entered in the first
half are left in the second one, so neither half is put together as a whole activation is.
`Divisible` lists what a relation must bear with to hold of halves too (`Divisible.before`,
`Divisible.after`). The deeds of the second half are those that are performed later, where the
clock is the history (`Launch.Precedes`).
-/

namespace Conductor

namespace Occurrence

theorem isOfLoop_of_isIncidental {o : Occurrence} (h : o.isIncidental = true) :
    o.isOfLoop = false := by
  cases o <;> first | rfl | cases h

theorem isOfLoop_of_isOfDeed {o : Occurrence} (h : o.isOfDeed = true) : o.isOfLoop = false := by
  cases o <;> first | rfl | cases h

end Occurrence

namespace Launch

variable {l m n k : Launch}

/-! ## The history as a clock -/

/-- The history has grown, by nothing that is of the loop. -/
def Proceeds (l m : Launch) : Prop :=
  ∃ os, m.history = os ++ l.history ∧ ∀ o ∈ os, o.isOfLoop = false

/-- More has happened in the second launch. -/
def Precedes (l m : Launch) : Prop :=
  l.history.length < m.history.length

theorem proceeds_of_same (h : m.history = l.history) : l.Proceeds m :=
  ⟨[], h, by simp⟩

theorem proceeds_of_cons {o : Occurrence} (ho : o.isOfLoop = false)
    (h : m.history = o :: l.history) : l.Proceeds m :=
  ⟨[o], h, by simpa using ho⟩

theorem Proceeds.trans (h : l.Proceeds m) (h' : m.Proceeds n) : l.Proceeds n := by
  obtain ⟨os, hos, hq⟩ := h
  obtain ⟨os', hos', hq'⟩ := h'
  refine ⟨os' ++ os, by rw [hos', hos, List.append_assoc], fun o ho => ?_⟩
  exact (List.mem_append.mp ho).elim (hq' o) (hq o)

theorem Proceeds.length_le (h : l.Proceeds m) : l.history.length ≤ m.history.length := by
  obtain ⟨os, hos, -⟩ := h
  rw [hos, List.length_append]
  exact Nat.le_add_left _ _

theorem Proceeds.precedes (h : l.Proceeds m) (h' : m.Precedes n) : l.Precedes n :=
  Nat.lt_of_le_of_lt h.length_le h'

theorem Precedes.proceeds (h : l.Precedes m) (h' : m.Proceeds n) : l.Precedes n :=
  Nat.lt_of_lt_of_le h h'.length_le

theorem Aside.proceeds (h : l.Aside m) : l.Proceeds m := by
  obtain ⟨os, hos, hq⟩ := h.history
  exact ⟨os, hos, fun o ho => Occurrence.isOfLoop_of_isIncidental (hq o ho)⟩

theorem Admits.precedes {a : Action} (h : l.Admits a m) : l.Precedes m := by
  unfold Precedes
  rw [h.history, List.length_cons]
  exact Nat.lt_succ_self _

/-! ## Relations that hold of halves -/

/-- What a relation between two launches, with the deeds performed in between, must satisfy to
hold of the halves of activations as well: a scope can be entered or left by itself. -/
structure Divisible (R : (Action → Launch → Prop) → Launch → Launch → Prop) : Prop extends
    Composed R where
  proceeds : ∀ {P l m}, R P l m → l.Proceeds m
  inScope : ∀ {P l} scope, R P l (l.inScope scope)
  restore : ∀ {P l} depth, R P l { l with context := l.context.restore depth }

/-- Every activation proceeds, and so do its halves. -/
theorem divisible_proceeds : Divisible fun _ => Proceeds where
  mono _ h := h
  trans := Proceeds.trans
  aside := Aside.proceeds
  enter a := proceeds_of_cons (o := .entered _ a) rfl rfl
  leave seq outcome := proceeds_of_cons (o := .left seq outcome) rfl rfl
  leaf {seq a l} _ := by
    obtain ⟨os, hos, hq⟩ := l.history_performLeaf seq a a.deed
    exact ⟨os, hos, fun o ho => Occurrence.isOfLoop_of_isOfDeed (hq o ho)⟩
  inside _ h := h
  proceeds h := h
  inScope _ := proceeds_of_same rfl
  restore _ := proceeds_of_same rfl

namespace Divisible

variable {R : (Action → Launch → Prop) → Launch → Launch → Prop} (hR : Divisible R)
include hR

theorem admission {P : Action → Launch → Prop} {a : Action} (ha : l.Admits a m) : R P l m := by
  have hgate := aside_gate (l.enter a).2 l.journal.size a
  rw [show (l.enter a).2.gate l.journal.size a = (m, none) from ha] at hgate
  exact hR.trans (hR.enter a) (hR.aside hgate)

/-- Where the deed of an action has been performed, its activation is soon over. -/
theorem dismissal {P : Action → Launch → Prop} (seq : Nat) (d : Deed) (x : Launch × Performed) :
    R P x.1 (Launch.leave seq (settle seq d x)).1 :=
  hR.trans (hR.aside (aside_settle seq d x)) (hR.leave seq _)

theorem completion {a : Action} (ha : l.Admits a m) : R (Reaches a l) m (activate a l).1 := by
  rw [activate_of_admits ha]
  exact hR.trans (hR.assembled.perform_of surrounds_aside ha fun _ b _ k => hR.activate b k)
    (hR.dismissal _ _ _)

/-- From the deed of an action to its first child. -/
theorem descent {P : Action → Launch → Prop} {d : Deed} {children : List Action}
    (ho : m.opens d = some (children, k)) : R P m k := by
  have hasked : R P m (m.asked d) := hR.aside (aside_asked m d)
  unfold opens at ho
  split at ho
  · cases ho
  · cases ho
  · cases ho
    exact hasked
  · cases ho
    exact hR.trans hasked (hR.trans (hR.aside (aside_beginGroup _)) (hR.inScope _))

/-- From the last child of an action to its end. -/
theorem ascent {P : Action → Launch → Prop} {a : Action} {children : List Action}
    (ha : l.Admits a m) (ho : m.opens a.deed = some (children, k)) :
    R P (activateChildren children k).1 (activate a l).1 := by
  have hleaf : ¬ a.deed.isLeaf = true := by
    intro hleaf
    rw [opens, Deed.plan_of_isLeaf hleaf] at ho
    cases ho
  have hfollow : R P (activateChildren children k).1
      ((m.asked a.deed).follow (a.deed.plan m.context)).1 := by
    unfold opens at ho
    split at ho
    · cases ho
    · cases ho
    · rename_i hplan
      cases ho
      rw [hplan]
      exact hR.aside (.refl _)
    · rename_i hplan
      cases ho
      rw [hplan, follow, asGroup_eq]
      exact hR.trans (hR.restore _) (hR.aside (aside_endGroup _ _))
  rw [activate_of_admits ha, perform_eq, if_neg hleaf]
  refine hR.trans hfollow ?_
  rw [← ofChildren_fst]
  exact hR.dismissal _ _ _

/-- From one child to the end of the list, whether those behind it are activated or not. -/
theorem remainder (a : Action) (rest : List Action) (l : Launch) :
    R (fun b k => (activate a l).2.escalates = false ∧ ChildrenReach rest (activate a l).1 b k)
      (activate a l).1 (activateChildren (a :: rest) l).1 := by
  cases hesc : (activate a l).2.escalates with
  | true =>
      obtain ⟨reason, hreason⟩ := exists_reason_of_escalates hesc
      rw [activateChildren_of_escalates hreason rest]
      exact hR.aside (aside_skipAll _ _ _)
  | false =>
      rw [activateChildren_of_not_escalates hesc rest]
      exact hR.mono (fun _ _ h => ⟨rfl, h⟩) (hR.activateChildren rest _)

/-! ### The first half -/

mutual

theorem before {a b : Action} {l m : Launch} (hr : Reaches a l b m) :
    ∃ k, k.Admits b m ∧ R (Reaches a l) l k :=
  match hr with
  | .self ha => ⟨l, ha, hR.aside (.refl l)⟩
  | .child ha ho hc =>
      have ⟨k, hk, h⟩ := childrenBefore hc
      ⟨k, hk, hR.trans (hR.trans (hR.admission ha) (hR.descent ho))
        (hR.mono (fun _ _ h => .child ha ho h) h)⟩

theorem childrenBefore {as : List Action} {b : Action} {l m : Launch}
    (hr : ChildrenReach as l b m) : ∃ k, k.Admits b m ∧ R (ChildrenReach as l) l k :=
  match hr with
  | .head hr =>
      have ⟨k, hk, h⟩ := before hr
      ⟨k, hk, hR.mono (fun _ _ h => .head h) h⟩
  | .tail hesc hr =>
      have ⟨k, hk, h⟩ := childrenBefore hr
      ⟨k, hk, hR.trans (hR.mono (fun _ _ h => .head h) (hR.activate _ _))
        (hR.mono (fun _ _ h => .tail hesc h) h)⟩

end

theorem bodyBefore {as : List Action} {b : Action} {l m : Launch} (hr : BodyReaches as l b m) :
    ∃ k, k.Admits b m ∧ R (BodyReaches as l) l k := by
  induction hr with
  | head hr =>
      obtain ⟨k, hk, h⟩ := hR.before hr
      exact ⟨k, hk, hR.mono (fun _ _ h => .head h) h⟩
  | tail _ ih =>
      obtain ⟨k, hk, h⟩ := ih
      exact ⟨k, hk, hR.trans (hR.mono (fun _ _ h => .head h) (hR.activate _ _))
        (hR.mono (fun _ _ h => .tail h) h)⟩

end Divisible

/-- What is reached is reached later. -/
theorem precedes_of_childrenReach {as : List Action} {b : Action} (hr : ChildrenReach as l b m) :
    l.Precedes m := by
  obtain ⟨k, hk, h⟩ := divisible_proceeds.childrenBefore hr
  exact h.precedes hk.precedes

theorem precedes_of_bodyReaches {as : List Action} {b : Action} (hr : BodyReaches as l b m) :
    l.Precedes m := by
  obtain ⟨k, hk, h⟩ := divisible_proceeds.bodyBefore hr
  exact h.precedes hk.precedes

/-! ### The second half -/

namespace Divisible

variable {R : (Action → Launch → Prop) → Launch → Launch → Prop} (hR : Divisible R)
include hR

/-- What comes after the end of an action comes after everything reached in its course. -/
theorem proceeds_after {P : Action → Launch → Prop} {b : Action} {l m n : Launch}
    (hm : l.Admits b m) (h : R P (activate b l).1 n) : m.Proceeds n :=
  (divisible_proceeds.completion hm).trans (hR.proceeds h)

mutual

/-- **What follows a deed in an activation is made of the deeds that are performed later.** -/
theorem after {a b : Action} {l m : Launch} (hr : Reaches a l b m) :
    ∃ k, k.Admits b m ∧ R (fun c n => Reaches a l c n ∧ m.Precedes n)
      (activate b k).1 (activate a l).1 :=
  match hr with
  | .self ha => ⟨l, ha, hR.aside (.refl _)⟩
  | .child ha ho hc =>
      have ⟨k, hk, h⟩ := childrenAfter hc
      ⟨k, hk, hR.trans (hR.mono (fun _ _ h => ⟨.child ha ho h.1, h.2⟩) h) (hR.ascent ha ho)⟩

theorem childrenAfter {as : List Action} {b : Action} {l m : Launch}
    (hr : ChildrenReach as l b m) :
    ∃ k, k.Admits b m ∧ R (fun c n => ChildrenReach as l c n ∧ m.Precedes n)
      (activate b k).1 (activateChildren as l).1 :=
  match hr with
  | @ChildrenReach.head a _ l _ rest hr => by
      obtain ⟨k, hk, h⟩ := after hr
      have hthere := hR.proceeds_after hk h
      refine ⟨k, hk, hR.trans (hR.mono (fun _ _ h => ⟨.head h.1, h.2⟩) h)
        (hR.mono (fun c n hc => ?_) (hR.remainder a rest l))⟩
      exact ⟨.tail hc.1 hc.2, hthere.precedes (precedes_of_childrenReach hc.2)⟩
  | @ChildrenReach.tail _ _ _ _ rest hesc hr => by
      obtain ⟨k, hk, h⟩ := childrenAfter hr
      rw [activateChildren_of_not_escalates hesc rest]
      exact ⟨k, hk, hR.mono (fun _ _ h => ⟨.tail hesc h.1, h.2⟩) h⟩

end

theorem bodyAfter {as : List Action} {b : Action} {l m : Launch} (hr : BodyReaches as l b m) :
    ∃ k, k.Admits b m ∧ R (fun c n => BodyReaches as l c n ∧ m.Precedes n)
      (activate b k).1 (activateAll as l) := by
  induction hr with
  | @head a _ _ _ rest hr =>
      obtain ⟨k, hk, h⟩ := hR.after hr
      have hthere := hR.proceeds_after hk h
      refine ⟨k, hk, hR.trans (hR.mono (fun _ _ h => ⟨.head h.1, h.2⟩) h)
        (hR.mono (fun c n hc => ?_) (hR.activateAll rest _))⟩
      exact ⟨.tail hc, hthere.precedes (precedes_of_bodyReaches hc)⟩
  | tail _ ih =>
      obtain ⟨k, hk, h⟩ := ih
      exact ⟨k, hk, hR.mono (fun _ _ h => ⟨.tail h.1, h.2⟩) h⟩

end Divisible

end Launch

/-! ## Bodies -/

namespace Launch.Divisible

variable {R : (Action → Launch → Prop) → Launch → Launch → Prop} (hR : Divisible R)
  {b : Beginning} {a : Action} {m : Launch}
include hR

/-- From the last action of a body to its end. -/
theorem exit {P : Action → Launch → Prop} (b : Beginning) :
    R P (activateAll b.actions b.opened) b.closed := by
  obtain ⟨cause, actions, scope, l⟩ := b
  cases scope with
  | none => exact hR.aside (.refl _)
  | some scope => exact hR.restore _

/-- A body from its first action to its end. -/
theorem body (b : Beginning) : R (BodyReaches b.actions b.opened) b.opened b.closed :=
  hR.trans (hR.activateAll b.actions b.opened) (hR.exit b)

/-- A body from the end of an action to its own. -/
theorem rest (hr : BodyReaches b.actions b.opened a m) :
    ∃ k, k.Admits a m ∧ R (fun c n => BodyReaches b.actions b.opened c n ∧ m.Precedes n)
      (activate a k).1 b.closed := by
  obtain ⟨k, hk, h⟩ := hR.bodyAfter hr
  exact ⟨k, hk, hR.trans h (hR.exit b)⟩

end Launch.Divisible

namespace Beginning

variable {b : Beginning} {a : Action} {m : Launch}

/-- When its first action is activated, a body has begun, and that is all. -/
theorem history_opened (b : Beginning) : b.opened.history = b.occurrence :: b.launch.history := by
  unfold opened
  split <;> rfl

theorem proceeds_closed (b : Beginning) : b.opened.Proceeds b.closed :=
  Launch.divisible_proceeds.body b

theorem proceeds_reached (hr : BodyReaches b.actions b.opened a m) : b.opened.Proceeds m := by
  obtain ⟨k, hk, h⟩ := Launch.divisible_proceeds.bodyBefore hr
  exact h.trans (Launch.divisible_proceeds.admission (P := fun _ _ => False) hk)

theorem proceeds_of_reached (hr : BodyReaches b.actions b.opened a m) : m.Proceeds b.closed := by
  obtain ⟨k, hk, h⟩ := Launch.divisible_proceeds.rest hr
  exact (Launch.divisible_proceeds.completion hk).trans h

end Beginning

end Conductor
