import Conductor.Proofs.Launch.Halves
import Conductor.Proofs.Launch.Origin

/-!
# From one deed to another

What a relation between two launches says of the deeds performed in between can be said from the
end of one deed to the beginning of a later one (`Divisible.between`), with exactly those deeds in
between that come after the first one and before the second one on the clock of the history.
-/

namespace Conductor

namespace Launch

variable {l m n k : Launch} {a b : Action}

/-! ## Before and after -/

theorem Admits.unique (h : l.Admits a m) (h' : l.Admits a n) : m = n :=
  congrArg Prod.fst ((show _ = (m, none) from h).symm.trans h')

/-- A deed without children opens nothing. -/
theorem not_isLeaf_of_opens {children : List Action} (ho : m.opens a.deed = some (children, k)) :
    a.deed.isLeaf ≠ true := by
  intro hleaf
  rw [opens, Deed.plan_of_isLeaf hleaf] at ho
  cases ho

/-- A deed is performed before its action is over. -/
theorem Admits.precedes_activate (ha : l.Admits a m) : m.Precedes (activate a l).1 := by
  have hperform : m.Proceeds (perform l.journal.size a a.deed m).1 :=
    divisible_proceeds.assembled.perform_of surrounds_aside ha fun _ b _ k =>
      divisible_proceeds.activate b k
  have hsettle := hperform.trans (aside_settle l.journal.size a.deed _).proceeds
  rw [activate_of_admits ha]
  exact Nat.lt_succ_of_le hsettle.length_le

theorem precedes_activate_of_reaches (hr : Reaches a l b m) : m.Precedes (activate a l).1 := by
  obtain ⟨k, hk, h⟩ := divisible_proceeds.after hr
  exact hk.precedes_activate.proceeds h

theorem precedes_activateAll_of_reaches {as : List Action} (hr : BodyReaches as l b m) :
    m.Precedes (activateAll as l) := by
  obtain ⟨k, hk, h⟩ := divisible_proceeds.bodyAfter hr
  exact hk.precedes_activate.proceeds h

/-- What opens its children is performed before them. -/
theorem precedes_of_opens {children : List Action} (ho : m.opens a.deed = some (children, k))
    (hr : ChildrenReach children k b n) : m.Precedes n :=
  (divisible_proceeds.descent (P := fun _ _ => False) ho).precedes (precedes_of_childrenReach hr)

theorem Precedes.not_gt (h : l.Precedes m) : ¬ m.Precedes l :=
  Nat.lt_asymm h

theorem Precedes.trans (h : l.Precedes m) (h' : m.Precedes n) : l.Precedes n :=
  Nat.lt_trans h h'

/-- Of the launches of some kind before another one there is one that none of them comes after. -/
theorem exists_latest {Q : Launch → Prop} {l : Launch} (hQ : ∀ j, Q j → j.Precedes m) (hl : Q l) :
    ∃ k, Q k ∧ ∀ j, Q j → ¬ k.Precedes j := by
  by_cases hlater : ∃ j, Q j ∧ l.Precedes j
  · obtain ⟨j, hj, hlj⟩ := hlater
    exact exists_latest hQ hj
  · exact ⟨l, hl, fun j hj hlj => hlater ⟨j, hj, hlj⟩⟩
termination_by m.history.length - l.history.length
decreasing_by exact Nat.sub_lt_sub_left (Nat.lt_trans hlj (hQ j hj)) hlj

/-! ## Until a deed -/

/-- The relation, as far as the history is no longer than some length. -/
def Until (R : (Action → Launch → Prop) → Launch → Launch → Prop) (length : Nat)
    (P : Action → Launch → Prop) (l m : Launch) : Prop :=
  l.Proceeds m ∧
    (m.history.length ≤ length → R (fun c n => P c n ∧ n.history.length ≤ length) l m)

namespace Divisible

variable {R : (Action → Launch → Prop) → Launch → Launch → Prop} (hR : Divisible R)
include hR

theorem truncated (length : Nat) : Divisible (Until R length) where
  mono h hl := ⟨hl.1, fun hlength => hR.mono (fun b k hk => ⟨h b k hk.1, hk.2⟩) (hl.2 hlength)⟩
  trans h h' := ⟨h.1.trans h'.1, fun hlength =>
    hR.trans (h.2 (Nat.le_trans h'.1.length_le hlength)) (h'.2 hlength)⟩
  aside h := ⟨h.proceeds, fun _ => hR.aside h⟩
  enter a := ⟨divisible_proceeds.enter (P := fun _ _ => False) a, fun _ => hR.enter a⟩
  leave seq outcome :=
    ⟨divisible_proceeds.leave (P := fun _ _ => False) seq outcome, fun _ => hR.leave seq outcome⟩
  leaf {seq a l} hleaf := by
    have hproceeds : l.Proceeds (l.performLeaf seq a a.deed).1 := divisible_proceeds.leaf hleaf
    refine ⟨hproceeds, fun hlength => hR.mono ?_ (hR.leaf hleaf)⟩
    rintro b k ⟨rfl, rfl⟩
    exact ⟨⟨rfl, rfl⟩, Nat.le_trans hproceeds.length_le hlength⟩
  inside scope h :=
    ⟨divisible_proceeds.inside (P := fun _ _ => False) scope h.1, fun hlength =>
      hR.inside scope (h.2 hlength)⟩
  proceeds h := h.1
  inScope scope :=
    ⟨divisible_proceeds.inScope (P := fun _ _ => False) scope, fun _ => hR.inScope scope⟩
  restore depth :=
    ⟨divisible_proceeds.restore (P := fun _ _ => False) depth, fun _ => hR.restore depth⟩

/-- What is reached up to the admission of an action is reached before its deed. -/
theorem of_truncated {P : Action → Launch → Prop} (hk : k.Admits b m)
    (h : Until R (m.history.length - 1) P l k) : R (fun c n => P c n ∧ n.Precedes m) l m := by
  have hlength : m.history.length - 1 = k.history.length := by
    rw [hk.history]
    rfl
  rw [hlength] at h
  refine hR.trans (hR.mono (fun c n hn => ⟨hn.1, ?_⟩) (h.2 (Nat.le_refl _))) (hR.admission hk)
  exact Nat.lt_of_le_of_lt hn.2 hk.precedes

theorem childrenToDeed {as : List Action} (hr : ChildrenReach as l b m) :
    R (fun c n => ChildrenReach as l c n ∧ n.Precedes m) l m := by
  obtain ⟨k, hk, h⟩ := (hR.truncated (m.history.length - 1)).childrenBefore hr
  exact hR.of_truncated hk h

theorem bodyToDeed {as : List Action} (hr : BodyReaches as l b m) :
    R (fun c n => BodyReaches as l c n ∧ n.Precedes m) l m := by
  obtain ⟨k, hk, h⟩ := (hR.truncated (m.history.length - 1)).bodyBefore hr
  exact hR.of_truncated hk h

/-! ## Between two deeds -/

mutual

/-- **Between two deeds of an activation only those are performed that come after the one and
before the other.** -/
theorem between {c a b : Action} {l k m : Launch} (ha : Reaches c l a k)
    (hleaf : a.deed.isLeaf = true) (hkm : k.Precedes m) (hb : Reaches c l b m) :
    ∃ k', k'.Admits a k ∧
      R (fun d n => Reaches c l d n ∧ k.Precedes n ∧ n.Precedes m) (activate a k').1 m :=
  match ha, hb with
  | .self h, .self h' => by
      rw [h.unique h'] at hkm
      exact absurd hkm (Nat.lt_irrefl _)
  | .self h, .child h' ho hc => by
      obtain rfl := h.unique h'
      exact absurd hleaf (not_isLeaf_of_opens ho)
  | .child h ho hc, .self h' => by
      obtain rfl := h.unique h'
      exact absurd hkm (precedes_of_opens ho hc).not_gt
  | .child h ho hc, .child h' ho' hc' => by
      obtain rfl := h.unique h'
      obtain ⟨rfl, rfl⟩ := Prod.mk.inj (Option.some.inj (ho.symm.trans ho'))
      obtain ⟨k', hk', hbetween⟩ := childrenBetween hc hleaf hkm hc'
      exact ⟨k', hk', hR.mono (fun _ _ hd => ⟨.child h ho hd.1, hd.2⟩) hbetween⟩

theorem childrenBetween {as : List Action} {a b : Action} {l k m : Launch}
    (ha : ChildrenReach as l a k) (hleaf : a.deed.isLeaf = true) (hkm : k.Precedes m)
    (hb : ChildrenReach as l b m) : ∃ k', k'.Admits a k ∧
      R (fun d n => ChildrenReach as l d n ∧ k.Precedes n ∧ n.Precedes m) (activate a k').1 m :=
  match ha, hb with
  | .head h, .head h' => by
      obtain ⟨k', hk', hbetween⟩ := between h hleaf hkm h'
      exact ⟨k', hk', hR.mono (fun _ _ hd => ⟨.head hd.1, hd.2⟩) hbetween⟩
  | .head h, .tail hesc h' => by
      obtain ⟨k', hk', hafter⟩ := hR.after h
      refine ⟨k', hk', hR.trans (hR.mono (fun d n hd => ?_) hafter)
        (hR.mono (fun d n hd => ?_) (hR.childrenToDeed h'))⟩
      · exact ⟨.head hd.1, hd.2,
          (precedes_activate_of_reaches hd.1).trans (precedes_of_childrenReach h')⟩
      · exact ⟨.tail hesc hd.1,
          (precedes_activate_of_reaches h).trans (precedes_of_childrenReach hd.1), hd.2⟩
  | .tail hesc h, .head h' => by
      have hlate := (precedes_activate_of_reaches h').trans (precedes_of_childrenReach h)
      exact absurd hkm hlate.not_gt
  | .tail hesc h, .tail _ h' => by
      obtain ⟨k', hk', hbetween⟩ := childrenBetween h hleaf hkm h'
      exact ⟨k', hk', hR.mono (fun _ _ hd => ⟨.tail hesc hd.1, hd.2⟩) hbetween⟩

end

theorem bodyBetween {as : List Action} {a b : Action} {l k m : Launch}
    (ha : BodyReaches as l a k) (hleaf : a.deed.isLeaf = true) (hkm : k.Precedes m)
    (hb : BodyReaches as l b m) : ∃ k', k'.Admits a k ∧
      R (fun d n => BodyReaches as l d n ∧ k.Precedes n ∧ n.Precedes m) (activate a k').1 m := by
  induction ha with
  | head h =>
      cases hb with
      | head h' =>
          obtain ⟨k', hk', hbetween⟩ := hR.between h hleaf hkm h'
          exact ⟨k', hk', hR.mono (fun _ _ hd => ⟨.head hd.1, hd.2⟩) hbetween⟩
      | tail h' =>
          obtain ⟨k', hk', hafter⟩ := hR.after h
          refine ⟨k', hk', hR.trans (hR.mono (fun d n hd => ?_) hafter)
            (hR.mono (fun d n hd => ?_) (hR.bodyToDeed h'))⟩
          · exact ⟨.head hd.1, hd.2,
              (precedes_activate_of_reaches hd.1).trans (precedes_of_bodyReaches h')⟩
          · exact ⟨.tail hd.1,
              (precedes_activate_of_reaches h).trans (precedes_of_bodyReaches hd.1), hd.2⟩
  | tail h ih =>
      cases hb with
      | head h' =>
          have hlate := (precedes_activate_of_reaches h').trans (precedes_of_bodyReaches h)
          exact absurd hkm hlate.not_gt
      | tail h' =>
          obtain ⟨k', hk', hbetween⟩ := ih hleaf hkm h'
          exact ⟨k', hk', hR.mono (fun _ _ hd => ⟨.tail hd.1, hd.2⟩) hbetween⟩

end Divisible

end Launch

end Conductor
