import Conductor.Proofs.Launch.Isolation

/-!
# Two launches side by side

The same actions are activated in two launches that differ in some way. `SideBySide` lists what a
relation between the launches must satisfy, one field for each piece of an activation, so that
whole activations lead from related launches to related ones and come out alike
(`SideBySide.activate`). The relation may depend on how many scopes have been entered since, the
records of the second launch may have other numbers than those of the first, and deeds may be
known to satisfy a predicate.
-/

namespace Conductor

namespace Launch

variable {α : Type}

/-- The results are the same, and the launches related. -/
structure Alike (R : Launch → Launch → Prop) (x y : Launch × α) : Prop where
  launches : R x.1 y.1
  result : y.2 = x.2

/-- What a relation between launches must satisfy to be kept by activations in both: `R d` holds
of two launches when `d` scopes have been entered, and the second one numbers records by
`number`. -/
structure SideBySide (p : Deed → Prop) (number : Nat → Nat) (R : Nat → Launch → Launch → Prop) :
    Prop where
  size : ∀ {d l m}, R d l m → m.journal.size = number l.journal.size
  depth : ∀ {d l m}, R d l m → m.context.depth = l.context.depth
  enter : ∀ {d l m} a, R d l m → R d (l.enter a).2 (m.enter a).2
  gate : ∀ {d l m} seq a, R d l m → Alike (R d) (l.gate seq a) (m.gate (number seq) a)
  leaf : ∀ {d l m} seq a, p a.deed → a.deed.isLeaf = true → R d l m →
    Alike (R d) (l.performLeaf seq a a.deed) (m.performLeaf (number seq) a a.deed)
  plan : ∀ {d l m} x, p x → R d l m → x.plan m.context = x.plan l.context
  asked : ∀ {d l m} x, p x → R d l m → R d (l.asked x) (m.asked x)
  settle : ∀ {d x y} seq deed, Alike (R d) x y →
    Alike (R d) (settle seq deed x) (settle (number seq) deed y)
  leave : ∀ {d l m} seq outcome, R d l m →
    R d (l.happen (.left seq outcome)) (m.happen (.left (number seq) outcome))
  skipAll : ∀ {d l m} as why, R d l m → R d (l.skipAll as why) (m.skipAll as why)
  /-- A group begins in a scope of its own. -/
  opened : ∀ {d l m} scope, R d l m →
    R (d + 1) (l.beginGroup.inScope scope) (m.beginGroup.inScope scope)
  /-- The scope of a group is left, and the group ends. -/
  closed : ∀ {d l m} depth failure, R (d + 1) l m → l.context.depth = depth + 1 →
    R d ({ l with context := l.context.restore depth }.endGroup failure)
      ({ m with context := m.context.restore depth }.endGroup failure)

namespace SideBySide

variable {p : Deed → Prop} {number : Nat → Nat} {R : Nat → Launch → Launch → Prop}
  (hR : SideBySide p number R) {d : Nat} {l m n n' : Launch}
include hR

theorem activateChildren_of {as : List Action}
    (has : ∀ a ∈ as, ∀ d l m, (∀ b k, Reaches a l b k → p b.deed) → R d l m →
      Alike (R d) (Launch.activate a l) (Launch.activate a m))
    (hp : ∀ b k, ChildrenReach as l b k → p b.deed) (h : R d l m) :
    Alike (R d) (Launch.activateChildren as l) (Launch.activateChildren as m) := by
  induction as generalizing l m with
  | nil =>
      rw [activateChildren_nil, activateChildren_nil]
      exact ⟨h, rfl⟩
  | cons a rest ih =>
      obtain ⟨ha, hrest⟩ := List.forall_mem_cons.mp has
      obtain ⟨hlaunches, hresult⟩ := ha d l m (fun b k hb => hp b k (.head hb)) h
      cases hesc : (Launch.activate a l).2.escalates with
      | true =>
          obtain ⟨reason, hreason⟩ := exists_reason_of_escalates hesc
          rw [activateChildren_of_escalates hreason,
            activateChildren_of_escalates (hresult.trans hreason)]
          exact ⟨hR.skipAll rest _ hlaunches, rfl⟩
      | false =>
          rw [activateChildren_of_not_escalates hesc,
            activateChildren_of_not_escalates (by rw [hresult]; exact hesc)]
          exact ih hrest (fun b k hb => hp b k (.tail hesc hb)) hlaunches

/-- What is done as the children of a group comes out alike if it does in the scope of the
group. -/
theorem asGroup {scope : Scope} {f : Launch → Launch × Option LaunchError} (h : R d l m)
    (hdepth : (f (l.beginGroup.inScope scope)).1.context.depth = l.context.depth + 1)
    (hf : Alike (R (d + 1)) (f (l.beginGroup.inScope scope)) (f (m.beginGroup.inScope scope))) :
    Alike (R d) (l.asGroup scope f) (m.asGroup scope f) := by
  obtain ⟨hlaunches, hresult⟩ := hf
  rw [asGroup_eq, asGroup_eq]
  dsimp only
  rw [hresult, hR.depth h]
  exact ⟨hR.closed _ _ hlaunches hdepth, rfl⟩

/-- A deed is performed alike if its children are activated alike. -/
theorem perform_of {a : Action} (ha : l.Admits a n)
    (hchildren : ∀ c, ∀ b ∈ (a.deed.plan c).children, ∀ d l m,
      (∀ b' k, Reaches b l b' k → p b'.deed) → R d l m →
        Alike (R d) (Launch.activate b l) (Launch.activate b m))
    (hp : ∀ b k, Reaches a l b k → p b.deed) (h : R d n n') (seq : Nat) :
    Alike (R d) (perform seq a a.deed n) (perform (number seq) a a.deed n') := by
  have hdeed : p a.deed := hp a n (.self ha)
  rw [perform_eq, perform_eq]
  cases hleaf : a.deed.isLeaf with
  | true => exact hR.leaf seq a hdeed hleaf h
  | false =>
      rw [if_neg Bool.false_ne_true, if_neg Bool.false_ne_true]
      have hofChildren {x y : Launch × Option LaunchError} (hx : Alike (R d) x y) :
          Alike (R d) (ofChildren x) (ofChildren y) := by
        obtain ⟨k, failure⟩ := x
        obtain ⟨k', failure'⟩ := y
        obtain ⟨hk, ho⟩ := hx
        obtain rfl : failure' = failure := ho
        cases failure' <;> exact ⟨hk, rfl⟩
      apply hofChildren
      rw [hR.plan a.deed hdeed h]
      have hasked := hR.asked a.deed hdeed h
      have hall := hchildren n.context
      cases hplan : a.deed.plan n.context with
      | direct => exact ⟨hasked, rfl⟩
      | refused e => exact ⟨hasked, rfl⟩
      | here children =>
          rw [hplan] at hall
          have hopens : n.opens a.deed = some (children, n.asked a.deed) := by rw [opens, hplan]
          exact hR.activateChildren_of hall (fun b k hb => hp b k (.child ha hopens hb)) hasked
      | inside scope children =>
          rw [hplan] at hall
          have hopens : n.opens a.deed =
              some (children, (n.asked a.deed).beginGroup.inScope scope) := by rw [opens, hplan]
          refine hR.asGroup hasked (composed_shelters.activateChildren children _).depth ?_
          exact hR.activateChildren_of hall (fun b k hb => hp b k (.child ha hopens hb))
            (hR.opened scope hasked)

/-- **Related launches stay related.** What holds piece by piece holds of whole activations, which
come out alike. -/
theorem activate : ∀ (a : Action) (d : Nat) (l m : Launch),
    (∀ b k, Reaches a l b k → p b.deed) → R d l m →
      Alike (R d) (Launch.activate a l) (Launch.activate a m) := by
  apply Action.plan_induction
  intro a hchildren d l m hp h
  have hleave {x y : Launch × Outcome} (hx : Alike (R d) x y) :
      Alike (R d) (Launch.leave l.journal.size x)
        (Launch.leave (number l.journal.size) y) := by
    obtain ⟨k, outcome⟩ := x
    obtain ⟨k', outcome'⟩ := y
    obtain ⟨hk, ho⟩ := hx
    obtain rfl : outcome' = outcome := ho
    exact ⟨hR.leave _ _ hk, rfl⟩
  have hgate := hR.gate l.journal.size a (hR.enter a h)
  rw [activate_eq, activate_eq, hR.size h]
  cases hadmits : (l.enter a).2.gate l.journal.size a with
  | mk n refused =>
      cases hadmits' : (m.enter a).2.gate (number l.journal.size) a with
      | mk n' refused' =>
          rw [hadmits, hadmits'] at hgate
          obtain ⟨hn, hresult⟩ := hgate
          obtain rfl : refused' = refused := hresult
          change R d n n' at hn
          cases refused' with
          | some outcome => exact hleave ⟨hn, rfl⟩
          | none =>
              exact hleave (hR.settle _ _ (hR.perform_of hadmits hchildren hp hn _))

theorem activateChildren {as : List Action} (hp : ∀ b k, ChildrenReach as l b k → p b.deed)
    (h : R d l m) :
    Alike (R d) (Launch.activateChildren as l) (Launch.activateChildren as m) :=
  hR.activateChildren_of (fun a _ => hR.activate a) hp h

theorem activateAll {as : List Action} (hp : ∀ b k, BodyReaches as l b k → p b.deed)
    (h : R d l m) : R d (Launch.activateAll as l) (Launch.activateAll as m) := by
  induction as generalizing l m with
  | nil => exact h
  | cons a rest ih =>
      have hfirst := hR.activate a d l m (fun b k hb => hp b k (.head hb)) h
      exact ih (fun b k hb => hp b k (.tail hb)) hfirst.launches

end SideBySide

end Launch

end Conductor
