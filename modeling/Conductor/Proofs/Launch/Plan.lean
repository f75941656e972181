import Conductor.Launch.Activation
import Conductor.Proofs.Action.Every

/-!
# The plan of a deed

Performing a deed comes to one of four things, and the context alone decides which: it is done
in one go, it is refused, or children are activated, in the scopes at hand or in a scope of
their own. `Deed.plan` says which, and `perform_eq` that nothing else happens.

With plans an activation is a recursion over children only (`Action.plan_induction`). `Reaches`
lists the deeds that are performed in its course, each with the launch in which it is.
-/

namespace Conductor

/-- What performing a deed comes to. -/
inductive Plan where
  /-- It is done in one go. -/
  | direct
  /-- It fails before a child is activated. -/
  | refused (error : LaunchError)
  /-- Children are activated in the scopes at hand. -/
  | here (children : List Action)
  /-- Children are activated in a scope of their own. -/
  | inside (scope : Scope) (children : List Action)

namespace Plan

def children : Plan → List Action
  | .direct => []
  | .refused _ => []
  | .here children => children
  | .inside _ children => children

/-- Children in a scope that binds names to the texts of templates. -/
def bound (c : Context) (bindings : List (String × Template)) (children : List Action) : Plan :=
  match bindAll c bindings with
  | .error e => .refused e
  | .ok scope => .inside scope children

theorem mem_of_mem_children_bound {c : Context} {bindings : List (String × Template)}
    {children : List Action} {b : Action} (h : b ∈ (bound c bindings children).children) :
    b ∈ children := by
  unfold bound at h
  split at h
  · cases h
  · exact h

/-- What a source of a name has yielded; an interrupt comes without children. -/
def loaded (c : Context) (name : String) (arguments : List (String × Template)) : Yield → Plan
  | .actions children => .bound c arguments children
  | .interrupt => .bound c arguments []
  | .failure e => .refused (Source.wrap name e)

/-- What a function has yielded. -/
def computed : Yield → Plan
  | .actions children => .here children
  | .interrupt => .here []
  | .failure e => .refused e

end Plan

/-- Whether a function asks for an interrupt. -/
def Yield.isInterrupt : Yield → Bool
  | .interrupt => true
  | _ => false

/-- What a source yields in a context. -/
def Source.load (c : Context) : Source → Yield
  | .inline children => .actions children
  | .computed _ f => f c
  | .file path parse =>
      match c.host.readFile path with
      | .error fault => .failure (.includeFailed path fault.message)
      | .ok text => parse text

namespace Deed

/-- What performing the deed comes to in a context. -/
def plan (d : Deed) (c : Context) : Plan :=
  match d with
  | .group bindings children => .bound c bindings children
  | .splice source arguments _ => .loaded c source.name arguments (source.load c)
  | .compute f => .computed (f c)
  | _ => .direct

/-- Whether the deed never has children to activate at once. -/
def isLeaf : Deed → Bool
  | .group .. => false
  | .splice .. => false
  | .compute _ => false
  | _ => true

theorem plan_of_isLeaf {d : Deed} (h : d.isLeaf = true) (c : Context) : d.plan c = .direct := by
  cases d with
  | group | splice | compute => cases h
  | _ => rfl

end Deed

/-! ## Induction along children -/

mutual

/-- What holds of an action whenever it holds of all children that the action can have, holds of
every action. -/
theorem Action.plan_induction {P : Action → Prop}
    (h : ∀ a : Action, (∀ c, ∀ b ∈ (a.deed.plan c).children, P b) → P a) : ∀ a : Action, P a
  | .mk _ _ d => h _ (Deed.plan_induction h d)

theorem Deed.plan_induction {P : Action → Prop}
    (h : ∀ a : Action, (∀ c, ∀ b ∈ (a.deed.plan c).children, P b) → P a) :
    ∀ (d : Deed) (c : Context), ∀ b ∈ (d.plan c).children, P b
  | .group _ children, _ => fun b hb =>
      Action.list_induction h children b (Plan.mem_of_mem_children_bound hb)
  | .splice source _ _, c => by
      intro b hb
      rw [Deed.plan] at hb
      cases hload : source.load c with
      | actions children =>
          rw [hload] at hb
          exact Source.load_induction h source c children hload b
            (Plan.mem_of_mem_children_bound hb)
      | interrupt =>
          rw [hload] at hb
          exact absurd (Plan.mem_of_mem_children_bound hb) List.not_mem_nil
      | failure e =>
          rw [hload] at hb
          cases hb
  | .compute f, c => by
      intro b hb
      rw [Deed.plan] at hb
      cases hf : f c with
      | actions children =>
          rw [hf] at hb
          exact Yield.actions_induction h (f c) children hf b hb
      | interrupt =>
          rw [hf] at hb
          cases hb
      | failure e =>
          rw [hf] at hb
          cases hb
  | .log .., _ => List.forall_mem_nil _
  | .execute .., _ => List.forall_mem_nil _
  | .declare _, _ => List.forall_mem_nil _
  | .setVariable .., _ => List.forall_mem_nil _
  | .unsetVariable _, _ => List.forall_mem_nil _
  | .setEnv .., _ => List.forall_mem_nil _
  | .unsetEnv _, _ => List.forall_mem_nil _
  | .register _, _ => List.forall_mem_nil _
  | .unregister _, _ => List.forall_mem_nil _
  | .emit _, _ => List.forall_mem_nil _
  | .timer .., _ => List.forall_mem_nil _
  | .shutdown _, _ => List.forall_mem_nil _

theorem Source.load_induction {P : Action → Prop}
    (h : ∀ a : Action, (∀ c, ∀ b ∈ (a.deed.plan c).children, P b) → P a) :
    ∀ (s : Source) (c : Context) (children : List Action), s.load c = .actions children →
      ∀ b ∈ children, P b
  | .inline own, _, children => by
      intro hload
      rw [Source.load] at hload
      cases hload
      exact Action.list_induction h own
  | .computed _ f, c, children => Yield.actions_induction h (f c) children
  | .file path parse, c, children => by
      intro hload
      rw [Source.load] at hload
      split at hload
      · cases hload
      · exact Yield.actions_induction h (parse _) children hload

theorem Yield.actions_induction {P : Action → Prop}
    (h : ∀ a : Action, (∀ c, ∀ b ∈ (a.deed.plan c).children, P b) → P a) :
    ∀ (y : Yield) (children : List Action), y = .actions children → ∀ b ∈ children, P b
  | .actions own, children => by
      intro hy
      cases hy
      exact Action.list_induction h own
  | .failure _, _ => fun hy => nomatch hy
  | .interrupt, _ => fun hy => nomatch hy

theorem Action.list_induction {P : Action → Prop}
    (h : ∀ a : Action, (∀ c, ∀ b ∈ (a.deed.plan c).children, P b) → P a) :
    ∀ as : List Action, ∀ b ∈ as, P b
  | [] => List.forall_mem_nil _
  | a :: rest =>
      List.forall_mem_cons.mpr ⟨Action.plan_induction h a, Action.list_induction h rest⟩

end

/-! ## Carrying a plan out -/

namespace Launch

/-- The launch under a further scope. -/
def inScope (l : Launch) (scope : Scope) : Launch :=
  { l with context := l.context.push scope }

/-- The launch once a function has yielded something. -/
def heard (l : Launch) (y : Yield) : Launch :=
  if y.isInterrupt then l.interrupt else l

/-- The launch once the function of a deed, if it has one, has been asked for children. -/
def asked (l : Launch) (d : Deed) : Launch :=
  match d with
  | .splice source _ _ => l.heard (source.load l.context)
  | .compute f => l.heard (f l.context)
  | _ => l

theorem context_asked (m : Launch) (d : Deed) : (m.asked d).context = m.context := by
  have hheard : ∀ y, (m.heard y).context = m.context := by
    intro y
    unfold heard
    split <;> rfl
  unfold asked
  split
  · exact hheard _
  · exact hheard _
  · rfl

theorem asGroup_eq (l : Launch) (scope : Scope) (f : Launch → Launch × Option LaunchError) :
    l.asGroup scope f =
      let n := (f (l.beginGroup.inScope scope)).1
      let failure := (f (l.beginGroup.inScope scope)).2
      ({ n with context := n.context.restore l.context.depth }.endGroup failure, failure) := rfl

/-- Activate the children of a plan, if it has some. -/
def follow (l : Launch) : Plan → Launch × Option LaunchError
  | .direct => (l, none)
  | .refused e => (l, some e)
  | .here children => activateChildren children l
  | .inside scope children => l.asGroup scope (activateChildren children)

theorem activateChildren_nil (l : Launch) : activateChildren [] l = (l, none) := by
  rw [activateChildren]

theorem follow_bound (l : Launch) (arguments : List (String × Template))
    (children : List Action) :
    l.follow (.bound l.context arguments children) =
      match bindAll l.context arguments with
      | .error e => (l, some e)
      | .ok scope => l.asGroup scope (activateChildren children) := by
  unfold Plan.bound
  cases bindAll l.context arguments <;> rfl

theorem activateLoaded_eq (name : String) (arguments : List (String × Template)) (y : Yield)
    (l : Launch) :
    activateLoaded name arguments y l =
      (l.heard y).follow (.loaded l.context name arguments y) := by
  cases y with
  | actions children =>
      rw [activateLoaded]
      exact (follow_bound l arguments children).symm
  | failure e => rfl
  | interrupt =>
      have hnil : (fun l => (l, none)) = activateChildren [] := (funext activateChildren_nil).symm
      rw [activateLoaded, hnil]
      exact (follow_bound l.interrupt arguments []).symm

theorem activateYield_eq (y : Yield) (l : Launch) :
    activateYield y l = (l.heard y).follow (.computed y) := by
  cases y with
  | actions children => rfl
  | failure e => rfl
  | interrupt => exact (activateChildren_nil l.interrupt).symm

/-- A source is loaded first; what it yields is then bound and activated. -/
theorem activateSource_eq (s : Source) (arguments : List (String × Template)) (l : Launch) :
    activateSource arguments s l =
      (l.heard (s.load l.context)).follow
        (.loaded l.context s.name arguments (s.load l.context)) := by
  cases s with
  | inline children =>
      rw [activateSource]
      exact (follow_bound l arguments children).symm
  | computed name f =>
      rw [activateSource]
      exact activateLoaded_eq name arguments (f l.context) l
  | file path parse =>
      rw [activateSource, Source.load]
      cases l.context.host.readFile path with
      | error fault => rfl
      | ok text => exact activateLoaded_eq path arguments (parse text) l

/-- **A deed is performed as its plan says.** -/
theorem perform_eq (seq : Nat) (a : Action) (d : Deed) (l : Launch) :
    perform seq a d l =
      if d.isLeaf then l.performLeaf seq a d
      else ofChildren ((l.asked d).follow (d.plan l.context)) := by
  cases d with
  | group bindings children =>
      rw [perform]
      dsimp only [Deed.plan, asked, Deed.isLeaf]
      rw [follow_bound]
      cases bindAll l.context bindings with
      | error e => rfl
      | ok scope => rfl
  | splice s arguments required =>
      rw [perform, activateSource_eq]
      rfl
  | compute f =>
      rw [perform, activateYield_eq]
      rfl
  | _ => rfl

/-- An action is activated: its record is opened, its condition asked, its deed performed and its
record closed. -/
theorem activate_eq (a : Action) (l : Launch) :
    activate a l =
      match (l.enter a).2.gate l.journal.size a with
      | (m, some outcome) => leave l.journal.size (m, outcome)
      | (m, none) =>
          leave l.journal.size
            (settle l.journal.size a.deed (perform l.journal.size a a.deed m)) := by
  obtain ⟨id, condition, deed⟩ := a
  rw [activate]
  rfl

/-- The condition lets the action through: its deed is performed in the second launch. -/
def Admits (l : Launch) (a : Action) (m : Launch) : Prop :=
  (l.enter a).2.gate l.journal.size a = (m, none)

theorem activate_of_admits {l m : Launch} {a : Action} (h : l.Admits a m) :
    activate a l =
      leave l.journal.size (settle l.journal.size a.deed (perform l.journal.size a a.deed m)) := by
  rw [activate_eq, h]

/-- The children that a deed performed in the launch comes to activate, and the launch in which
the first of them is. -/
def opens (m : Launch) (d : Deed) : Option (List Action × Launch) :=
  match d.plan m.context with
  | .direct => none
  | .refused _ => none
  | .here children => some (children, m.asked d)
  | .inside scope children => some (children, (m.asked d).beginGroup.inScope scope)

end Launch

/-- Whether the failure of the action ends the list of children that it stands in. -/
def Outcome.escalates : Outcome → Bool
  | .failed escalates _ => escalates
  | _ => false

namespace Launch

variable {l : Launch}

theorem activateChildren_of_escalates {a : Action} {reason : String}
    (h : (activate a l).2 = .failed true reason) (rest : List Action) :
    activateChildren (a :: rest) l =
      ((activate a l).1.skipAll rest "enclosing group failed",
        some (.childFailed a.label reason)) := by
  rw [activateChildren, ← Prod.eta (activate a l), h]

theorem activateChildren_of_not_escalates {a : Action} (h : (activate a l).2.escalates = false)
    (rest : List Action) :
    activateChildren (a :: rest) l = activateChildren rest (activate a l).1 := by
  rw [activateChildren]
  split
  · rename_i heq
    rw [heq] at h
    cases h
  · rename_i heq
    rw [heq]

theorem exists_reason_of_escalates {o : Outcome} (h : o.escalates = true) :
    ∃ reason, o = .failed true reason := by
  cases o with
  | failed escalates reason =>
      obtain rfl : escalates = true := h
      exact ⟨reason, rfl⟩
  | _ => cases h

end Launch

mutual

/-- In the course of the activation of an action in a launch, the deed of another action is
performed in another launch. -/
inductive Reaches : Action → Launch → Action → Launch → Prop where
  | self {a : Action} {l m : Launch} (h : l.Admits a m) : Reaches a l a m
  | child {a b : Action} {l m k n : Launch} {children : List Action} (h : l.Admits a m)
      (ho : m.opens a.deed = some (children, k)) (hc : ChildrenReach children k b n) :
      Reaches a l b n

/-- The same for a list of children, which ends with the first one whose failure escalates. -/
inductive ChildrenReach : List Action → Launch → Action → Launch → Prop where
  | head {a b : Action} {l m : Launch} {rest : List Action} (h : Reaches a l b m) :
      ChildrenReach (a :: rest) l b m
  | tail {a b : Action} {l m : Launch} {rest : List Action}
      (ha : (Launch.activate a l).2.escalates = false)
      (h : ChildrenReach rest (Launch.activate a l).1 b m) : ChildrenReach (a :: rest) l b m

end

/-- The same for a body, of which every action is activated. -/
inductive BodyReaches : List Action → Launch → Action → Launch → Prop where
  | head {a b : Action} {l m : Launch} {rest : List Action} (h : Reaches a l b m) :
      BodyReaches (a :: rest) l b m
  | tail {a b : Action} {l m : Launch} {rest : List Action}
      (h : BodyReaches rest (Launch.activate a l).1 b m) : BodyReaches (a :: rest) l b m

/-! ## What is reached comes from the action -/

section Every

variable {p : Deed → Prop}

theorem Deed.Every.plan {d : Deed} (h : d.Every p) (c : Context) :
    ∀ b ∈ (d.plan c).children, b.Every p := by
  intro b hb
  cases d with
  | group bindings children =>
      exact everyDeed_iff.mp h.2 b (Plan.mem_of_mem_children_bound hb)
  | splice source arguments required =>
      have hyield : (source.load c).Every p := by
        cases source with
        | inline children => exact h.2
        | computed name f => exact h.2 c
        | file path parse =>
            rw [Source.load]
            split
            · trivial
            · exact h.2 _
      rw [Deed.plan] at hb
      cases hload : source.load c with
      | actions children =>
          rw [hload] at hb hyield
          exact everyDeed_iff.mp hyield b (Plan.mem_of_mem_children_bound hb)
      | interrupt =>
          rw [hload] at hb
          exact absurd (Plan.mem_of_mem_children_bound hb) List.not_mem_nil
      | failure e =>
          rw [hload] at hb
          cases hb
  | compute f =>
      have hyield := h.2 c
      rw [Deed.plan] at hb
      cases hf : f c with
      | actions children =>
          rw [hf] at hb hyield
          exact everyDeed_iff.mp hyield b hb
      | interrupt =>
          rw [hf] at hb
          cases hb
      | failure e =>
          rw [hf] at hb
          cases hb
  | _ => cases hb

theorem Deed.Every.opens {m k : Launch} {d : Deed} {children : List Action} (h : d.Every p)
    (ho : m.opens d = some (children, k)) : ∀ b ∈ children, b.Every p := by
  have hplan := h.plan m.context
  unfold Launch.opens at ho
  split at ho
  · cases ho
  · cases ho
  · rename_i hp
    cases ho
    rw [hp] at hplan
    exact hplan
  · rename_i hp
    cases ho
    rw [hp] at hplan
    exact hplan

mutual

/-- What holds of every deed that the action can come to holds of those that it does come to. -/
theorem Reaches.every {a b : Action} {l m : Launch} (h : Reaches a l b m) (ha : a.Every p) :
    p b.deed :=
  match h with
  | .self _ => (Action.every_iff.mp ha).self
  | .child _ ho hc => hc.every ((Action.every_iff.mp ha).opens ho)

theorem ChildrenReach.every {as : List Action} {b : Action} {l m : Launch}
    (h : ChildrenReach as l b m) (has : ∀ a ∈ as, a.Every p) : p b.deed :=
  match h with
  | .head h => h.every (has _ List.mem_cons_self)
  | .tail _ h => h.every fun a ha => has a (List.mem_cons_of_mem _ ha)

end

theorem BodyReaches.every {as : List Action} {b : Action} {l m : Launch}
    (h : BodyReaches as l b m) (has : ∀ a ∈ as, a.Every p) : p b.deed := by
  induction h with
  | head h => exact h.every (has _ List.mem_cons_self)
  | tail _ ih => exact ih fun a ha => has a (List.mem_cons_of_mem _ ha)

end Every

end Conductor
