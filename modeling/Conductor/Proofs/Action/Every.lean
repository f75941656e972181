import Conductor.Action

/-!
# What holds of every deed

`Action.Every p a` says that `p` holds of every deed that activating `a` can come to: its
own, those of its children, of the bodies it leaves behind, and of whatever its functions
yield, in any context. Restrictions on descriptions are stated with it: a description in
which nothing reports the end of a process, say, or one that sets no variable of the root.
-/

namespace Conductor

mutual

/-- The predicate holds of every deed that the action can come to. -/
def Action.Every (p : Deed → Prop) : Action → Prop
  | .mk _ _ d => d.Every p

/-- The predicate holds of the deed and of every deed it can come to. -/
def Deed.Every (p : Deed → Prop) : Deed → Prop
  | .execute t onExit => p (.execute t onExit) ∧ everyDeed p onExit
  | .group bs children => p (.group bs children) ∧ everyDeed p children
  | .splice s args required => p (.splice s args required) ∧ s.Every p
  | .register h => p (.register h) ∧ h.Every p
  | .timer period children cancel => p (.timer period children cancel) ∧ everyDeed p children
  | .compute f => p (.compute f) ∧ ∀ c, (f c).Every p
  | d => p d

def Yield.Every (p : Deed → Prop) : Yield → Prop
  | .actions as => everyDeed p as
  | .failure _ => True
  | .interrupt => True

def Source.Every (p : Deed → Prop) : Source → Prop
  | .inline children => everyDeed p children
  | .computed _ f => ∀ c, (f c).Every p
  | .file _ parse => ∀ text, (parse text).Every p

def Body.Every (p : Deed → Prop) : Body → Prop
  | .actions as => everyDeed p as
  | .computed f => ∀ e c, (f e c).Every p

def Handler.Every (p : Deed → Prop) : Handler → Prop
  | .mk _ _ b _ _ => b.Every p

/-- The predicate holds of every deed that one of the actions can come to. -/
def everyDeed (p : Deed → Prop) : List Action → Prop
  | [] => True
  | a :: rest => a.Every p ∧ everyDeed p rest

end

variable {p : Deed → Prop}

@[simp] theorem everyDeed_iff {as : List Action} : everyDeed p as ↔ ∀ a ∈ as, a.Every p := by
  induction as with
  | nil => simp [everyDeed]
  | cons a rest ih => simp [everyDeed, ih]

theorem Action.every_iff {a : Action} : a.Every p ↔ a.deed.Every p := by
  cases a
  rfl

theorem Deed.Every.self {d : Deed} (h : d.Every p) : p d := by
  cases d <;> first | exact h.1 | exact h

/-- What follows the end of a process comes from the action that started it. -/
theorem Action.Every.onExit {a : Action} {t : ProcessTemplate} {onExit : List Action}
    (h : a.Every p) (hd : a.deed = .execute t onExit) : ∀ b ∈ onExit, b.Every p := by
  rw [Action.every_iff, hd] at h
  exact everyDeed_iff.mp h.2

theorem Handler.every_onExitOf {id : ProcessId} {as : List Action} {scope : Scope} :
    (Handler.onExitOf id as scope).Every p ↔ ∀ a ∈ as, a.Every p := by
  rw [Handler.onExitOf, Handler.Every, Body.Every, everyDeed_iff]

theorem Handler.every_withTrigger {h : Handler} {t : Trigger} :
    (h.withTrigger t).Every p ↔ h.Every p := by
  cases h
  rfl

/-- Whatever a handler yields comes from its body. -/
theorem Handler.Every.produce {h : Handler} (hh : h.Every p) (e : Event) (c : Context) :
    (h.body.produce e c).Every p := by
  obtain ⟨name, trigger, body, once, scope⟩ := h
  cases body with
  | actions as => exact hh
  | computed f => exact hh e c

/-! What holds of all deeds holds of every deed of every action. -/

mutual

theorem Action.every_of_forall (h : ∀ d, p d) : ∀ a : Action, a.Every p
  | .mk _ _ d => Deed.every_of_forall h d

theorem Deed.every_of_forall (h : ∀ d, p d) : ∀ d : Deed, d.Every p
  | .log .. => h _
  | .execute _ onExit => ⟨h _, everyDeed_of_forall h onExit⟩
  | .group _ children => ⟨h _, everyDeed_of_forall h children⟩
  | .splice s _ _ => ⟨h _, Source.every_of_forall h s⟩
  | .declare _ => h _
  | .setVariable .. => h _
  | .unsetVariable _ => h _
  | .setEnv .. => h _
  | .unsetEnv _ => h _
  | .register b => ⟨h _, Handler.every_of_forall h b⟩
  | .unregister _ => h _
  | .emit _ => h _
  | .timer _ children _ => ⟨h _, everyDeed_of_forall h children⟩
  | .shutdown _ => h _
  | .compute f => ⟨h _, fun c => Yield.every_of_forall h (f c)⟩

theorem Yield.every_of_forall (h : ∀ d, p d) : ∀ y : Yield, y.Every p
  | .actions as => everyDeed_of_forall h as
  | .failure _ => trivial
  | .interrupt => trivial

theorem Source.every_of_forall (h : ∀ d, p d) : ∀ s : Source, s.Every p
  | .inline children => everyDeed_of_forall h children
  | .computed _ f => fun c => Yield.every_of_forall h (f c)
  | .file _ parse => fun text => Yield.every_of_forall h (parse text)

theorem Body.every_of_forall (h : ∀ d, p d) : ∀ b : Body, b.Every p
  | .actions as => everyDeed_of_forall h as
  | .computed f => fun e c => Yield.every_of_forall h (f e c)

theorem Handler.every_of_forall (h : ∀ d, p d) : ∀ b : Handler, b.Every p
  | .mk _ _ b _ _ => Body.every_of_forall h b

theorem everyDeed_of_forall (h : ∀ d, p d) : ∀ as : List Action, everyDeed p as
  | [] => trivial
  | a :: rest => ⟨Action.every_of_forall h a, everyDeed_of_forall h rest⟩

end

/-- Without a restriction all actions will do. -/
theorem Action.every_true (as : List Action) : ∀ a ∈ as, a.Every fun _ => True :=
  fun a _ => a.every_of_forall fun _ => trivial

end Conductor
