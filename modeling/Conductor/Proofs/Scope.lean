import Mathlib.Data.List.Forall2
import Conductor.Scope

/-!
# What becomes of a stack of scopes

A stack is compared with what it was before. `ScopeStack.Spares` says that scope for scope
nothing is different but variables that were removed and, in the root, variables that were
written. `ScopeStack.Shelters` says so of the scopes below the innermost one, which may have
changed at will; once the innermost scope has been left, the stack is spared
(`Shelters.truncate`).
-/

namespace Conductor

namespace Scope

variable {removed removed' : String → Prop} {written written' : String → Value → Prop}
  {s t u : Scope}

/-- Variables are missing only if they were removed, and have other values only if these were
written. The environment is the same. -/
structure Spares (removed : String → Prop) (written : String → Value → Prop) (s t : Scope) :
    Prop where
  env : t.env = s.env
  vars : ∀ n, t.vars.get? n = s.vars.get? n ∨ (removed n ∧ t.vars.get? n = none) ∨
    ∃ v, written n v ∧ t.vars.get? n = some v

theorem ext_get? (hv : ∀ n, s.vars.get? n = t.vars.get? n) (he : ∀ n, s.env.get? n = t.env.get? n) :
    s = t := by
  obtain ⟨vars, env⟩ := s
  obtain ⟨vars', env'⟩ := t
  obtain rfl : vars = vars' := Table.ext_get? hv
  obtain rfl : env = env' := Table.ext_get? he
  rfl

namespace Spares

theorem refl (s : Scope) : s.Spares removed written s :=
  ⟨rfl, fun _ => .inl rfl⟩

theorem trans (h : s.Spares removed written t) (h' : t.Spares removed written u) :
    s.Spares removed written u := by
  refine ⟨h'.env.trans h.env, fun n => ?_⟩
  rcases h'.vars n with hn | hn
  · rw [hn]
    exact h.vars n
  · exact .inr hn

theorem mono (hr : ∀ n, removed n → removed' n) (hw : ∀ n v, written n v → written' n v)
    (h : s.Spares removed written t) : s.Spares removed' written' t := by
  refine ⟨h.env, fun n => ?_⟩
  rcases h.vars n with hn | ⟨hn, hnone⟩ | ⟨v, hv, hsome⟩
  · exact .inl hn
  · exact .inr (.inl ⟨hr n hn, hnone⟩)
  · exact .inr (.inr ⟨v, hw n v hv, hsome⟩)

/-- What was neither removed nor written is the same. -/
theorem eq (hr : ∀ n, ¬ removed n) (hw : ∀ n v, ¬ written n v)
    (h : s.Spares removed written t) : t = s := by
  refine Scope.ext_get? (fun n => ?_) fun n => congrArg (·.get? n) h.env
  rcases h.vars n with hn | ⟨hn, -⟩ | ⟨v, hv, -⟩
  · exact hn
  · exact absurd hn (hr n)
  · exact absurd hv (hw n v)

theorem setVar {n : String} {v : Value} (hw : written n v) (s : Scope) :
    s.Spares removed written (s.setVar n v) := by
  refine ⟨rfl, fun n' => ?_⟩
  have hget : (s.setVar n v).vars.get? n' = if n' = n then some v else s.vars.get? n' :=
    Table.get?_insert s.vars n n' v
  rw [hget]
  by_cases h : n' = n
  · subst h
    rw [if_pos rfl]
    exact .inr (.inr ⟨v, hw, rfl⟩)
  · rw [if_neg h]
    exact .inl rfl

theorem eraseVar {n : String} (hr : removed n) (s : Scope) :
    s.Spares removed written (s.eraseVar n) := by
  refine ⟨rfl, fun n' => ?_⟩
  have hget : (s.eraseVar n).vars.get? n' = if n' = n then none else s.vars.get? n' :=
    Table.get?_erase s.vars n n'
  rw [hget]
  by_cases h : n' = n
  · subst h
    rw [if_pos rfl]
    exact .inr (.inl ⟨hr, rfl⟩)
  · rw [if_neg h]
    exact .inl rfl

end Spares

/-! ## Lists of scopes -/

/-- Scope for scope nothing is different but variables that were removed. -/
abbrev SpareAll (removed : String → Prop) : List Scope → List Scope → Prop :=
  List.Forall₂ (Spares removed fun _ _ => False)

namespace SpareAll

variable {ss ts us : List Scope}

theorem refl (ss : List Scope) : SpareAll removed ss ss :=
  List.forall₂_same.mpr fun s _ => Spares.refl s

theorem trans (h : SpareAll removed ss ts) (h' : SpareAll removed ts us) :
    SpareAll removed ss us := by
  induction h generalizing us with
  | nil => exact h'
  | cons hs _ ih =>
      cases h' with
      | cons ht hrest => exact .cons (hs.trans ht) (ih hrest)

theorem mono (hr : ∀ n, removed n → removed' n) (h : SpareAll removed ss ts) :
    SpareAll removed' ss ts :=
  List.Forall₂.imp (fun _ _ hs => hs.mono hr fun _ _ => id) h

theorem eq (hr : ∀ n, ¬ removed n) (h : SpareAll removed ss ts) : ts = ss := by
  induction h with
  | nil => rfl
  | cons hs _ ih => rw [hs.eq hr fun _ _ => id, ih]

theorem eraseFirst {n : String} (hr : removed n) (ss : List Scope) :
    SpareAll removed ss (ScopeStack.eraseFirst n ss) := by
  induction ss with
  | nil => exact .nil
  | cons s rest ih =>
      unfold ScopeStack.eraseFirst
      split
      · exact .cons (.eraseVar hr s) (SpareAll.refl rest)
      · exact .cons (.refl s) ih

end SpareAll

end Scope

namespace ScopeStack

variable {removed removed' : String → Prop} {written written' : String → Value → Prop}
  {s t u : ScopeStack}

/-- Scope for scope nothing is different but variables that were removed and, in the root,
variables that were written. -/
structure Spares (removed : String → Prop) (written : String → Value → Prop)
    (s t : ScopeStack) : Prop where
  inner : Scope.SpareAll removed s.inner t.inner
  root : s.root.Spares removed written t.root

/-- The same of the scopes below the innermost one. -/
inductive Shelters (removed : String → Prop) (written : String → Value → Prop) :
    ScopeStack → ScopeStack → Prop where
  /-- There is only the root, and it is the innermost scope. -/
  | root (s t : Scope) : Shelters removed written ⟨[], s⟩ ⟨[], t⟩
  | inner (top top' : Scope) {below below' : List Scope} {root root' : Scope}
      (hbelow : Scope.SpareAll removed below below') (hroot : root.Spares removed written root') :
      Shelters removed written ⟨top :: below, root⟩ ⟨top' :: below', root'⟩

namespace Spares

theorem eq (hr : ∀ n, ¬ removed n) (hw : ∀ n v, ¬ written n v)
    (h : s.Spares removed written t) : t = s := by
  obtain ⟨inner, root⟩ := s
  obtain ⟨inner', root'⟩ := t
  obtain ⟨hinner, hroot⟩ := h
  obtain rfl : inner' = inner := hinner.eq hr
  obtain rfl : root' = root := hroot.eq hr hw
  rfl

theorem shelters (h : s.Spares removed written t) : s.Shelters removed written t := by
  obtain ⟨inner, root⟩ := s
  obtain ⟨inner', root'⟩ := t
  obtain ⟨hinner, hroot⟩ := h
  cases hinner with
  | nil => exact .root root root'
  | cons _ hbelow => exact .inner _ _ hbelow hroot

/-- A variable is removed from one scope at most. -/
theorem unset {n : String} (hr : removed n) (s : ScopeStack) :
    s.Spares removed written (s.unset n) := by
  unfold ScopeStack.unset
  split
  · exact ⟨.eraseFirst hr s.inner, .refl s.root⟩
  · exact ⟨.refl s.inner, .eraseVar hr s.root⟩

theorem modifyRoot {n : String} {v : Value} (hw : written n v) (s : ScopeStack) :
    s.Spares removed written (s.modifyRoot (·.setVar n v)) :=
  ⟨.refl s.inner, .setVar hw s.root⟩

end Spares

namespace Shelters

theorem refl (s : ScopeStack) : s.Shelters removed written s :=
  Spares.shelters ⟨.refl s.inner, .refl s.root⟩

theorem trans (h : s.Shelters removed written t) (h' : t.Shelters removed written u) :
    s.Shelters removed written u := by
  cases h with
  | root s t =>
      cases h' with
      | root _ u => exact .root s u
  | inner top top' hbelow hroot =>
      cases h' with
      | inner _ top'' hbelow' hroot' =>
          exact .inner top top'' (hbelow.trans hbelow') (hroot.trans hroot')

theorem mono (hr : ∀ n, removed n → removed' n) (hw : ∀ n v, written n v → written' n v)
    (h : s.Shelters removed written t) : s.Shelters removed' written' t := by
  cases h with
  | root s t => exact .root s t
  | inner top top' hbelow hroot => exact .inner top top' (hbelow.mono hr) (hroot.mono hr hw)

theorem depth (h : s.Shelters removed written t) : t.depth = s.depth := by
  cases h with
  | root => rfl
  | inner _ _ hbelow _ =>
      show _ + 1 + 1 = _ + 1 + 1
      rw [hbelow.length_eq]

theorem modifyTop (f : Scope → Scope) (s : ScopeStack) :
    s.Shelters removed written (s.modifyTop f) := by
  obtain ⟨inner, root⟩ := s
  cases inner with
  | nil => exact .root root (f root)
  | cons top below => exact .inner top (f top) (.refl below) (.refl root)

/-- A scope takes what was done in it along when it is left. -/
theorem truncate {top : Scope} (h : (s.push top).Shelters removed written t) :
    s.Spares removed written (t.truncate s.depth) := by
  obtain ⟨inner, root⟩ := s
  cases h with
  | inner _ top' hbelow hroot =>
      rename_i below' root'
      have hdrop : (⟨top' :: below', root'⟩ : ScopeStack).truncate (inner.length + 1) =
          ⟨below', root'⟩ := by
        rw [hbelow.length_eq]
        exact truncate_push ⟨below', root'⟩ top'
      show Spares removed written _ (truncate _ (inner.length + 1))
      rw [hdrop]
      exact ⟨hbelow, hroot⟩

end Shelters

end ScopeStack

end Conductor
