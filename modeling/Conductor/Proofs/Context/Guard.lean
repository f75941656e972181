import Mathlib.Data.List.Forall2
import Conductor.Context

/-!
# Scopes under a guard

A guard pushes a scope. What is done under it is any sequence of operations on the context, guards
among them, and when it is dropped, the scopes above the depth at which it was made are left
(`Context.perform`). So no scope stays behind; and as long as the operations leave no scope that was
there before, the depth is what it was and these scopes are still there. A scope that they do leave
is not put back.
-/

namespace Conductor

/-- What a scope can bind. -/
inductive Binding where
  | variable (name : String)
  | environment (name : String)
  deriving DecidableEq

namespace Scope

variable {named named' : List Binding} {s t u : Scope}

/-- The scopes bind the same but for what is named. -/
structure AgreesBut (named : List Binding) (s t : Scope) : Prop where
  vars : ∀ n, .variable n ∉ named → t.vars.get? n = s.vars.get? n
  env : ∀ n, .environment n ∉ named → t.env.get? n = s.env.get? n

namespace AgreesBut

theorem refl (s : Scope) : s.AgreesBut named s :=
  ⟨fun _ _ => rfl, fun _ _ => rfl⟩

theorem trans (h : s.AgreesBut named t) (h' : t.AgreesBut named u) : s.AgreesBut named u :=
  ⟨fun n hn => (h'.vars n hn).trans (h.vars n hn), fun n hn => (h'.env n hn).trans (h.env n hn)⟩

theorem mono (hsub : named ⊆ named') (h : s.AgreesBut named t) : s.AgreesBut named' t :=
  ⟨fun n hn => h.vars n fun hmem => hn (hsub hmem), fun n hn => h.env n fun hmem => hn (hsub hmem)⟩

theorem setVar (s : Scope) (n : String) (v : Value) :
    s.AgreesBut [.variable n] (s.setVar n v) := by
  refine ⟨fun m hm => ?_, fun _ _ => rfl⟩
  have hne : m ≠ n := fun heq => hm (by simp [heq])
  simp [Scope.setVar, hne]

theorem eraseVar (s : Scope) (n : String) : s.AgreesBut [.variable n] (s.eraseVar n) := by
  refine ⟨fun m hm => ?_, fun _ _ => rfl⟩
  have hne : m ≠ n := fun heq => hm (by simp [heq])
  simp [Scope.eraseVar, hne]

theorem setEnv (s : Scope) (n : String) (v : Option String) :
    s.AgreesBut [.environment n] (s.setEnv n v) := by
  refine ⟨fun _ _ => rfl, fun m hm => ?_⟩
  have hne : m ≠ n := fun heq => hm (by simp [heq])
  simp [Scope.setEnv, hne]

end AgreesBut

end Scope

/-! ## Stacks from the root on -/

namespace ScopeStack

/-- All scopes, the root first. -/
def levels (s : ScopeStack) : List Scope :=
  s.toList.reverse

@[simp] theorem length_levels (s : ScopeStack) : s.levels.length = s.depth := by
  simp [levels, toList, depth]

@[simp] theorem levels_push (s : ScopeStack) (top : Scope) :
    (s.push top).levels = s.levels ++ [top] := by
  simp [levels, toList, push]

theorem levels_of_pop? {s t : ScopeStack} {top : Scope} (h : s.pop? = some (top, t)) :
    s.levels = t.levels ++ [top] := by
  obtain ⟨inner, root⟩ := s
  cases inner with
  | nil => cases h
  | cons _ rest =>
      cases h
      exact levels_push ⟨rest, root⟩ top

theorem levels_truncate (s : ScopeStack) (depth : Nat) :
    (s.truncate depth).levels = s.levels.take (max depth 1) := by
  obtain ⟨inner, root⟩ := s
  obtain ⟨d, hd⟩ : ∃ d, max depth 1 = d + 1 := ⟨max depth 1 - 1, by omega⟩
  simp only [levels, toList, truncate, hd, List.reverse_append, List.reverse_singleton,
    List.singleton_append, List.take_succ_cons, List.reverse_drop]
  congr 1
  rw [List.take_eq_take_iff, List.length_reverse]
  omega

@[simp] theorem depth_truncate (s : ScopeStack) (depth : Nat) :
    (s.truncate depth).depth = min (max depth 1) s.depth := by
  rw [← length_levels, levels_truncate, List.length_take, length_levels]

variable {named named' : List Binding} {s t u : ScopeStack} {k : Nat}

/-- Scope for scope the stacks bind the same but for what is named. -/
abbrev AgreesBut (named : List Binding) (s t : ScopeStack) : Prop :=
  List.Forall₂ (Scope.AgreesBut named) s.levels t.levels

namespace AgreesBut

theorem of_toList (h : List.Forall₂ (Scope.AgreesBut named) s.toList t.toList) :
    s.AgreesBut named t :=
  List.forall₂_reverse_iff.mpr h

theorem refl (s : ScopeStack) : s.AgreesBut named s :=
  List.forall₂_same.mpr fun x _ => .refl x

theorem modifyTop {f : Scope → Scope} (hf : ∀ x : Scope, x.AgreesBut named (f x))
    (s : ScopeStack) : s.AgreesBut named (s.modifyTop f) := by
  obtain ⟨inner, root⟩ := s
  cases inner with
  | nil => exact .of_toList (.cons (hf root) .nil)
  | cons top rest =>
      exact .of_toList (.cons (hf top) (List.forall₂_same.mpr fun x _ => .refl x))

theorem modifyRoot {f : Scope → Scope} (hf : ∀ x : Scope, x.AgreesBut named (f x))
    (s : ScopeStack) : s.AgreesBut named (s.modifyRoot f) :=
  .of_toList (List.rel_append (List.forall₂_same.mpr fun x _ => .refl x) (.cons (hf s.root) .nil))

theorem eraseFirst (n : String) (ss : List Scope) :
    List.Forall₂ (Scope.AgreesBut [.variable n]) ss (eraseFirst n ss) := by
  induction ss with
  | nil => exact .nil
  | cons s rest ih =>
      unfold ScopeStack.eraseFirst
      split
      · exact .cons (.eraseVar s n) (List.forall₂_same.mpr fun x _ => .refl x)
      · exact .cons (.refl s) ih

theorem unset (n : String) (s : ScopeStack) : s.AgreesBut [.variable n] (s.unset n) := by
  unfold ScopeStack.unset
  split
  · exact .of_toList (List.rel_append (eraseFirst n s.inner) (.cons (.refl s.root) .nil))
  · exact .of_toList (List.rel_append (List.forall₂_same.mpr fun x _ => .refl x)
      (.cons (.eraseVar s.root n) .nil))

end AgreesBut

/-- So many scopes from the root on are still there: they bind the same but for what is named. -/
def Keeps (k : Nat) (named : List Binding) (s t : ScopeStack) : Prop :=
  List.Forall₂ (Scope.AgreesBut named) (s.levels.take k) (t.levels.take k)

namespace Keeps

theorem of_levels (h : s.levels.take k = t.levels.take k) : s.Keeps k named t := by
  unfold Keeps
  rw [h]
  exact List.forall₂_same.mpr fun x _ => .refl x

theorem of_agreesBut (h : s.AgreesBut named t) : s.Keeps k named t :=
  List.forall₂_take k h

theorem trans (h : s.Keeps k named t) (h' : t.Keeps k named u) : s.Keeps k named u := by
  unfold Keeps at h h' ⊢
  generalize s.levels.take k = ss, t.levels.take k = ts, u.levels.take k = us at h h' ⊢
  induction h generalizing us with
  | nil => exact h'
  | cons hs _ ih =>
      cases h' with
      | cons ht hrest => exact .cons (hs.trans ht) (ih _ hrest)

theorem mono (hsub : named ⊆ named') (h : s.Keeps k named t) : s.Keeps k named' t :=
  List.Forall₂.imp (fun _ _ hs => hs.mono hsub) h

theorem push (h : k ≤ s.depth) (top : Scope) : s.Keeps k named (s.push top) := by
  apply of_levels
  rw [levels_push, List.take_append_of_le_length (by rwa [length_levels])]

theorem truncate {depth : Nat} (h : k ≤ depth) (s : ScopeStack) :
    s.Keeps k named (s.truncate depth) := by
  apply of_levels
  rw [levels_truncate, List.take_take, Nat.min_eq_left (Nat.le_trans h (Nat.le_max_left _ _))]

/-- If all scopes of a stack are still there, and no others, the stacks agree. -/
theorem agreesBut (h : s.Keeps s.depth named t) (hdepth : t.depth = s.depth) :
    s.AgreesBut named t := by
  unfold Keeps at h
  rwa [List.take_of_length_le (Nat.le_of_eq s.length_levels),
    List.take_of_length_le (Nat.le_of_eq (t.length_levels.trans hdepth))] at h

end Keeps

end ScopeStack

namespace Context

/-- What can be done to a context. -/
inductive Operation where
  | push (s : Scope)
  | pop
  | write (target : Target) (name : String) (v : Value)
  | unset (name : String)
  | setEnv (name : String) (value : Option String)
  | declare (a : Argument)
  | allowRedeclare (allow : Bool)
  | setWritePolicy (policy : WritePolicy)
  | emit (e : Event)
  | takeEvent
  /-- Operations under a guard. -/
  | guarded (s : Scope) (body : List Operation)

mutual

def perform (c : Context) : Operation → Context
  | .push s => c.push s
  | .pop =>
      match c.scopes.pop? with
      | none => c
      | some (_, scopes) => { c with scopes }
  | .write target name v => (c.write target name v).2
  | .unset name => c.unset name
  | .setEnv name value => c.setEnv name value
  | .declare a =>
      match c.declare a with
      | .ok c => c
      | .error _ => c
  | .allowRedeclare allow => { c with allowRedeclare := allow }
  | .setWritePolicy policy => { c with writePolicy := policy }
  | .emit e => c.emit e
  | .takeEvent =>
      match c.next? with
      | none => c
      | some (_, c) => c
  | .guarded s body => (performAll (c.push s) body).restore c.depth

def performAll (c : Context) : List Operation → Context
  | [] => c
  | o :: rest => performAll (c.perform o) rest

end

mutual

/-- The least depth during an operation and after it. -/
def lowest (c : Context) : Operation → Nat
  | .guarded s body => min c.depth (lowestAll (c.push s) body)
  | o => (c.perform o).depth

def lowestAll (c : Context) : List Operation → Nat
  | [] => c.depth
  | o :: rest => min c.depth (min (c.lowest o) (lowestAll (c.perform o) rest))

end

mutual

/-- What an operation names. -/
def Operation.named : Operation → List Binding
  | .write _ name _ => [.variable name]
  | .unset name => [.variable name]
  | .setEnv name _ => [.environment name]
  | .declare a => [.variable a.name]
  | .guarded _ body => allNamed body
  | _ => []

def Operation.allNamed : List Operation → List Binding
  | [] => []
  | o :: rest => o.named ++ allNamed rest

end

variable {c : Context} {k : Nat}

theorem lowestAll_le_depth (c : Context) (os : List Operation) :
    c.lowestAll os ≤ (c.performAll os).depth := by
  induction os generalizing c with
  | nil => exact Nat.le_refl _
  | cons o rest ih =>
      refine Nat.le_trans ?_ (ih (c.perform o))
      rw [lowestAll]
      exact Nat.le_trans (Nat.min_le_right _ _) (Nat.min_le_right _ _)

theorem scopes_pop (c : Context) : (c.perform .pop).scopes = c.scopes ∨
    ∃ top, c.scopes.levels = (c.perform .pop).scopes.levels ++ [top] := by
  rw [perform]
  split
  · exact .inl rfl
  · rename_i top scopes h
    exact .inr ⟨top, ScopeStack.levels_of_pop? h⟩

/-! ### Operations that enter and leave no scope -/

theorem agreesBut_bind (c : Context) (target : Target) (name : String) (v : Value) :
    c.scopes.AgreesBut [.variable name] (c.bind target name v).scopes := by
  cases target with
  | innermost => exact .modifyTop (fun x => .setVar x name v) c.scopes
  | root => exact .modifyRoot (fun x => .setVar x name v) c.scopes

theorem agreesBut_write (c : Context) (target : Target) (name : String) (v : Value) :
    c.scopes.AgreesBut [.variable name] (c.write target name v).2.scopes := by
  have hasked := scopes_requestWrite c name
  unfold write
  split
  · rename_i d heq
    rw [heq] at hasked
    rw [← hasked]
    exact d.agreesBut_bind target name v
  · rename_i d heq
    rw [heq] at hasked
    rw [← hasked]
    exact .refl _

theorem agreesBut_declare (c : Context) (a : Argument) :
    c.scopes.AgreesBut [.variable a.name] (c.perform (.declare a)).scopes := by
  rw [perform]
  split
  · rename_i d h
    rcases scopes_declare h with hsame | ⟨-, text, hbound⟩
    · rw [hsame]
      exact .refl _
    · rw [hbound]
      exact .modifyTop (fun x => .setVar x a.name (.text text)) c.scopes
  · exact .refl _

theorem scopes_takeEvent (c : Context) : (c.perform .takeEvent).scopes = c.scopes := by
  rw [perform]
  split
  · rfl
  · rename_i e d h
    unfold next? at h
    split at h
    · cases h
    · cases h
      rfl

/-! ### Operations one after the other -/

mutual

/-- The scopes below the lowest level that an operation comes to are still there. -/
theorem keeps_perform : ∀ (o : Operation) (c : Context), k ≤ c.depth → k ≤ c.lowest o →
    c.scopes.Keeps k o.named (c.perform o).scopes
  | .push s, c, hk, _ => .push hk s
  | .pop, c, hk, hlow => by
      rcases c.scopes_pop with h | ⟨top, h⟩
      · rw [h]
        exact .of_levels rfl
      · apply ScopeStack.Keeps.of_levels
        rw [h, List.take_append_of_le_length]
        rw [ScopeStack.length_levels]
        exact hlow
  | .write target name v, c, _, _ => .of_agreesBut (c.agreesBut_write target name v)
  | .unset name, c, _, _ => .of_agreesBut (.unset name c.scopes)
  | .setEnv name value, c, _, _ => .of_agreesBut (.modifyTop (fun x => .setEnv x name value) _)
  | .declare a, c, _, _ => .of_agreesBut (c.agreesBut_declare a)
  | .allowRedeclare _, c, _, _ => .of_levels rfl
  | .setWritePolicy _, c, _, _ => .of_levels rfl
  | .emit _, c, _, _ => .of_levels rfl
  | .takeEvent, c, _, _ => .of_levels (by rw [scopes_takeEvent])
  | .guarded s body, c, hk, hlow => by
      have hbody : k ≤ (c.push s).lowestAll body := Nat.le_trans hlow (Nat.min_le_right _ _)
      have hpushed : c.scopes.Keeps k (Operation.allNamed body) (c.push s).scopes := .push hk s
      rw [perform, Operation.named]
      exact (hpushed.trans (keeps_performAll body (c.push s) hbody)).trans (.truncate hk _)

theorem keeps_performAll : ∀ (os : List Operation) (c : Context), k ≤ c.lowestAll os →
    c.scopes.Keeps k (Operation.allNamed os) (c.performAll os).scopes
  | [], c, _ => .of_levels rfl
  | o :: rest, c, h => by
      rw [lowestAll, Nat.le_min, Nat.le_min] at h
      obtain ⟨hk, hlow, hrest⟩ := h
      rw [performAll, Operation.allNamed]
      exact ((keeps_perform o c hk hlow).mono (List.subset_append_left _ _)).trans
        ((keeps_performAll rest (c.perform o) hrest).mono (List.subset_append_right _ _))

end

/-! ## What a guard restores -/

theorem one_le_depth (c : Context) : 1 ≤ c.depth :=
  Nat.le_add_left _ _

/-- A guard leaves scopes only: the depth is what it was before, or less. -/
theorem depth_guarded (c : Context) (s : Scope) (body : List Operation) :
    (c.perform (.guarded s body)).depth = min c.depth ((c.push s).performAll body).depth := by
  rw [perform]
  show (ScopeStack.truncate _ _).depth = _
  rw [ScopeStack.depth_truncate, Nat.max_eq_left c.one_le_depth]
  rfl

/-- **What a guard restores.** When it is dropped, no scope entered under it is left; the depth is
what it was before unless the operations under the guard came out at a lower one. The scopes that
were there before are still there up to the lowest depth that these operations came to at any
time; so if they left none of these scopes, all of them are, and the depth is what it was. -/
theorem guard_restores (c : Context) (s : Scope) (body : List Operation) :
    (c.perform (.guarded s body)).depth = min c.depth ((c.push s).performAll body).depth ∧
    (∀ k ≤ c.depth, k ≤ (c.push s).lowestAll body →
      c.scopes.Keeps k (Operation.allNamed body) (c.perform (.guarded s body)).scopes) ∧
    (c.depth ≤ (c.push s).lowestAll body →
      (c.perform (.guarded s body)).depth = c.depth ∧
      c.scopes.AgreesBut (Operation.allNamed body) (c.perform (.guarded s body)).scopes) := by
  have hkeeps (k : Nat) (hk : k ≤ c.depth) (hlow : k ≤ (c.push s).lowestAll body) :
      c.scopes.Keeps k (Operation.allNamed body) (c.perform (.guarded s body)).scopes := by
    have hguarded := keeps_perform (.guarded s body) c hk (Nat.le_min.mpr ⟨hk, hlow⟩)
    rwa [Operation.named] at hguarded
  refine ⟨c.depth_guarded s body, hkeeps, fun hlow => ?_⟩
  have hdepth : (c.perform (.guarded s body)).depth = c.depth := by
    rw [depth_guarded]
    exact Nat.min_eq_left (Nat.le_trans hlow ((c.push s).lowestAll_le_depth body))
  exact ⟨hdepth, (hkeeps c.depth (Nat.le_refl _) hlow).agreesBut hdepth⟩

/-- A group in which a variable is set. -/
def inGroup : Context :=
  ((start .bare).push .empty).bind .innermost "x" (.text "1")

/-- A guard under which a scope of its own is left and others are entered, one under another
guard. -/
theorem unbalanced_guard_restores :
    inGroup.depth = 2 ∧ 2 ≤ (inGroup.push .empty).lowestAll
      [.pop, .push .empty, .guarded .empty [.push .empty, .unset "y"], .push .empty] ∧
    (inGroup.perform (.guarded .empty
      [.pop, .push .empty, .guarded .empty [.push .empty, .unset "y"], .push .empty])).depth = 2 := by
  have hlow : inGroup.depth ≤ (inGroup.push .empty).lowestAll
      [.pop, .push .empty, .guarded .empty [.push .empty, .unset "y"], .push .empty] := by decide
  exact ⟨rfl, hlow, ((guard_restores inGroup .empty _).2.2 hlow).1⟩

/-- Not every guard restores the depth: under this one the scope of the group is left. -/
theorem not_every_guard_restores : ¬ ∀ (c : Context) (s : Scope) (body : List Operation),
    (c.perform (.guarded s body)).depth = c.depth := by
  intro h
  have hbad := h inGroup .empty [.pop, .pop]
  revert hbad
  decide

end Context

end Conductor
