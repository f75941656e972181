import Conductor.Table
import Conductor.Value

/-!
# Scopes

Bindings live in a stack of scopes: a root that is always there and the scopes of
the groups being activated. A look-up takes the innermost binding. Flattening a
stack gives one scope that answers every look-up as the whole stack does
(`get?_vars_flatten`, `get?_env_flatten`).
-/

namespace Conductor

/-- One level of bindings. -/
structure Scope where
  vars : Table String Value
  /-- Environment variables: set to a value, or taken away. -/
  env : Table String (Option String)

namespace Scope

/-- The scope without bindings. -/
def empty : Scope :=
  ⟨.empty, .empty⟩

instance : Inhabited Scope := ⟨empty⟩

/-- The scope that binds only these variables, a later one over an earlier one. -/
def ofVars (vars : List (String × Value)) : Scope :=
  ⟨.ofList vars, .empty⟩

/-- The bindings of both scopes, those of the second winning. -/
def overlay (s t : Scope) : Scope :=
  ⟨s.vars.overlay t.vars, s.env.overlay t.env⟩

def setVar (s : Scope) (n : String) (v : Value) : Scope :=
  { s with vars := s.vars.insert n v }

def eraseVar (s : Scope) (n : String) : Scope :=
  { s with vars := s.vars.erase n }

def setEnv (s : Scope) (n : String) (v : Option String) : Scope :=
  { s with env := s.env.insert n v }

@[simp] theorem vars_overlay (s t : Scope) : (s.overlay t).vars = s.vars.overlay t.vars := rfl

@[simp] theorem env_overlay (s t : Scope) : (s.overlay t).env = s.env.overlay t.env := rfl

end Scope

/-- A stack of scopes that is never empty. -/
structure ScopeStack where
  /-- The scopes above the root, innermost first. -/
  inner : List Scope
  /-- The scope that is never left. -/
  root : Scope

namespace ScopeStack

/-- The stack with an empty root only. -/
def start : ScopeStack :=
  ⟨[], .empty⟩

instance : Inhabited ScopeStack := ⟨start⟩

/-- All scopes, innermost first. -/
def toList (s : ScopeStack) : List Scope :=
  s.inner ++ [s.root]

/-- Number of scopes. -/
def depth (s : ScopeStack) : Nat :=
  s.inner.length + 1

def push (s : ScopeStack) (top : Scope) : ScopeStack :=
  { s with inner := top :: s.inner }

/-- The innermost scope and the stack without it; the root stays. -/
def pop? (s : ScopeStack) : Option (Scope × ScopeStack) :=
  match s.inner with
  | [] => none
  | top :: rest => some (top, { s with inner := rest })

/-- The outermost scopes, `depth` of them; the root always stays. -/
def truncate (s : ScopeStack) (depth : Nat) : ScopeStack :=
  { s with inner := s.inner.drop (s.inner.length + 1 - max depth 1) }

/-- Change the innermost scope. -/
def modifyTop (f : Scope → Scope) (s : ScopeStack) : ScopeStack :=
  match s.inner with
  | [] => { s with root := f s.root }
  | top :: rest => { s with inner := f top :: rest }

/-- Change the root. -/
def modifyRoot (f : Scope → Scope) (s : ScopeStack) : ScopeStack :=
  { s with root := f s.root }

/-- The innermost value of a variable. -/
def lookup (s : ScopeStack) (n : String) : Option Value :=
  s.toList.findSome? (·.vars.get? n)

/-- The innermost override of an environment variable. -/
def override? (s : ScopeStack) (n : String) : Option (Option String) :=
  s.toList.findSome? (·.env.get? n)

/-- Remove a variable from the first of the scopes that binds it. -/
def eraseFirst (n : String) : List Scope → List Scope
  | [] => []
  | s :: r => if s.vars.contains n then s.eraseVar n :: r else s :: eraseFirst n r

/-- Remove a variable from the innermost scope that binds it. -/
def unset (s : ScopeStack) (n : String) : ScopeStack :=
  if s.inner.any (·.vars.contains n) then { s with inner := eraseFirst n s.inner }
  else { s with root := s.root.eraseVar n }

/-- One scope with all visible bindings. -/
def flatten (s : ScopeStack) : Scope :=
  s.inner.foldr (fun top below => below.overlay top) s.root

@[simp] theorem depth_push (s : ScopeStack) (top : Scope) : (s.push top).depth = s.depth + 1 := rfl

@[simp] theorem depth_modifyTop (f : Scope → Scope) (s : ScopeStack) :
    (s.modifyTop f).depth = s.depth := by
  unfold modifyTop depth
  split <;> simp_all

@[simp] theorem depth_modifyRoot (f : Scope → Scope) (s : ScopeStack) :
    (s.modifyRoot f).depth = s.depth := rfl

/-- A look-up sees the innermost scope first. -/
@[simp] theorem lookup_push (s : ScopeStack) (top : Scope) (n : String) :
    (s.push top).lookup n = (top.vars.get? n).or (s.lookup n) := by
  simp only [lookup, push, toList, List.cons_append, List.findSome?_cons]
  split <;> simp_all

@[simp] theorem override?_push (s : ScopeStack) (top : Scope) (n : String) :
    (s.push top).override? n = (top.env.get? n).or (s.override? n) := by
  simp only [override?, push, toList, List.cons_append, List.findSome?_cons]
  split <;> simp_all

@[simp] theorem pop?_push (s : ScopeStack) (top : Scope) : (s.push top).pop? = some (top, s) := rfl

@[simp] theorem flatten_push (s : ScopeStack) (top : Scope) :
    (s.push top).flatten = s.flatten.overlay top := rfl

/-- A variable has the value in the flattened scope that it has in the stack. -/
@[simp] theorem get?_vars_flatten (s : ScopeStack) (n : String) :
    s.flatten.vars.get? n = s.lookup n := by
  obtain ⟨inner, root⟩ := s
  simp only [flatten, lookup, toList]
  induction inner with
  | nil => simp
  | cons top rest ih =>
      simp only [List.foldr_cons, Scope.vars_overlay, Table.get?_overlay, ih, List.cons_append,
        List.findSome?_cons]
      split <;> simp_all

/-- An environment variable is overridden in the flattened scope as it is in the stack. -/
@[simp] theorem get?_env_flatten (s : ScopeStack) (n : String) :
    s.flatten.env.get? n = s.override? n := by
  obtain ⟨inner, root⟩ := s
  simp only [flatten, override?, toList]
  induction inner with
  | nil => simp
  | cons top rest ih =>
      simp only [List.foldr_cons, Scope.env_overlay, Table.get?_overlay, ih, List.cons_append,
        List.findSome?_cons]
      split <;> simp_all

@[simp] theorem truncate_push (s : ScopeStack) (top : Scope) : (s.push top).truncate s.depth = s := by
  simp [truncate, push, depth]

end ScopeStack

end Conductor
