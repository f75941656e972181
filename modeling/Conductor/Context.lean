import Conductor.Argument
import Conductor.Condition
import Conductor.Event
import Conductor.Host
import Conductor.Scope

/-!
# The context of a launch

Every activation works on one context: the stack of scopes, the declared arguments,
the queue of events that wait to be dispatched, and whether a shutdown is under way.

While the handlers of one event run, the context also keeps the turn: which handler
is writing, and which one wrote each variable first. Under the policy `firstWins` a
write is dropped when another handler of the same turn wrote the variable before.
-/

namespace Conductor

/-- What happens when two handlers of one event write the same variable. -/
inductive WritePolicy where
  /-- The later write stands. -/
  | lastWins
  /-- The first handler that wrote a variable keeps it. -/
  | firstWins
  deriving DecidableEq, Repr, Inhabited

namespace WritePolicy

def name : WritePolicy → String
  | .lastWins => "last_wins"
  | .firstWins => "first_wins"

def ofName? (s : String) : Option WritePolicy :=
  if s = "last_wins" then some .lastWins
  else if s = "first_wins" then some .firstWins
  else none

@[simp] theorem ofName?_name (p : WritePolicy) : ofName? p.name = some p := by
  cases p <;> decide

end WritePolicy

/-- The writes of the handlers of one event. -/
structure Turn where
  /-- The handler that wrote each variable first. -/
  firstWriters : Table String Nat
  /-- The handler whose body is being activated. -/
  writer : Option Nat

namespace Turn

/-- Whether the handler that is writing may write the variable, and the turn with the
first writer noted. Outside a handler's body every write is granted. -/
def grant (turn : Turn) (policy : WritePolicy) (name : String) : Bool × Turn :=
  match turn.writer with
  | none => (true, turn)
  | some w =>
      match turn.firstWriters.get? name with
      | none => (true, { turn with firstWriters := turn.firstWriters.insert name w })
      | some first => (first = w || policy = .lastWins, turn)

end Turn

/-- The state that every activation works on. -/
structure Context where
  host : Host
  scopes : ScopeStack
  /-- The declared arguments. -/
  arguments : Table String Argument
  /-- The values passed at launch. -/
  passed : Table String String
  allowRedeclare : Bool
  writePolicy : WritePolicy
  /-- Events that wait to be dispatched, oldest first. -/
  pending : List Event
  /-- The event whose handlers are running. -/
  current : Option Event
  shuttingDown : Bool
  turn : Option Turn

namespace Context

/-- The context of a launch that has not begun. -/
def start (host : Host) : Context where
  host := host
  scopes := .start
  arguments := .empty
  passed := .empty
  allowRedeclare := false
  writePolicy := .lastWins
  pending := []
  current := none
  shuttingDown := false
  turn := none

/-! ## Scopes -/

def depth (c : Context) : Nat :=
  c.scopes.depth

def push (c : Context) (s : Scope) : Context :=
  { c with scopes := c.scopes.push s }

/-- Leave every scope above the given depth. -/
def restore (c : Context) (depth : Nat) : Context :=
  { c with scopes := c.scopes.truncate depth }

@[simp] theorem depth_push (c : Context) (s : Scope) : (c.push s).depth = c.depth + 1 := rfl

/-- A scope that is entered and left leaves no trace. -/
@[simp] theorem restore_push (c : Context) (s : Scope) : (c.push s).restore c.depth = c := by
  simp [push, restore, depth]

/-- All visible bindings in one scope. -/
def snapshot (c : Context) : Scope :=
  c.scopes.flatten

/-- Pass a value at launch: it is bound in the root scope. -/
def pass (c : Context) (name value : String) : Context :=
  { c with
    scopes := c.scopes.modifyRoot (·.setVar name (.text value))
    passed := c.passed.insert name value }

/-- Pass several values, later ones over earlier ones. -/
def passAll (c : Context) (args : LaunchArguments) : Context :=
  args.foldl (fun c a => c.pass a.1 a.2) c

/-! ## Variables -/

/-- The visible value of a variable. -/
def lookup (c : Context) (name : String) : Option Value :=
  c.scopes.lookup name

/-- The text of a variable that must be set. -/
def text (c : Context) (name : String) : Except LaunchError String :=
  match c.lookup name with
  | some v => .ok v.toText
  | none => .error (.undeclaredVariable name)

/-- Ask the turn for permission to write a variable; says whether it is given. -/
def requestWrite (c : Context) (name : String) : Bool × Context :=
  match c.turn with
  | none => (true, c)
  | some turn =>
      let (granted, turn) := turn.grant c.writePolicy name
      (granted, { c with turn := some turn })

theorem scopes_requestWrite (c : Context) (name : String) :
    (c.requestWrite name).2.scopes = c.scopes := by
  unfold requestWrite
  split <;> rfl

/-- Where a variable is bound. -/
inductive Target where
  /-- In the innermost scope. -/
  | innermost
  | root
  deriving DecidableEq, Repr

/-- Bind a variable without asking the turn. -/
def bind (c : Context) (target : Target) (name : String) (v : Value) : Context :=
  match target with
  | .innermost => { c with scopes := c.scopes.modifyTop (·.setVar name v) }
  | .root => { c with scopes := c.scopes.modifyRoot (·.setVar name v) }

/-- Bind a variable if the turn permits it; says whether it did. -/
def write (c : Context) (target : Target) (name : String) (v : Value) : Bool × Context :=
  match c.requestWrite name with
  | (true, c) => (true, c.bind target name v)
  | (false, c) => (false, c)

/-- Remove a variable from the innermost scope that binds it. -/
def unset (c : Context) (name : String) : Context :=
  { c with scopes := c.scopes.unset name }

/-! ## Environment -/

/-- Set an environment variable, or take it away, in the innermost scope. -/
def setEnv (c : Context) (name : String) (value : Option String) : Context :=
  { c with scopes := c.scopes.modifyTop (·.setEnv name value) }

/-- An environment variable as a process started now would see it. -/
def env (c : Context) (name : String) : Option String :=
  match c.scopes.override? name with
  | some value => value
  | none => c.host.environment.get? name

/-- The visible overrides of environment variables. -/
def envOverrides (c : Context) : Table String (Option String) :=
  c.snapshot.env

/-- The environment that a process started now would inherit. -/
def processEnv (c : Context) : Table String String :=
  c.envOverrides.entries.foldl
    (fun t e =>
      match e.2 with
      | some v => t.insert e.1 v
      | none => t.erase e.1)
    c.host.environment

/-- What templates may ask of the context. -/
def surroundings (c : Context) : Surroundings where
  lookup n := (c.lookup n).map Value.toText
  env n := c.env n
  command := c.host.command

def resolve (c : Context) (t : Template) : Except LaunchError String :=
  match Template.resolve c.surroundings t with
  | .ok s => .ok s
  | .error e => .error (.substitution e)

/-- The texts of several templates. -/
def resolveAll (c : Context) (ts : List Template) : Except LaunchError (List String) :=
  match Template.resolveAll c.surroundings ts with
  | .ok s => .ok s
  | .error e => .error (.substitution e)

/-- The truth value of a condition in this context. -/
def decide (c : Context) (p : Condition) : Except LaunchError Bool :=
  match p.evaluate c.surroundings with
  | .ok b => .ok b
  | .error e => .error (.condition e)

/-! ## Arguments -/

/-- Whether a declaration repeats the one in the table; an error when it contradicts it. -/
def repeats (c : Context) (a : Argument) : Except LaunchError Bool :=
  match c.arguments.get? a.name with
  | none => .ok false
  | some old =>
      if old.default = a.default then .ok true
      else if c.allowRedeclare then .ok false
      else .error (.duplicateArgument a.name old.default a.default)

/-- The value that a declared argument has: the visible one, else its default. -/
def effective (c : Context) (a : Argument) : Option String :=
  match c.lookup a.name with
  | some v => some v.toText
  | none => a.default

/-- Bind the default of an argument when nothing visible binds its name. -/
def bindDefault (c : Context) (a : Argument) : Context :=
  match c.lookup a.name, a.default with
  | none, some d => c.bind .innermost a.name (.text d)
  | _, _ => c

/-- The value of an argument that its choices forbid. -/
def forbidden? (c : Context) (a : Argument) : Option String :=
  (c.effective a).filter fun v => !a.allows v

/-- Declare an argument. A declaration that repeats the default of an earlier one
leaves that one in place and its choices unchecked; one with another default is an
error unless redeclaring is allowed. -/
def declare (c : Context) (a : Argument) : Except LaunchError Context :=
  match c.repeats a with
  | .error e => .error e
  | .ok true => .ok (c.bindDefault a)
  | .ok false =>
      match c.forbidden? a with
      | some v => .error (.invalidArgument a.name v a.choices)
      | none =>
          let c := c.bindDefault a
          .ok { c with arguments := c.arguments.insert a.name a }

/-- A declaration binds the default of the argument if nothing is visible under its name. -/
theorem scopes_declare {c c' : Context} {a : Argument} (h : c.declare a = .ok c') :
    c'.scopes = c.scopes ∨ (c.lookup a.name = none ∧ ∃ text : String,
      c'.scopes = c.scopes.modifyTop (·.setVar a.name (.text text))) := by
  have hdefault : (c.bindDefault a).scopes = c.scopes ∨ (c.lookup a.name = none ∧
      ∃ text : String, (c.bindDefault a).scopes =
        c.scopes.modifyTop (·.setVar a.name (.text text))) := by
    unfold bindDefault
    split
    · rename_i hnone _
      exact .inr ⟨hnone, _, rfl⟩
    · exact .inl rfl
  unfold declare at h
  split at h
  · cases h
  · cases h
    exact hdefault
  · split at h
    · cases h
    · cases h
      exact hdefault

/-- The names passed at launch that no declaration claimed, in order. -/
def unused (c : Context) : List String :=
  c.passed.keys.filter fun n => !c.arguments.contains n

/-! ## Events -/

/-- Queue an event. -/
def emit (c : Context) (e : Event) : Context :=
  { c with pending := c.pending ++ [e] }

/-- The oldest waiting event and the context without it. -/
def next? (c : Context) : Option (Event × Context) :=
  match c.pending with
  | [] => none
  | e :: rest => some (e, { c with pending := rest })

def beginTurn (c : Context) (e : Event) : Context :=
  { c with turn := some ⟨.empty, none⟩, current := some e }

/-- Let the handler with this place in the turn write from now on. -/
def setWriter (c : Context) (writer : Nat) : Context :=
  { c with turn := c.turn.map fun t => { t with writer := some writer } }

def endTurn (c : Context) : Context :=
  { c with turn := none, current := none }

end Context

end Conductor
