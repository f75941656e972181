import Conductor.Context
import Conductor.Handler.Trigger
import Conductor.Template.Text

/-!
# Actions

A description is a list of actions. An action is a deed, an identity and possibly a
condition that gates it. Some deeds hold further actions: groups, sources that are
spliced in, the bodies of handlers and timers, and what follows the end of a process.
Computed deeds are functions of the context; what they compute is again actions, so
the whole family is one inductive type and its activation a structural recursion.
-/

namespace Conductor

/-- How important a log line is. -/
inductive LogLevel where
  | debug
  | info
  | warn
  | error
  deriving DecidableEq, Repr, Inhabited

/-- The process that an action starts, its texts not yet resolved. -/
structure ProcessTemplate where
  command : List Template
  name : Option Template := none
  directory : Option Template := none
  /-- When given, the environment instead of the one inherited. -/
  environment : Option (List (Template × Template)) := none
  /-- Environment variables set on top. -/
  additions : List (Template × Template) := []
  /-- Run the command line, joined with blanks, by a shell. -/
  shell : Bool := false
  /-- What becomes of the output; without it the launch's own choice. -/
  output : Option OutputMode := none
  /-- Start the process again when it ends, after this many seconds. -/
  respawn : Option Binary64 := none

/-- An argument as a description declares it, its default not yet resolved. -/
structure ArgumentTemplate where
  name : String
  default : Option Template := none
  description : Option String := none
  choices : List String := []

/-- The value that an action gives to a variable. -/
inductive ValueTemplate where
  | text (content : Template)
  | structured (data : Json)

mutual

/-- Something to do, under an identity that later activations share. -/
inductive Action where
  | mk (id : ActionId) (condition : Option Condition) (deed : Deed)

/-- What an action does. -/
inductive Deed where
  | log (level : LogLevel) (message : Template)
  /-- Start a process; `onExit` is activated once, when that process has ended. -/
  | execute (process : ProcessTemplate) (onExit : List Action)
  /-- Activate actions in a scope of their own. -/
  | group (bindings : List (String × Template)) (children : List Action)
  /-- Activate the actions of a source in a scope of their own. When a required one
  fails, so does the list of actions it stands in. -/
  | splice (source : Source) (arguments : List (String × Template)) (required : Bool)
  | declare (argument : ArgumentTemplate)
  | setVariable (target : Context.Target) (name : String) (value : ValueTemplate)
  | unsetVariable (name : String)
  | setEnv (name : String) (value : Template)
  | unsetEnv (name : String)
  | register (handler : Handler)
  | unregister (name : String)
  | emit (event : Event)
  /-- Activate actions later, under the bindings of now. -/
  | timer (period : Template) (children : List Action) (cancelOnShutdown : Bool)
  | shutdown (reason : Template)
  /-- Activate the actions that a function computes. -/
  | compute (function : Context → Yield)

/-- What a function yields. -/
inductive Yield where
  | actions (list : List Action)
  | failure (error : LaunchError)
  /-- No action, but an interrupt for the launch, as from the keyboard. -/
  | interrupt

/-- Where spliced actions come from. -/
inductive Source where
  | inline (children : List Action)
  | computed (name : String) (function : Context → Yield)
  | file (path : String) (parse : String → Yield)

/-- What a handler does with the event it answers. -/
inductive Body where
  | actions (list : List Action)
  | computed (function : Event → Context → Yield)

/-- An answer to events. -/
inductive Handler where
  | mk (name : Option String) (trigger : Trigger) (body : Body) (once : Bool)
      (scope : Option Scope)

end

instance : Inhabited Deed := ⟨.unsetVariable ""⟩
instance : Inhabited Action := ⟨.mk default none default⟩

namespace Source

/-- The name under which a source is reported. -/
def name : Source → String
  | .inline _ => "inline"
  | .computed n _ => n
  | .file p _ => p

end Source

namespace Body

def produce (b : Body) (e : Event) (c : Context) : Yield :=
  match b with
  | .actions list => .actions list
  | .computed f => f e c

end Body

namespace Handler

def name : Handler → Option String
  | .mk n _ _ _ _ => n

def trigger : Handler → Trigger
  | .mk _ t _ _ _ => t

def body : Handler → Body
  | .mk _ _ b _ _ => b

/-- Whether the handler is removed when it answers. -/
def once : Handler → Bool
  | .mk _ _ _ o _ => o

/-- The bindings under which the body is activated. -/
def scope : Handler → Option Scope
  | .mk _ _ _ _ s => s

def withTrigger (h : Handler) (t : Trigger) : Handler :=
  .mk h.name t h.body h.once h.scope

/-- Whether the handler answers the event, and the handler after it. -/
def observe (h : Handler) (e : Event) : Bool × Handler :=
  let (fires, t) := h.trigger.observe e
  (fires, h.withTrigger t)

/-- What follows the end of one process, under the bindings of its start. It has no name. -/
def onExitOf (id : ProcessId) (actions : List Action) (scope : Scope) : Handler :=
  .mk none (.exitOf id) (.actions actions) true (some scope)

end Handler

namespace Deed

/-- The stable tag of a deed. -/
def kind : Deed → String
  | .log .. => "log"
  | .execute .. => "execute_process"
  | .group .. => "group"
  | .splice .. => "include"
  | .declare _ => "declare_argument"
  | .setVariable .. => "set_variable"
  | .unsetVariable _ => "unset_variable"
  | .setEnv .. => "set_env"
  | .unsetEnv _ => "unset_env"
  | .register _ => "register_event_handler"
  | .unregister _ => "unregister_event_handler"
  | .emit _ => "emit_event"
  | .timer .. => "timer"
  | .shutdown _ => "shutdown"
  | .compute _ => "opaque_function"

/-- The label by which the journal shows a deed: its tag and what it is about. -/
def label (d : Deed) : String :=
  match d with
  | .log _ m => s!"{d.kind} '{Template.display m}'"
  | .execute p _ =>
      match p.name with
      | some n => d.kind ++ " " ++ Template.display n
      | none => d.kind ++ " [" ++ Text.joinWith " " (p.command.map Template.display) ++ "]"
  | .splice s _ _ => s!"{d.kind} {s.name}"
  | .declare a => s!"{d.kind} {a.name}"
  | .setVariable _ n _ => s!"{d.kind} {n}"
  | .unsetVariable n => s!"{d.kind} {n}"
  | .setEnv n _ => s!"{d.kind} {n}"
  | .unsetEnv n => s!"{d.kind} {n}"
  | .timer p _ _ => s!"{d.kind} {Template.display p}s"
  | _ => d.kind

/-- Whether the deed starts something that is not started during a shutdown. -/
def startsWork : Deed → Bool
  | .execute .. => true
  | .timer .. => true
  | _ => false

/-- Whether the failure of the deed fails the list of actions it stands in. -/
def escalates : Deed → Bool
  | .splice _ _ required => required
  | _ => false

end Deed

namespace Action

def id : Action → ActionId
  | .mk i _ _ => i

def condition : Action → Option Condition
  | .mk _ c _ => c

def deed : Action → Deed
  | .mk _ _ d => d

def kind (a : Action) : String :=
  a.deed.kind

def label (a : Action) : String :=
  a.deed.label

end Action

end Conductor
