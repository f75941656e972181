import Conductor.Event
import Conductor.Text.Split

/-!
# What handlers wait for

A trigger decides which events a handler answers. All triggers but one look at the
event alone. The trigger `allExited` follows several actions: it notes the latest
event of each one's processes and fires when a process of one of them ends and the
latest event of every one of them is an end.
-/

namespace Conductor

/-- Which processes a trigger is about. -/
inductive ProcessFilter where
  | any
  /-- The processes that one action started. -/
  | action (id : ActionId)
  | name (name : String)
  deriving DecidableEq, Repr

namespace ProcessFilter

def accepts (f : ProcessFilter) (p : ProcessInfo) : Bool :=
  match f with
  | .any => true
  | .action id => p.action = id
  | .name n => p.name = n

end ProcessFilter

/-- What is known of the processes of a followed action. -/
inductive Progress where
  | notStarted
  | running (id : ProcessId)
  | exited (status : ExitStatus)
  deriving DecidableEq, Repr

namespace Progress

def hasExited : Progress → Bool
  | .exited _ => true
  | _ => false

/-- What an event tells about the process it is about. -/
def ofEvent? : Event → Option (ActionId × Progress)
  | .processStarted p => some (p.action, .running p.id)
  | .processExited p s => some (p.action, .exited s)
  | _ => none

end Progress

/-- The actions that are followed, and what is known of each. -/
abbrev Roster := List (ActionId × Progress)

namespace Roster

/-- The roster that follows these actions, none of which has started. -/
def ofActions : List ActionId → Roster
  | [] => []
  | a :: r => (a, .notStarted) :: (ofActions r).filter (·.1 ≠ a)

/-- Note what is known of an action, if it is followed. -/
def note (r : Roster) (a : ActionId) (p : Progress) : Roster :=
  r.map fun e => if e.1 = a then (a, p) else e

/-- Whether every followed action has ended; nothing is followed by an empty roster. -/
def allExited (r : Roster) : Bool :=
  !r.isEmpty && r.all (·.2.hasExited)

/-- What is known of an action. -/
def find? (r : Roster) (a : ActionId) : Option Progress :=
  r.lookup a

/-- Take an event in: whether the roster fires, and the roster after it. -/
def observe (r : Roster) (e : Event) : Bool × Roster :=
  match Progress.ofEvent? e with
  | none => (false, r)
  | some (a, p) =>
      let r' := r.note a p
      (p.hasExited && (r.find? a).isSome && r'.allExited, r')

end Roster

/-- The events that a handler answers. -/
inductive Trigger where
  | started (filter : ProcessFilter)
  /-- The end of a process; `success` asks for a good or for a bad end only. -/
  | exited (filter : ProcessFilter) (success : Option Bool)
  /-- A line of output on a stream, or on either, that holds a text. -/
  | output (filter : ProcessFilter) (stream : Option OutputStream) (contains : Option String)
  /-- A request for a shutdown. -/
  | shutdown
  /-- A custom event of this kind. -/
  | custom (kind : String)
  | satisfying (predicate : Event → Bool)
  /-- The end of one process. -/
  | exitOf (id : ProcessId)
  /-- The end of the last of several actions. -/
  | allExited (roster : Roster)

namespace Trigger

/-- Whether the event is answered, and the trigger after it. -/
def observe (t : Trigger) (e : Event) : Bool × Trigger :=
  match t with
  | .started f => (match e with | .processStarted p => f.accepts p | _ => false, t)
  | .exited f want =>
      (match e with
       | .processExited p s => f.accepts p && want.all (s.success = ·)
       | _ => false, t)
  | .output f stream contains =>
      (match e with
       | .processOutput p s text =>
           f.accepts p && stream.all (s = ·) && contains.all (Text.containsText text)
       | _ => false, t)
  | .shutdown => (e.isShutdownRequest, t)
  | .custom kind => (match e with | .custom k _ => k = kind | _ => false, t)
  | .satisfying p => (p e, t)
  | .exitOf id => (match e with | .processExited p _ => p.id = id | _ => false, t)
  | .allExited r =>
      let (fires, r) := r.observe e
      (fires, .allExited r)

end Trigger

end Conductor
