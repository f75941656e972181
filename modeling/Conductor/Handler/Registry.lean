import Conductor.Action

/-!
# The registry of handlers

Handlers stand in the order of their registration, each under a number that is never
used again. For one event the matching handlers are found first, all of them, and
asked for their answers one after the other; a handler that has been removed in
between answers nothing, and a one-shot handler is removed when it answers.
-/

namespace Conductor

/-- A handler under its number. -/
structure RegisteredHandler where
  id : Nat
  handler : Handler

namespace RegisteredHandler

def reportedName (r : RegisteredHandler) : String :=
  r.handler.name.getD ("handler-" ++ toString r.id)

end RegisteredHandler

/-- The answer of a handler to an event. -/
structure Response where
  /-- The name by which the handler is reported. -/
  handler : String
  yield : Yield
  /-- The bindings under which the actions are activated. -/
  scope : Option Scope

/-- The handlers that are registered. -/
structure Registry where
  /-- In the order of registration. -/
  entries : List RegisteredHandler
  nextId : Nat

namespace Registry

/-- The registry without handlers. -/
def empty : Registry :=
  ⟨[], 0⟩

instance : Inhabited Registry := ⟨empty⟩

/-- Number of registered handlers. -/
def size (r : Registry) : Nat :=
  r.entries.length

/-- The numbers of the registered handlers, in order. -/
def ids (r : Registry) : List Nat :=
  r.entries.map (·.id)

/-- Register a handler behind all others. -/
def register (r : Registry) (h : Handler) : Registry :=
  ⟨r.entries ++ [⟨r.nextId, h⟩], r.nextId + 1⟩

/-- Remove the handlers of a name. -/
def unregister (r : Registry) (name : String) : Registry :=
  { r with entries := r.entries.filter fun e => e.handler.name ≠ some name }

/-- Remove the handler of a number. -/
def remove (r : Registry) (id : Nat) : Registry :=
  { r with entries := r.entries.filter fun e => e.id ≠ id }

/-- Show an event to every handler: the numbers of those that answer it, in order, and
the registry afterwards. -/
def matching (r : Registry) (e : Event) : List Nat × Registry :=
  (r.entries.filterMap fun h => if (h.handler.observe e).1 then some h.id else none,
    { r with entries := r.entries.map fun h => { h with handler := (h.handler.observe e).2 } })

/-- The handler of a number. -/
def find? (r : Registry) (id : Nat) : Option RegisteredHandler :=
  r.entries.find? (·.id = id)

/-- The answer of the handler of a number, and the registry afterwards; nothing when no
such handler is registered. -/
def respond (r : Registry) (id : Nat) (e : Event) (c : Context) : Option (Response × Registry) :=
  match r.find? id with
  | none => none
  | some h =>
      some (⟨h.reportedName, h.handler.body.produce e c, h.handler.scope⟩,
        if h.handler.once then r.remove id else r)

@[simp] theorem size_register (r : Registry) (h : Handler) : (r.register h).size = r.size + 1 := by
  simp [register, size]

@[simp] theorem ids_register (r : Registry) (h : Handler) :
    (r.register h).ids = r.ids ++ [r.nextId] := by
  simp [register, ids]

@[simp] theorem ids_matching (r : Registry) (e : Event) : (r.matching e).2.ids = r.ids := by
  simp [matching, ids]

end Registry

end Conductor
