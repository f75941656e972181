import Conductor.Identifier
import Conductor.Process.Status

/-!
# Events

What happens during a launch and may be answered by handlers: processes start,
write and end, timers elapse, a shutdown is asked for, and actions emit events of
their own kinds. Events have a JSON form; reading what was written gives the same
event back.
-/

namespace Conductor

/-- What an event tells about a process. -/
structure ProcessInfo where
  id : ProcessId
  /-- The action that started it. -/
  action : ActionId
  name : String
  /-- The number the operating system gave it. -/
  pid : Nat
  /-- The command line, program first. -/
  command : List String
  deriving DecidableEq, Repr, Inhabited

/-- Something that handlers may answer. -/
inductive Event where
  | processStarted (process : ProcessInfo)
  | processExited (process : ProcessInfo) (status : ExitStatus)
  | processOutput (process : ProcessInfo) (stream : OutputStream) (text : String)
  | shutdownRequested (reason : String) (dueToSignal : Bool)
  | timerElapsed (timer : Nat)
  | custom (kind : String) (payload : Json)
  deriving Inhabited

namespace Event

/-- The name of an event: for a custom one its kind. -/
def name : Event → String
  | .processStarted _ => "process_started"
  | .processExited .. => "process_exited"
  | .processOutput .. => "process_output"
  | .shutdownRequested .. => "shutdown_requested"
  | .timerElapsed _ => "timer_elapsed"
  | .custom kind _ => kind

/-- The process that an event is about. -/
def process? : Event → Option ProcessInfo
  | .processStarted p => some p
  | .processExited p _ => some p
  | .processOutput p _ _ => some p
  | _ => none

/-- Whether the event asks for a shutdown. -/
def isShutdownRequest : Event → Bool
  | .shutdownRequested .. => true
  | _ => false

end Event

namespace ProcessInfo

def fieldNames : List String := ["id", "action", "name", "pid", "cmd"]

/-- The JSON form. -/
def toJson (p : ProcessInfo) : Json :=
  .obj [("id", .int p.id.number), ("action", .str p.action.text), ("name", .str p.name),
    ("pid", .int p.pid), ("cmd", .arr (p.command.map .str))]

/-- What a JSON value tells about a process. -/
def ofJson? (j : Json) : Option ProcessInfo := do
  let r ← j.asRecord? fieldNames
  return {
    id := ⟨← (← r.field? "id").asNat64?⟩
    action := ← ActionId.read? (← (← r.field? "action").asString?)
    name := ← (← r.field? "name").asString?
    pid := ← (← r.field? "pid").asNat32?
    command := ← (← r.field? "cmd").asListOf? Json.asString? }

end ProcessInfo

namespace ExitStatus

/-- A whole number, or null for none. -/
def partToJson : Option Int → Json
  | none => .null
  | some n => .int n

/-- The JSON form. -/
def toJson (s : ExitStatus) : Json :=
  .obj [("code", partToJson s.code), ("signal", partToJson s.signal)]

/-- The end that a JSON value stands for. -/
def ofJson? (j : Json) : Option ExitStatus := do
  let r ← j.asRecord? ["code", "signal"]
  return {
    code := ← Json.optional? Json.asInt32? (r.given? "code")
    signal := ← Json.optional? Json.asInt32? (r.given? "signal") }

end ExitStatus

namespace Event

/-- The JSON form: an object whose field `type` names the kind of event. -/
def toJson : Event → Json
  | .processStarted p => .obj [("type", .str "process_started"), ("process", p.toJson)]
  | .processExited p s =>
      .obj [("type", .str "process_exited"), ("process", p.toJson), ("status", s.toJson)]
  | .processOutput p s t =>
      .obj [("type", .str "process_output"), ("process", p.toJson), ("stream", .str s.name),
        ("text", .str t)]
  | .shutdownRequested reason due =>
      .obj [("type", .str "shutdown_requested"), ("reason", .str reason),
        ("due_to_signal", .bool due)]
  | .timerElapsed t => .obj [("type", .str "timer_elapsed"), ("timer", .int t)]
  | .custom kind payload =>
      .obj [("type", .str "custom"), ("kind", .str kind), ("payload", payload)]

/-- The fields of each kind of event, in order. -/
def fieldNames : String → List String
  | "process_started" => ["process"]
  | "process_exited" => ["process", "status"]
  | "process_output" => ["process", "stream", "text"]
  | "shutdown_requested" => ["reason", "due_to_signal"]
  | "timer_elapsed" => ["timer"]
  | "custom" => ["kind", "payload"]
  | _ => []

/-- The event that a JSON value stands for. -/
def ofJson? (j : Json) : Option Event := do
  let (tag, r) ← j.tagged? fieldNames
  match tag with
  | "process_started" => return .processStarted (← ProcessInfo.ofJson? (← r.field? "process"))
  | "process_exited" =>
      return .processExited (← ProcessInfo.ofJson? (← r.field? "process"))
        (← ExitStatus.ofJson? (← r.field? "status"))
  | "process_output" =>
      return .processOutput (← ProcessInfo.ofJson? (← r.field? "process"))
        (← OutputStream.ofName? (← (← r.field? "stream").asWord?))
        (← (← r.field? "text").asString?)
  | "shutdown_requested" =>
      return .shutdownRequested (← (← r.field? "reason").asString?)
        (← (← r.field? "due_to_signal").asBool?)
  | "timer_elapsed" => return .timerElapsed (← (← r.field? "timer").asNat64?)
  | "custom" => return .custom (← (← r.field? "kind").asString?) (← r.field? "payload")
  | _ => none

end Event

end Conductor
