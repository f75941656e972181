import Conductor.CommandLine.Project
import Conductor.Json.Printer
import Conductor.Machine.Simulation
import Conductor.Report
import Conductor.Text.Columns

/-!
# Running commands

The commands of a request become the description of a launch: its arguments are
declared, then each command is a process, and the wish to stop early is a handler or a
timer that shuts the launch down. What is left of the launch is told in a summary.
-/

namespace Conductor.CommandLine

/-- The configuration with what the request says put over it; one with errors is refused. -/
def RunRequest.configure (r : RunRequest) (c : Config) : Except Complaint Config :=
  let c := { c with
    graceSeconds := r.grace.getD c.graceSeconds
    failurePolicy := if r.failFast then .failFast else c.failurePolicy
    defaultOutput := r.output.getD c.defaultOutput }
  let errors := c.check.filter (·.level = .error)
  if errors.isEmpty then .ok c else .error (.invalidConfig (errors.map (·.message)))

/-- Give actions identities, counted from a number. -/
def identify (start : Nat) (deeds : List Deed) : List Action :=
  deeds.zipIdx.map fun d => .mk ⟨BitVec.ofNat 128 (start + d.2)⟩ none d.1

/-- Identities of actions inside others. -/
def innerIdentity : Nat := Nat.pow 2 64

def shutdownFor (reason : String) : List Action :=
  identify innerIdentity [.shutdown (Template.parse reason)]

/-- The processes of a request, the command first. -/
def RunRequest.processes (r : RunRequest) : List ProcessTemplate :=
  (if r.words.isEmpty then [] else [{ command := r.words.map Template.parse }]) ++
    r.lines.map fun line => { command := [Template.parse line], shell := true }

/-- The description of a launch that runs the commands. -/
def RunRequest.describe (r : RunRequest) (arguments : LaunchArguments) :
    Except Complaint (List Action) :=
  if r.processes.isEmpty then .error .nothingToRun
  else if r.respawn.any fun x => !x.isFinite || x.isBelowZero then .error .badRespawn
  else
    let declared := arguments.map fun a => Deed.declare { name := a.1 }
    let stop :=
      if r.stopOnExit then
        [Deed.register (.mk none (.exited .any none)
          (.actions (shutdownFor "a supervised process exited")) false none)]
      else []
    let started := r.processes.map fun p => Deed.execute { p with respawn := r.respawn } []
    let limit := match r.timeout with
      | none => []
      | some x =>
          [Deed.timer (Template.parse (Config.plainLayout.write x)) (shutdownFor "timeout elapsed")
            true]
    .ok (identify 1 (declared ++ stop ++ started ++ limit))

/-! ## What is told about a launch -/

/-- How far an activation has come, in one word. -/
def stageWord : Stage → String
  | .evaluatingCondition => "evaluating"
  | s => s.name

/-- A line for each process of a launch. -/
def processTable (r : Report) : String :=
  let rows := (r.recordsOf "execute_process").map fun x =>
    [x.label, stageWord x.stage, x.note.getD ""]
  if rows.isEmpty then "" else Text.columns ["PROCESS", "STATE", "RESULT"] rows ++ "\n"

/-- The lines kept of the processes. -/
def capturedText (r : Report) : String :=
  String.join (r.captured.flatMap fun c => c.lines.map fun l => l.2 ++ "\n")

/-- What became of the processes and what went wrong. -/
def summaryText (r : Report) : String :=
  let errors := r.errors.map fun e => "[" ++ e.kind ++ "] " ++ e.message ++ "\n"
  let reason := match r.shutdownReason with
    | none => ""
    | some reason => "shutdown: " ++ reason ++ "\n"
  let killed := if r.forced then "grace period elapsed: processes were killed\n" else ""
  processTable r ++ String.join errors ++ reason ++ killed

/-- A stage as a record. -/
def stageJson (s : Stage) : Json :=
  .obj (("state", .str s.name) ::
    match s.failure? with
    | none => []
    | some reason => [("reason", .str reason)])

/-- A text or null. -/
def textJson : Option String → Json
  | none => .null
  | some s => .str s

def reportJson (r : Report) : Json :=
  .obj [
    ("records", .arr (r.records.map fun x => .obj [("seq", .int x.seq), ("action", .str x.action.text),
      ("kind", .str x.kind), ("label", .str x.label), ("state", stageJson x.stage),
      ("history", .arr (x.history.map stageJson)), ("note", textJson x.note)])),
    ("timeline", .arr (r.timeline.map fun
      | .event name process =>
          .obj [("type", .str "event"), ("name", .str name), ("process", textJson process)]
      | .line text => .obj [("type", .str "log"), ("line", .str text)])),
    ("errors", .arr (r.errors.map fun e =>
      .obj [("kind", .str e.kind), ("message", .str e.message)])),
    ("shutdown_reason", textJson r.shutdownReason), ("fatal", textJson r.fatal),
    ("forced", .bool r.forced), ("unused_arguments", .arr (r.unusedArguments.map .str)),
    ("signals_sent", .int r.signalsSent),
    ("captured", .arr (r.captured.map fun c =>
      .obj [("process", .str c.process), ("pid", .int c.pid),
        ("lines", .arr (c.lines.map fun l => .arr [.str l.1.name, .str l.2]))]))]

/-- The lines that went to the program's own output on one stream. -/
def shownText (shown : List OutputLine) (stream : OutputStream) : String :=
  String.join ((shown.reverse.filter (·.1 = stream)).map (·.2 ++ "\n"))

end Conductor.CommandLine
