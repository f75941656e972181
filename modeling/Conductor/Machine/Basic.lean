import Conductor.Host
import Conductor.Shell.Interpreter
import Conductor.Supervisor

/-!
# A machine of its own

A machine has an environment, files and the programs among them. It answers what a
launch asks of its host: it runs shell commands, reads files, and says whether a
program can be started and what its run looks like.
-/

namespace Conductor

/-- A machine on which launches run. -/
structure Machine where
  environment : Table String String
  files : FileTree

namespace Machine

/-- The path under which a bare name is found along the given directories. -/
def findAlong (m : Machine) (path name : String) : Option String :=
  (path.splitOn ":").findSome? fun dir =>
    let candidate := Path.join dir name
    match m.files.find candidate with
    | .ok (.program _) => some candidate
    | _ => none

/-- The path under which the launcher finds a bare name. -/
def which (m : Machine) (name : String) : Option String :=
  (m.environment.get? "PATH").bind fun path => m.findAlong path name

/-- The path of the shell for commands in templates; without a path the system's own
directories are searched. -/
def shell? (m : Machine) : Option String :=
  m.findAlong ((m.environment.get? "PATH").getD "/bin:/usr/bin") "sh"

def command (m : Machine) (line : String) : CommandOutcome :=
  match m.shell? with
  | none => .notStarted SystemFault.notFound.message
  | some sh =>
      let trace := Shell.runCommand sh ["-c", line] (.start m.environment m.files 0 [])
      let written (s : OutputStream) : String :=
        Text.decodeLossy ((trace.chunks.filter (·.stream = s)).flatMap (·.bytes))
      let how := match trace.ending with
        | some (_, .exited c) => CommandEnd.exited c
        | some (_, .killed n) => CommandEnd.killed n (Shell.signalName n)
        | none => CommandEnd.exited 0
      .ended how (written .stdout) (written .stderr)

/-- Whether a text holds the character that ends texts of the operating system. -/
def holdsNul (s : String) : Bool :=
  s.toList.any fun c => c.toNat = 0

/-- Whether a part of the process cannot be handed to the operating system. -/
def isUnspeakable (p : ProcessSpec) (path : String) : Bool :=
  holdsNul path || p.arguments.any holdsNul || p.directory.any holdsNul ||
    p.additions.any fun e => holdsNul e.1 || holdsNul e.2

/-- The files as the process sees them. -/
def filesOf (m : Machine) (p : ProcessSpec) : Except SystemFault FileTree :=
  match p.directory with
  | none => .ok m.files
  | some dir => m.files.enter dir

/-- The path of the program of a process and the files around it. -/
def prepare (m : Machine) (p : ProcessSpec) : Except StartFault (String × FileTree) :=
  match ProcessSpec.locate? m.which p.program p.directory with
  | none => .error .notFound
  | some path =>
      if isUnspeakable p path then .error (.refused (.other "nul byte found in provided data"))
      else
        match m.filesOf p with
        | .error fault => .error (.refused fault)
        | .ok files =>
            match files.find path with
            | .error fault => .error (.refused fault)
            | .ok (.program _) => .ok (path, files)
            | .ok _ => .error (.refused .permissionDenied)

/-- The run of a process that starts at a time and is sent signals. -/
def trace (m : Machine) (p : ProcessSpec) (start : Nat) (signals : List (Nat × Nat)) :
    Shell.Trace :=
  match m.prepare p with
  | .error _ => ⟨[], some (start, .exited 127), 0⟩
  | .ok (path, files) =>
      Shell.runCommand path p.arguments
        (.start (p.environment m.environment) files start signals)

/-- The number that the machine gives to a process. -/
def pidOf (id : ProcessId) : Nat :=
  1000 + id.number

/-- The machine as a launch sees it; `isGone` tells which processes have ended. -/
def host (m : Machine) (isGone : ProcessId → Bool) : Host where
  environment := m.environment
  command := m.command
  readFile := m.files.readText
  start id p := (m.prepare p).map fun _ => pidOf id
  signal id _ := .ok (!isGone id)

end Machine

/-! ## What a run looks like from outside -/

/-- How long outputs are still read when a process has ended and something it left behind
keeps them open. -/
def drainNanos : Nat := 500000000

/-- A line that was read, with the time and the place in the run of its last byte. -/
structure ReadLine where
  time : Nat
  place : Nat
  bytes : List UInt8

/-- The lines that the chunks of one stream make, and the bytes after the last one. The
chunks come with their places in the run. -/
def gatherLines (acc : List UInt8) : List (Nat × Shell.Chunk) → List ReadLine × List UInt8
  | [] => ([], acc.reverse)
  | (place, c) :: r =>
      let (lines, acc) := c.bytes.foldl
        (fun (p : List ReadLine × List UInt8) b =>
          if b = 10 then (⟨c.time, place, p.2.reverse⟩ :: p.1, []) else (p.1, b :: p.2))
        ([], acc)
      let (more, rest) := gatherLines acc r
      (lines.reverse ++ more, rest)

/-- A line without the carriage return before its end. -/
def stripReturn (bytes : List UInt8) : List UInt8 :=
  if bytes.getLast? = some 13 then bytes.dropLast else bytes

/-- What is read from one stream: the lines, and when the reading is over. It ends early
at a line that is no text. -/
def readStream (t : Shell.Trace) (stream : OutputStream) (closed : Nat) :
    List (Nat × Nat × String) × Nat :=
  let chunks := (t.chunks.zipIdx.map fun p => (p.2, p.1)).filter (·.2.stream = stream)
  let (lines, rest) := gatherLines [] chunks
  let ended := lines.map fun l => (l.time, l.place, Text.decode? (stripReturn l.bytes))
  let all := if rest.isEmpty then ended else ended ++ [(closed, t.chunks.length, Text.decode? rest)]
  let texts := (all.takeWhile (·.2.2.isSome)).map fun l => (l.1, l.2.1, l.2.2.getD "")
  match all.find? (·.2.2.isNone) with
  | some bad => (texts, bad.1)
  | none => (texts, closed)

/-- Put a line behind those that came no later. -/
def insertByTime (x : Nat × Nat × Notice) : List (Nat × Nat × Notice) → List (Nat × Nat × Notice)
  | [] => [x]
  | y :: r =>
      if x.1 < y.1 || (x.1 = y.1 && x.2.1 < y.2.1) then x :: y :: r else y :: insertByTime x r

/-- The end of a program as its supervisor sees it. -/
def statusOf : Shell.End → ExitStatus
  | .exited c => .ofCode c
  | .killed n => .ofSignal n

/-- The notices of a run in the order of their times. The end is told when both outputs
have been read to their ends or given up. -/
def noticesOf (id : ProcessId) (output : OutputMode) (t : Shell.Trace) : List (Nat × Notice) :=
  let finish := (t.ending.map (·.1)).getD (Nat.pow 10 30)
  let closed := max finish t.heldUntil
  let (out, outDone) := readStream t .stdout closed
  let (err, errDone) := readStream t .stderr closed
  let afterOut := max finish (min outDone (finish + drainNanos))
  let afterErr := max afterOut (min errDone (afterOut + drainNanos))
  let read (stream : OutputStream) (until_ : Nat) (lines : List (Nat × Nat × String)) :=
    (lines.filter (·.1 ≤ until_)).map fun l => (l.1, l.2.1, Notice.output id stream l.2.2)
  let lines :=
    if output = .discard then []
    else (read .stdout afterOut out ++ read .stderr afterErr err).foldl
      (fun acc x => insertByTime x acc) []
  let told := if output = .discard then finish else afterErr
  let ending := match t.ending with
    | none => []
    | some (_, how) => [(told, Notice.exited id (statusOf how) none)]
  lines.map (fun l => (l.1, l.2.2)) ++ ending

end Conductor
