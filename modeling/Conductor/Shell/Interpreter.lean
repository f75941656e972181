import Conductor.Duration
import Conductor.Machine.FileTree
import Conductor.Process.Status
import Conductor.Shell.Arithmetic
import Conductor.Shell.Format
import Conductor.Text.Blank

/-!
# Running scripts and programs

A program runs in virtual time: only sleeping takes any. Its run is a function of the
program, its environment and the signals it will be sent with the times of their
arrival, and gives what it writes and when, and how and when it ends.

A signal that is neither ignored nor caught ends the program. A caught one is answered
when the command in the foreground is done.
-/

namespace Conductor.Shell

/-- Bytes that a program wrote at a time, in nanoseconds. -/
structure Chunk where
  time : Nat
  stream : OutputStream
  bytes : List UInt8
  deriving DecidableEq, Repr

/-- Where an output goes. -/
inductive Sink where
  | stream (s : OutputStream)
  | nowhere
  /-- Kept for the command around. -/
  | kept
  | file (path : String)
  deriving DecidableEq, Repr

/-- How a script goes on. -/
inductive Flow where
  | running
  /-- Leaving so many loops, or going on with the next turn of the outermost of them. -/
  | leaving (loops : Nat) (again : Bool)
  | exited (code : Nat)
  | killed (signal : Nat)
  /-- It came to no end within its bound. -/
  | endless
  deriving DecidableEq, Repr

/-- The state of a running script. -/
structure State where
  vars : Table String String
  /-- The variables handed to programs. -/
  exported : List String
  /-- The name of the script and its arguments. -/
  positional : List String
  status : Nat
  clock : Nat
  /-- What was written, latest first. -/
  chunks : List Chunk
  /-- What was kept for the command around, latest first. -/
  kept : List (List UInt8)
  out : Sink
  err : Sink
  input : List UInt8
  /-- The command for each caught signal, empty for an ignored one. -/
  traps : List (Nat × String)
  /-- The signals still to come, with their times. -/
  signals : List (Nat × Nat)
  /-- The commands of signals that came, oldest first. -/
  caught : List String
  /-- Until when programs that were left behind keep the outputs open. -/
  heldUntil : Nat
  files : FileTree
  flow : Flow

/-- The number that a script sees as its own process. -/
def ownNumber : Nat := 4321

/-- Names and numbers of signals. -/
def signalNumbers : List (String × Nat) :=
  [("HUP", 1), ("INT", 2), ("QUIT", 3), ("ILL", 4), ("TRAP", 5), ("ABRT", 6), ("BUS", 7),
    ("FPE", 8), ("KILL", 9), ("USR1", 10), ("SEGV", 11), ("USR2", 12), ("PIPE", 13), ("ALRM", 14),
    ("TERM", 15), ("CHLD", 17), ("CONT", 18), ("URG", 23), ("WINCH", 28)]

/-- The number of a signal given by name, with or without `SIG`, or by number. -/
def signalNumber? (s : String) : Option Nat :=
  match s.toNat? with
  | some n => some n
  | none =>
      if s = "EXIT" then some 0
      else signalNumbers.lookup (if "SIG".toList.isPrefixOf s.toList then
        String.ofList (s.toList.drop 3) else s)

/-- The name of a signal, with `SIG`. -/
def signalName (n : Nat) : String :=
  match signalNumbers.find? fun p => p.2 = n with
  | some (name, _) => "SIG" ++ name
  | none => ""

/-- Whether a signal that is neither ignored nor caught ends a program. -/
def isDeadly (n : Nat) : Bool :=
  !([17, 18, 23, 28].contains n)

namespace State

def isRunning (s : State) : Bool :=
  s.flow = .running

def writeTo (s : State) (sink : Sink) (bytes : List UInt8) : State :=
  if bytes.isEmpty then s
  else
    match sink with
    | .stream stream => { s with chunks := ⟨s.clock, stream, bytes⟩ :: s.chunks }
    | .nowhere => s
    | .kept => { s with kept := bytes :: s.kept }
    | .file path =>
        let old := match s.files.readBytes path with
          | .ok bs => bs
          | .error _ => []
        match s.files.replaceFile path (old ++ bytes) with
        | .ok files => { s with files }
        | .error _ => s

def write (s : State) (bytes : List UInt8) : State :=
  s.writeTo s.out bytes

def complain (s : State) (text : String) : State :=
  s.writeTo s.err (Text.encode text)

def withStatus (s : State) (n : Nat) : State :=
  { s with status := n }

/-- Take a signal: it is ignored, caught, or ends the program. -/
def takeSignal (s : State) (n : Nat) : State :=
  if n = 9 then { s with flow := .killed 9 }
  else
    match s.traps.lookup n with
    | some "" => s
    | some command => { s with caught := s.caught ++ [command] }
    | none => if isDeadly n then { s with flow := .killed n } else s

/-- Take the signals that have come by now. -/
def takeDue (s : State) : State :=
  let (due, later) := s.signals.partition fun p => p.1 ≤ s.clock
  due.foldl (fun s p => if s.isRunning then s.takeSignal p.2 else s) { s with signals := later }

/-- Wait for a program in the foreground until `finish`; a signal that ends the script
leaves the program behind. When the script has become the program itself, what it
caught is no longer caught and nothing is left behind. -/
def waitUntil (s : State) (itself : Bool) (finish : Nat) : State :=
  let s := if itself then { s with traps := s.traps.filter fun p => p.2.isEmpty } else s
  let (due, later) := s.signals.partition fun p => p.1 ≤ finish
  let s := due.foldl
    (fun s p =>
      if s.isRunning then { s with clock := max s.clock p.1 }.takeSignal p.2 else s)
    { s with signals := later }
  if s.isRunning then { s with clock := finish }
  else if itself then s
  else { s with heldUntil := max s.heldUntil finish }

/-- The value of a parameter. -/
def parameter (s : State) (name : String) : String :=
  match name with
  | "?" => toString s.status
  | "$" => toString ownNumber
  | "#" => toString (s.positional.length - 1)
  | "@" => " ".intercalate (s.positional.drop 1)
  | "*" => " ".intercalate (s.positional.drop 1)
  | _ =>
      match name.toNat? with
      | some n => (s.positional[n]?).getD ""
      | none => (s.vars.get? name).getD ""

/-- The value of what stands in braces: a parameter, possibly with a word in its place
when it is empty. -/
def bracedParameter (s : State) (inner : String) : String :=
  let cs := inner.toList
  let name := cs.takeWhile fun c => isParameterChar c
  match cs.dropWhile fun c => isParameterChar c with
  | ':' :: '-' :: word =>
      let value := s.parameter (String.ofList name)
      if value.isEmpty then String.ofList word else value
  | '-' :: word =>
      match s.vars.get? (String.ofList name) with
      | some value => value
      | none => String.ofList word
  | [] => s.parameter inner
  | _ => s.parameter inner

def setVar (s : State) (name value : String) : State :=
  { s with vars := s.vars.insert name value }

/-- The environment handed to programs. -/
def environment (s : State) : Table String String :=
  s.vars.filter fun n _ => s.exported.contains n

end State

/-! ## Expansion of words -/

/-- The fields of a word being put together: the finished ones, and the one begun. -/
structure Fields where
  finished : List String
  begun : Option String

namespace Fields

def append (f : Fields) (text : String) : Fields :=
  { f with begun := some (f.begun.getD "" ++ text) }

def cut (f : Fields) : Fields :=
  match f.begun with
  | none => f
  | some t => ⟨f.finished ++ [t], none⟩

def appendSplit (f : Fields) (text : String) : Fields :=
  text.toList.foldl
    (fun f c => if c = ' ' ∨ c = '\t' ∨ c = '\n' then f.cut else f.append (String.singleton c)) f

def toList (f : Fields) : List String :=
  f.cut.finished

end Fields

/-! ## Commands without a script inside -/

/-- The end of a sleep in seconds with an optional unit. -/
def sleepNanos? (s : String) : Option Nat :=
  let cs := s.toList
  let (digits, unit) := match cs.getLast? with
    | some 's' => (cs.dropLast, 1)
    | some 'm' => (cs.dropLast, 60)
    | some 'h' => (cs.dropLast, 3600)
    | some 'd' => (cs.dropLast, 86400)
    | _ => (cs, 1)
  if s = "infinity" ∨ s = "inf" then some (Nat.pow 10 20)
  else (Binary64.read? (String.ofList digits)).bind fun x =>
    (Duration.ofSeconds? x).map fun d => d.nanos * unit

/-- The answer of `test`: nothing when it cannot make sense of its arguments. -/
def testAnswer? (files : FileTree) : List String → Option Bool
  | [] => some false
  | ["!", a] => some a.isEmpty
  | [a] => some (!a.isEmpty)
  | ["-n", a] => some (!a.isEmpty)
  | ["-z", a] => some a.isEmpty
  | ["-e", a] => some (files.has a)
  | ["-d", a] => some (files.isDirectory a)
  | ["-f", a] => some (files.has a && !files.isDirectory a)
  | "!" :: r => (testAnswer? files r).map Bool.not
  | [a, o, b] =>
      let compare (f : Int → Int → Bool) : Option Bool :=
        some (f (Arithmetic.numberOf a) (Arithmetic.numberOf b))
      match o with
      | "=" => some (a = b)
      | "!=" => some (a ≠ b)
      | "-eq" => compare fun x y => x = y
      | "-ne" => compare fun x y => x ≠ y
      | "-lt" => compare fun x y => x < y
      | "-le" => compare fun x y => x ≤ y
      | "-gt" => compare fun x y => y < x
      | "-ge" => compare fun x y => y ≤ x
      | _ => none
  | _ => none

/-- Print files one after the other, or the input when none is named. -/
def catFiles (s : State) : List String → State
  | [] => s
  | path :: rest =>
      match s.files.readBytes path with
      | .ok bytes => catFiles (s.write bytes) rest
      | .error fault =>
          let why := (fault.message.splitOn " (os error").head?.getD ""
          let s := s.complain ("cat: " ++ path ++ ": " ++ why ++ "\n")
          { catFiles s rest with status := 1 }

/-- Run a program other than a shell. Nothing when there is no such program. -/
def program? (itself : Bool) (name : String) (arguments : List String) (s : State) :
    Option State :=
  let s := s.withStatus 0
  match name with
  | "true" => some s
  | "false" => some (s.withStatus 1)
  | "echo" => some (s.write (echoProgramBytes arguments))
  | "printf" => some (s.write (printfBytes arguments))
  | "cat" => some (if arguments.isEmpty then s.write s.input else catFiles s arguments)
  | "test" =>
      some (s.withStatus (match testAnswer? s.files arguments with
        | some true => 0 | some false => 1 | none => 2))
  | "[" =>
      some (s.withStatus (match testAnswer? s.files arguments.dropLast with
        | some true => 0 | some false => 1 | none => 2))
  | "sleep" =>
      match arguments.mapM sleepNanos? with
      | some (n :: ns) => some (s.waitUntil itself (s.clock + ns.foldl (· + ·) n))
      | _ =>
          let bad := (arguments.find? fun a => (sleepNanos? a).isNone).getD ""
          let text := if arguments.isEmpty then "sleep: missing operand\n"
            else "sleep: invalid time interval ‘" ++ bad ++ "’\n"
          some ((s.complain (text ++ "Try 'sleep --help' for more information.\n")).withStatus 1)
  | _ => none

/-- The program that a name stands for, looked up along the path. -/
def findProgram? (s : State) (name : String) : Option String :=
  let ofFile (path : String) : Option String :=
    match s.files.find path with
    | .ok (.program p) => some p
    | _ => none
  if name.toList.contains '/' then ofFile name
  else
    let path := (s.vars.get? "PATH").getD "/usr/local/bin:/usr/bin:/bin"
    (path.splitOn ":").findSome? fun dir => ofFile (Path.join dir name)

/-- Apply a redirection whose words have been expanded. -/
def redirect (s : State) (descriptor : Nat) (sink : Sink) : State :=
  if descriptor = 2 then { s with err := sink } else { s with out := sink }

/-- Set commands for signals. -/
def setTraps (s : State) (command : String) (names : List String) : State :=
  let ns := names.filterMap signalNumber?
  let others := s.traps.filter fun p => !ns.contains p.1
  { s with traps := if command = "-" then others else others ++ ns.map (·, command) }

/-- Send a signal to oneself. -/
def killSelf (s : State) (arguments : List String) : State :=
  let (name, pids) := match arguments with
    | "-s" :: n :: r => (n, r)
    | a :: r => if a.toList.head? = some '-' then (String.ofList (a.toList.drop 1), r) else ("TERM", a :: r)
    | [] => ("TERM", [])
  match signalNumber? name with
  | none => s.withStatus 1
  | some n =>
      if pids.contains (toString ownNumber) then
        if n = 0 then s.withStatus 0 else (s.withStatus 0).takeSignal n
      else s.withStatus 1

/-- Commands that change the shell itself, apart from those that run a script. -/
def builtin? (name : String) (arguments : List String) (s : State) : Option State :=
  match name with
  | ":" => some (s.withStatus 0)
  | "true" => some (s.withStatus 0)
  | "false" => some (s.withStatus 1)
  | "echo" => some ((s.withStatus 0).write (echoBytes arguments))
  | "printf" => some ((s.withStatus 0).write (printfBytes arguments))
  | "exit" =>
      let code := match arguments with
        | a :: _ => (Arithmetic.numberOf a).toNat % 256
        | [] => s.status
      some { s with flow := .exited code, status := code }
  | "kill" => some (killSelf s arguments)
  | "trap" =>
      match arguments with
      | [] => some (s.withStatus 0)
      | command :: names => some ((setTraps s command names).withStatus 0)
  | "break" =>
      some { s with flow := .leaving ((arguments.head?.bind String.toNat?).getD 1) false, status := 0 }
  | "continue" =>
      some { s with flow := .leaving ((arguments.head?.bind String.toNat?).getD 1) true, status := 0 }
  | "export" =>
      some ((arguments.foldl
        (fun s a =>
          let name := String.ofList (a.toList.takeWhile (· ≠ '='))
          let s : State := { s with exported := name :: s.exported }
          match a.toList.dropWhile (· ≠ '=') with
          | _ :: v => s.setVar name (String.ofList v)
          | [] => s)
        s).withStatus 0)
  | "unset" =>
      some ({ s with vars := arguments.foldl (fun t n => t.erase n) s.vars }.withStatus 0)
  | "cd" =>
      match s.files.enter (arguments.head?.getD "/") with
      | .ok files => some { s with files, status := 0 }
      | .error _ =>
          some ((s.complain ("sh: 1: cd: can't cd to " ++ arguments.head?.getD "" ++ "\n")).withStatus 2)
  | "read" =>
      let line := s.input.takeWhile (· ≠ 10)
      let rest := (s.input.dropWhile (· ≠ 10)).drop 1
      let s' := { s with input := rest, status := if s.input.isEmpty then 1 else 0 }
      some (s'.setVar (arguments.head?.getD "REPLY") (Text.trim (Text.decodeLossy line)))
  | "test" =>
      some (s.withStatus (match testAnswer? s.files arguments with
        | some true => 0 | some false => 1 | none => 2))
  | "[" =>
      some (s.withStatus (match testAnswer? s.files arguments.dropLast with
        | some true => 0 | some false => 1 | none => 2))
  | _ => none

/-- What a script that ran inside another leaves to it: its output and its status. -/
def leaveInner (outer inner : State) : State :=
  let status := match inner.flow with
    | .exited c => c
    | .killed n => 128 + n
    | _ => inner.status
  { outer with
    status
    clock := inner.clock
    chunks := inner.chunks
    kept := inner.kept
    signals := inner.signals
    heldUntil := max outer.heldUntil inner.heldUntil
    files := { inner.files with workingDirectory := outer.files.workingDirectory }
    flow := if inner.flow = .endless then .endless else .running }

mutual

/-- The fields that a word expands to, or its whole text when it is not split. The first
argument bounds the number of steps. -/
def expandInto : Nat → Word → Fields → State → Fields × State
  | _, [], f, s => (f, s)
  | 0, _ :: _, f, s => (f, { s with flow := .endless })
  | n + 1, segment :: rest, f, s =>
      let add (quoted : Bool) (text : String) : Fields :=
        if quoted then f.append text else f.appendSplit text
      match segment with
      | .literal t _ => expandInto n rest (f.append t) s
      | .parameter name quoted => expandInto n rest (add quoted (s.bracedParameter name)) s
      | .arithmetic e quoted =>
          match Arithmetic.evaluate? s.parameter e with
          | some v => expandInto n rest (add quoted (toString v)) s
          | none =>
              let s := s.complain "sh: 1: arithmetic expression\n"
              (f, { s with flow := .exited 2, status := 2 })
      | .output script quoted =>
          match Script.parse? script with
          | none => (f, { s with flow := .exited 2, status := 2 })
          | some script =>
              let inner := runScript n false script { s with out := .kept, kept := [] }
              let text := Text.decodeLossy inner.kept.reverse.flatten
              let bare := String.ofList (text.toList.reverse.dropWhile (· = '\n')).reverse
              expandInto n rest (add quoted bare) { leaveInner s inner with kept := s.kept }

/-- The fields of several words. -/
def expandAll : Nat → List Word → State → List String × State
  | _, [], s => ([], s)
  | 0, _ :: _, s => ([], { s with flow := .endless })
  | n + 1, w :: rest, s =>
      let (f, s) := expandInto n w ⟨[], none⟩ s
      let (more, s) := expandAll n rest s
      (f.toList ++ more, s)

/-- The text of a word that is not split. -/
def expandText : Nat → Word → State → String × State
  | 0, _, s => ("", { s with flow := .endless })
  | n + 1, w, s =>
      let quoted := w.map fun
        | .literal t _ => Segment.literal t true
        | .parameter name _ => .parameter name true
        | .arithmetic e _ => .arithmetic e true
        | .output script _ => .output script true
      let (f, s) := expandInto n quoted ⟨[], none⟩ s
      (" ".intercalate f.toList, s)

/-- Carry out assignments. -/
def assignAll : Nat → List (String × Word) → State → State
  | _, [], s => s
  | 0, _ :: _, s => { s with flow := .endless }
  | n + 1, (name, w) :: rest, s =>
      let (value, s) := expandText n w s
      assignAll n rest (s.setVar name value)

/-- Carry out redirections. -/
def redirectAll : Nat → List Redirection → State → State
  | _, [], s => s
  | 0, _ :: _, s => { s with flow := .endless }
  | n + 1, r :: rest, s =>
      match r with
      | .toDescriptor d target =>
          redirectAll n rest (redirect s d (if target = 2 then s.err else s.out))
      | .toFile d append w =>
          let (path, s) := expandText n w s
          if path = "/dev/null" then redirectAll n rest (redirect s d .nowhere)
          else
            let s :=
              if append then s
              else match s.files.replaceFile path [] with
                | .ok files => { s with files }
                | .error _ => s
            redirectAll n rest (redirect s d (.file path))
      | .fromFile w =>
          let (path, s) := expandText n w s
          match s.files.readBytes path with
          | .ok bytes => redirectAll n rest { s with input := bytes }
          | .error _ =>
              { s.complain ("sh: 1: cannot open " ++ path ++ ": No such file\n") with
                status := 2, flow := .exited 2 }

/-- Run a program in place of, or in front of, the script. -/
def runProgram : Nat → Bool → String → List String → State → State
  | 0, _, _, _, s => { s with flow := .endless }
  | n + 1, itself, name, arguments, s =>
      match findProgram? s name with
      | none => (s.complain ("sh: 1: " ++ name ++ ": not found\n")).withStatus 127
      | some "sh" =>
          let inner : State := { s with
            vars := s.environment
            traps := s.traps.filter fun p => p.2.isEmpty
            caught := []
            status := 0
            signals := if itself then s.signals else [] }
          match arguments with
          | "-c" :: text :: positional =>
              match Script.parse? text with
              | none => (s.complain "sh: 1: Syntax error\n").withStatus 2
              | some script =>
                  let name := positional.head?.getD "sh"
                  let inner := runScript n itself script
                    { inner with positional := name :: positional.drop 1 }
                  if itself then inner else { leaveInner s inner with signals := s.signals }
          | _ => s.withStatus 0
      | some p => (program? itself p arguments s).getD (s.withStatus 126)

/-- Run a simple command whose words have been expanded. -/
def runWords : Nat → Bool → List String → State → State
  | 0, _, _, s => { s with flow := .endless }
  | _ + 1, _, [], s => s
  | n + 1, last, name :: arguments, s =>
      match name, arguments with
      | "exec", [] => s
      | "exec", program :: arguments =>
          let s := runProgram n true program arguments s
          if s.isRunning then { s with flow := .exited s.status } else s
      | "eval", _ =>
          match Script.parse? (" ".intercalate arguments) with
          | none => { s with flow := .exited 2, status := 2 }
          | some script => runScript n last script s
      | _, _ =>
          match builtin? name arguments s with
          | some s => s
          | none =>
              let itself := last && s.traps.all fun p => p.2.isEmpty
              runProgram n itself name arguments s

/-- Run the commands of signals that were caught. -/
def runCaught : Nat → State → State
  | 0, s => { s with flow := .endless }
  | n + 1, s =>
      match s.caught with
      | [] => s
      | command :: rest =>
          if s.isRunning then
            let status := s.status
            match Script.parse? command with
            | none => runCaught n { s with caught := rest }
            | some script =>
                let s := runScript n false script { s with caught := rest }
                runCaught n (if s.isRunning then s.withStatus status else s)
          else s

/-- Run a script; `last` tells that nothing is left to do after it. -/
def runScript : Nat → Bool → Script → State → State
  | 0, _, _, s => { s with flow := .endless }
  | n + 1, last, script, s =>
      if !s.isRunning then s
      else
        match script with
        | .empty => s
        | .simple assignments words redirections =>
            let s := s.takeDue
            if !s.isRunning then s
            else
              let (fields, s) := expandAll n words s
              let (out, err, input) := (s.out, s.err, s.input)
              let (vars, exported) := (s.vars, s.exported)
              let s := assignAll n assignments s
              if fields.isEmpty then
                let s := redirectAll n redirections s
                runCaught n { s with out, err, input, status := if words.isEmpty then 0 else s.status }
              else
                let s := { s with exported := assignments.map (·.1) ++ s.exported }
                let s := redirectAll n redirections s
                let s := if s.isRunning then runWords n last fields s else s
                let s := if assignments.isEmpty then s else { s with vars, exported }
                let keeps := fields.head? = some "read" && redirections.isEmpty
                runCaught n { s with out, err, input := if keeps then s.input else input }
        | .sequence a b =>
            let s := runScript n (last && b matches .empty) a s
            runScript n last b s
        | .both a b =>
            let s := runScript n false a s
            if s.status = 0 then runScript n last b s else s
        | .either a b =>
            let s := runScript n false a s
            if s.status = 0 then s else runScript n last b s
        | .negated a =>
            let s := runScript n false a s
            s.withStatus (if s.status = 0 then 1 else 0)
        | .pipe a b =>
            let first := runScript n false a { s with out := .kept, kept := [] }
            let input := first.kept.reverse.flatten
            let s := { leaveInner s first with kept := s.kept }
            leaveInner s (runScript n false b { s with input })
        | .choice test yes no =>
            let s := runScript n false test s
            if !s.isRunning then s
            else if s.status = 0 then runScript n last yes s
            else runScript n last no (s.withStatus 0)
        | .loop wanted test body =>
            let s := runScript n false test s
            if !s.isRunning then s
            else if (s.status = 0) = wanted then
              let s := runScript n false body s
              match s.flow with
              | .running => runScript n last (.loop wanted test body) s
              | .leaving 1 true => runScript n last (.loop wanted test body) { s with flow := .running }
              | .leaving 1 false => { s with flow := .running }
              | .leaving (k + 2) again => { s with flow := .leaving (k + 1) again }
              | _ => s
            else s.withStatus 0
        | .each name words body =>
            let (fields, s) := expandAll n words s
            runEach n name fields body s
        | .subshell a => leaveInner s (runScript n false a s)
        | .redirected a redirections =>
            let (out, err, input) := (s.out, s.err, s.input)
            let s := runScript n false a (redirectAll n redirections s)
            { s with out, err, input }

/-- Run the body of a loop over fields. -/
def runEach : Nat → String → List String → Script → State → State
  | 0, _, _, _, s => { s with flow := .endless }
  | _ + 1, _, [], _, s => s
  | n + 1, name, field :: rest, body, s =>
      let s := runScript n false body (s.setVar name field)
      match s.flow with
      | .running => runEach n name rest body s
      | .leaving 1 true => runEach n name rest body { s with flow := .running }
      | .leaving 1 false => { s with flow := .running }
      | .leaving (k + 2) again => { s with flow := .leaving (k + 1) again }
      | _ => s

end

/-- How a program ended. -/
inductive End where
  | exited (code : Nat)
  | killed (signal : Nat)
  deriving DecidableEq, Repr

/-- What a program writes and how it ends. -/
structure Trace where
  /-- Oldest first. -/
  chunks : List Chunk
  /-- When and how it ends; nothing for a program that goes on. -/
  ending : Option (Nat × End)
  /-- Until when what it left behind keeps its outputs open. -/
  heldUntil : Nat

/-- The bound on the steps of a program. -/
def stepBound : Nat := 20000

/-- The trace of a state in which a program stopped. A program that goes on is ended by
the first deadly signal still to come. -/
def State.trace (s : State) : Trace :=
  let ending :=
    match s.flow with
    | .exited c => some (s.clock, End.exited c)
    | .killed n => some (s.clock, End.killed n)
    | .running => some (s.clock, End.exited s.status)
    | .leaving _ _ => some (s.clock, End.exited s.status)
    | .endless =>
        (s.signals.find? fun p =>
          p.2 = 9 || (isDeadly p.2 && (s.traps.lookup p.2).isNone)).map fun p =>
            (max s.clock p.1, End.killed p.2)
  ⟨s.chunks.reverse, ending, s.heldUntil⟩

/-- A program about to start. -/
def State.start (environment : Table String String) (files : FileTree) (time : Nat)
    (signals : List (Nat × Nat)) : State where
  vars := environment
  exported := environment.keys
  positional := ["sh"]
  status := 0
  clock := time
  chunks := []
  kept := []
  out := .stream .stdout
  err := .stream .stderr
  input := []
  traps := []
  signals := signals
  caught := []
  heldUntil := 0
  files := files
  flow := .running

/-- Run what was asked for at the end of a script that ended by itself. -/
def runExitTrap (s : State) : State :=
  match s.flow, s.traps.lookup 0 with
  | .killed _, _ => s
  | .endless, _ => s
  | _, none => s
  | _, some command =>
      match Script.parse? command with
      | none => s
      | some script =>
          let status := match s.flow with
            | .exited c => c
            | _ => s.status
          let t := runScript stepBound false script { s with flow := .running, traps := [], status }
          if t.isRunning then { t with flow := .exited status } else t

/-- Run the program of a file with arguments. -/
def runCommand (path : String) (arguments : List String) (s : State) : Trace :=
  (runExitTrap (runProgram stepBound true path arguments s)).trace

end Conductor.Shell
