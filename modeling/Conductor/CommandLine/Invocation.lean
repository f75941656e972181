import Conductor.Binary64.Reader
import Conductor.CommandLine.Option
import Conductor.Process.Status

/-!
# What the program can be asked to do

The program runs commands under supervision, or shows, checks or writes the
configuration of a project.
-/

namespace Conductor.CommandLine

/-- How commands are to be run. -/
structure RunRequest where
  /-- A command with its arguments. -/
  words : List String
  /-- Lines for the shell, each a process of its own. -/
  lines : List String
  /-- The launch arguments as they are written. -/
  arguments : List String
  grace : Option Binary64
  failFast : Bool
  output : Option OutputMode
  /-- Start a command again when it has ended, after this many seconds. -/
  respawn : Option Binary64
  /-- Shut down when a command ends. -/
  stopOnExit : Bool
  /-- Shut down after this many seconds. -/
  timeout : Option Binary64

/-- What the program is asked to do. -/
inductive Request where
  | run (request : RunRequest)
  | showConfig
  | validateConfig
  /-- Write the standard configuration; `force` allows to write over another one. -/
  | initConfig (force : Bool)

/-- A command line that has been understood. -/
structure Invocation where
  root : Option String
  configPath : Option String
  /-- Answer in JSON. -/
  json : Bool
  request : Request

def programName : String := "launchpad"

def programVersion : String := "0.1.0"

/-- The options that every command has. -/
def sharedOptions : List OptionRule :=
  [{ name := "root", accepts := some fun s => !s.isEmpty, standIn := some "LAUNCHPAD_ROOT" },
    { name := "config", accepts := some fun s => !s.isEmpty, standIn := some "LAUNCHPAD_CONFIG" },
    { name := "json", letter := some 'j' }]

/-- Whether a value is a number of seconds; infinities and the like are numbers here. -/
def isSeconds (s : String) : Bool :=
  (Binary64.read? s).isSome

/-- The command that runs commands. -/
def runCommand : Command :=
  .mk "exec"
    (sharedOptions ++
      [{ name := "sh", accepts := some fun _ => true, repeats := true },
        { name := "arg", letter := some 'a', accepts := some fun _ => true, repeats := true },
        { name := "grace", accepts := some isSeconds, standIn := some "LAUNCHPAD_GRACE" },
        { name := "fail-fast" },
        { name := "output", accepts := some fun s => (OutputMode.ofName? s).isSome },
        { name := "respawn", accepts := some isSeconds },
        { name := "stop-on-exit" },
        { name := "timeout", accepts := some isSeconds }])
    true []

def configCommand : Command :=
  .mk "config" sharedOptions false
    [.mk "show" sharedOptions false [], .mk "validate" sharedOptions false [],
      .mk "init" (sharedOptions ++ [{ name := "force" }]) false []]

/-- The program itself. -/
def programCommand : Command :=
  .mk programName sharedOptions false [runCommand, configCommand]

/-- What the command for runs was asked. -/
def RunRequest.ofReading (r : Reading) : RunRequest where
  words := r.words
  lines := r.all "sh"
  arguments := r.all "arg"
  grace := (r.get? "grace").bind Binary64.read?
  failFast := r.has "fail-fast"
  output := (r.get? "output").bind OutputMode.ofName?
  respawn := (r.get? "respawn").bind Binary64.read?
  stopOnExit := r.has "stop-on-exit"
  timeout := (r.get? "timeout").bind Binary64.read?

/-- What the innermost command of a reading asks for. -/
def Request.ofReading? (r : Reading) : Option Request :=
  if r.command = "exec" then some (.run (.ofReading r))
  else if r.command = "show" then some .showConfig
  else if r.command = "validate" then some .validateConfig
  else if r.command = "init" then some (.initConfig (r.has "force"))
  else none

/-- Understand a command line. -/
def Invocation.read (environment : String → Option String) (words : List String) :
    Except Refusal Invocation := do
  let readings ← CommandLine.read environment programCommand words
  match readings.getLast?.bind Request.ofReading? with
  | none => throw .rejected
  | some request =>
      return {
        root := sharedValue? readings "root"
        configPath := sharedValue? readings "config"
        json := (sharedValue? readings "json").isSome
        request }

/-- The text that tells the version of a command. -/
def versionText (path : List String) : String :=
  "-".intercalate path ++ " " ++ programVersion ++ "\n"

end Conductor.CommandLine
