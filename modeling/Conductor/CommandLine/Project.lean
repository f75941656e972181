import Conductor.CommandLine.Invocation
import Conductor.Config.Store
import Conductor.Machine.Basic

/-!
# Projects and their configurations

The project is the one that is asked for, or the nearest directory on the way up that
holds a directory of its own for launches, or the nearest one that is under version
control, or the working directory. What goes wrong is told as a chain of texts, from the
work that failed to its cause.
-/

namespace Conductor.CommandLine

/-- Why a request could not be met. -/
inductive Complaint where
  /-- The configuration could not be loaded, from the given path or from the project. -/
  | loading (path : Option String) (cause : LaunchError)
  | saving (cause : LaunchError)
  | configExists (path : String)
  /-- A check of the configuration found errors. -/
  | errorsFound
  /-- The configuration to run with has errors. -/
  | invalidConfig (messages : List String)
  | badArgument (cause : LaunchError)
  | nothingToRun
  | badRespawn

namespace Complaint

def message : Complaint → String
  | .loading (some path) cause => "failed to load config from " ++ path ++ ": " ++ cause.message
  | .loading none cause => "failed to load config: " ++ cause.message
  | .saving cause => "failed to save config: " ++ cause.message
  | .configExists path => path ++ " already exists (use --force to overwrite)"
  | .errorsFound => "config validation found errors"
  | .invalidConfig messages => "invalid configuration: " ++ Text.joinWith "; " messages
  | .badArgument cause => "invalid --arg: " ++ cause.message
  | .nothingToRun => "nothing to run: pass a command after \x60--\x60 or use --sh"
  | .badRespawn => "--respawn must be a non-negative number of seconds"

end Complaint

/-- The directories from the one with these names up to the root. -/
def waysUp : List String → List (List String)
  | [] => [[]]
  | n :: rest => (waysUp rest).map (n :: ·) ++ [[]]

def directoryPath (names : List String) : String :=
  if names.isEmpty then "/" else FileTree.pathOf names

/-- The nearest directory, from the working directory up, that holds a directory of the
given name. -/
def nearestWith (files : FileTree) (mark : String) : Option String :=
  ((waysUp files.workingDirectory).map directoryPath).find? fun dir =>
    files.isDirectory (Path.join dir mark)

/-- The directory of the project. -/
def projectRoot (files : FileTree) (asked : Option String) : String :=
  asked.getD <|
    ((nearestWith files Config.directory).or (nearestWith files ".git")).getD
      (directoryPath files.workingDirectory)

/-- The configuration that is asked for by a path, or the project's own. -/
def loadConfig (files : FileTree) (root : String) (path : Option String) :
    Except Complaint Config :=
  match path with
  | some p => (Config.loadFrom files p).mapError (.loading (some p))
  | none => (Config.load files root).mapError (.loading none)

def findingsJson (findings : List Config.Finding) : Json :=
  .obj [("warnings", .arr (findings.map fun f =>
    .obj [("level", .str f.level.name), ("message", .str f.message)]))]

def findingsText (findings : List Config.Finding) : String :=
  if findings.isEmpty then "Config is valid. No warnings.\n"
  else String.join (findings.map fun f => "[" ++ f.level.name ++ "] " ++ f.message ++ "\n")

/-- Whether a configuration cannot be used. -/
def hasErrors (findings : List Config.Finding) : Bool :=
  findings.any (·.level = .error)

/-- Put the standard configuration of a project in place. -/
def initConfig (files : FileTree) (root : String) (force : Bool) : Except Complaint FileTree :=
  let path := Config.pathIn root
  if files.has path && !force then .error (.configExists path)
  else (Config.save files root .standard).mapError .saving

end Conductor.CommandLine
