import Conductor.CommandLine.Session

/-!
# The program's answer

A command line on a machine is answered by an exit code, what is written to the two
outputs, and the files that are left. A command line that cannot be read has the code 2,
a request that cannot be met the code 1, and a launch its own code.
-/

namespace Conductor.CommandLine

/-- What the program leaves behind. -/
structure Answer where
  code : Nat
  stdout : String
  stderr : String
  files : FileTree

/-- The exit code of a program that broke down. -/
def brokenCode : Nat := 101

/-- The answer to a complaint, with what was written before. -/
def Answer.ofComplaint (files : FileTree) (stdout : String) (c : Complaint) : Answer :=
  ⟨1, stdout, "error: " ++ c.message ++ "\n", files⟩

/-- The answer about a launch that has come to its end. -/
def Answer.ofLaunch (files : FileTree) (json : Bool) (l : Launch) : Answer :=
  let r := l.finish
  let shown := shownText l.supervisor.shown
  if json then
    ⟨r.exitCode, shown .stdout ++ (reportJson r).indented 0 ++ "\n", shown .stderr, files⟩
  else ⟨r.exitCode, shown .stdout ++ capturedText r, shown .stderr ++ summaryText r, files⟩

/-- The answer about a launch that broke off. -/
def Answer.ofHalt (files : FileTree) : Halt → Answer
  | .noDeadline shown =>
      ⟨brokenCode, shownText shown .stdout,
        shownText shown .stderr ++ "the grace period is too long\n", files⟩
  | .exhausted => ⟨brokenCode, "", "the launch does not end\n", files⟩

/-- Run the commands of a request. -/
def runRequest (m : Machine) (root : String) (i : Invocation) (r : RunRequest) :
    Except Complaint Answer := do
  let config ← r.configure (← loadConfig m.files root i.configPath)
  let arguments ← (LaunchArguments.read r.arguments).mapError .badArgument
  let description ← r.describe arguments
  match m.conduct config arguments description with
  | .ok l => return .ofLaunch m.files i.json l
  | .error h => return .ofHalt m.files h

def showConfig (i : Invocation) (c : Config) : String :=
  if i.json then (Json.obj c.fields).indented 0 ++ "\n" else c.document

/-- Tell what is wrong or odd about a configuration. -/
def validateConfig (m : Machine) (i : Invocation) (c : Config) : Answer :=
  let findings := c.check
  let told :=
    if i.json then (findingsJson findings).indented 0 ++ "\n" else findingsText findings
  if hasErrors findings then .ofComplaint m.files told .errorsFound
  else ⟨0, told, "", m.files⟩

/-- Meet a request. -/
def Invocation.meet (m : Machine) (i : Invocation) : Except Complaint Answer := do
  let root := projectRoot m.files i.root
  match i.request with
  | .run r => runRequest m root i r
  | .showConfig => return ⟨0, showConfig i (← loadConfig m.files root i.configPath), "", m.files⟩
  | .validateConfig => return validateConfig m i (← loadConfig m.files root i.configPath)
  | .initConfig force =>
      let files ← initConfig m.files root force
      return ⟨0, "Wrote " ++ Config.pathIn root ++ "\n", "", files⟩

/-- How a command is used. -/
def useText (path : List String) : String :=
  "Usage: " ++ " ".intercalate path ++ " [OPTIONS] [COMMAND]\n"

/-- The answer to a command line that leads to no work. -/
def Answer.ofRefusal (files : FileTree) : Refusal → Answer
  | .rejected =>
      ⟨2, "", "error: the command line cannot be read\n" ++ useText [programName], files⟩
  | .version path => ⟨0, versionText path, "", files⟩
  | .help path => ⟨0, useText path, "", files⟩

/-- Answer a command line. -/
def answer (m : Machine) (words : List String) : Answer :=
  match Invocation.read m.environment.get? words with
  | .error refusal => .ofRefusal m.files refusal
  | .ok i =>
      match i.meet m with
      | .ok a => a
      | .error c => .ofComplaint m.files "" c

/-- Nothing but a launch and the writing of a configuration can change what is on a
machine; a command line that leads to no work leaves the files alone. -/
@[simp] theorem files_ofRefusal (files : FileTree) (r : Refusal) :
    (Answer.ofRefusal files r).files = files := by
  cases r <;> rfl

end Conductor.CommandLine
