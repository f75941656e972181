import Conductor.CommandLine.Answer

/-!
# The program

The outermost layer: it looks at the surroundings of the program, lets the command line
be answered, and hands over what the answer says. The files that matter are those of
projects on the way up from the working directory and those that the command line names;
commands run on the machine of this library.
-/

namespace Conductor.Program

open CommandLine

/-- The environment variables that the program looks at. -/
def variableNames : List String :=
  ["PATH", "LAUNCHPAD_ROOT", "LAUNCHPAD_CONFIG", "LAUNCHPAD_GRACE"]

/-- The environment as far as the program looks at it. -/
def readEnvironment : IO (Table String String) := do
  let found ← variableNames.filterMapM fun n => do
    return (← IO.getEnv n).map fun v => (n, v)
  return .ofList found

/-- The tree with what stands under a path. -/
def readInto (tree : FileTree) (path : String) : IO FileTree := do
  let place := (← IO.currentDir) / path
  if ← place.isDir then return (tree.makeDirectories path).toOption.getD tree
  else if ← place.pathExists then
    let content ← IO.FS.readBinFile place
    return (tree.replaceFile path content.toList).toOption.getD tree
  else return tree

/-- The paths that an answer may depend on. -/
def relevantPaths (workingDirectory : List String) (asked : Option Invocation) : List String :=
  let found := (waysUp workingDirectory).map directoryPath
  let marks := found.flatMap fun d =>
    [Path.join d ".git", Path.join d Config.directory, Config.pathIn d]
  let named := match asked with
    | none => []
    | some i => i.root.toList.flatMap (fun r => [r, Config.pathIn r]) ++ i.configPath.toList
  marks ++ named

/-- Put the files in place that an answer changed. -/
def writeBack (before after : FileTree) (paths : List String) : IO Unit := do
  for path in paths do
    match after.readBytes path with
    | .error _ => pure ()
    | .ok content =>
        if (before.readBytes path).toOption ≠ some content then
          let place := (← IO.currentDir) / path
          match place.parent with
          | some dir => IO.FS.createDirAll dir
          | none => pure ()
          IO.FS.writeBinFile place ⟨content.toArray⟩

/-- Answer a command line in the surroundings of the program; gives the exit code. -/
def run (words : List String) : IO UInt32 := do
  let environment ← readEnvironment
  let here := (← IO.currentDir).toString
  let asked := (Invocation.read environment.get? words).toOption
  let names := Path.parts here
  let paths := relevantPaths names asked
  let base := (FileTree.standard.makeDirectories here).toOption.getD .standard
  let files ← paths.foldlM readInto { base with workingDirectory := names }
  let a := answer ⟨environment, files⟩ words
  writeBack files a.files paths
  IO.print a.stdout
  IO.eprint a.stderr
  return a.code.toUInt32

end Conductor.Program

/-- The program. -/
def main (words : List String) : IO UInt32 :=
  Conductor.Program.run words
