import Conductor.Error
import Conductor.Process.Path
import Conductor.Table
import Conductor.Text.Bytes

/-!
# Files

A tree of directories and files with a working directory. Paths are followed name by
name from the root or from the working directory; every name but the last must lead
to a directory.
-/

namespace Conductor

/-- What stands under a path. -/
inductive FileNode where
  | directory
  | file (content : List UInt8)
  /-- A file that can be executed. -/
  | program (name : String)
  deriving DecidableEq, Repr

/-- A tree of files. The root directory is always there. -/
structure FileTree where
  /-- What stands under each absolute path in plain form. -/
  nodes : Table String FileNode
  /-- The names from the root to the working directory. -/
  workingDirectory : List String

namespace FileTree

/-- The plain form of a path: the names from the root, each after a slash. -/
def pathOf (names : List String) : String :=
  String.join (names.map ("/" ++ ·))

/-- What stands at the end of the names from the root. -/
def node? (t : FileTree) (names : List String) : Option FileNode :=
  if names.isEmpty then some .directory else t.nodes.get? (pathOf names)

/-- Follow names from a directory. -/
def walk (t : FileTree) (here : List String) : List String → Except SystemFault (List String)
  | [] => .ok here
  | n :: rest =>
      match t.node? here with
      | none => .error .notFound
      | some .directory =>
          if n = ".." then t.walk here.dropLast rest else t.walk (here ++ [n]) rest
      | some _ => .error .notADirectory

/-- The names from the root that a path leads to, whether or not something is there. -/
def follow (t : FileTree) (path : String) : Except SystemFault (List String) :=
  if path.isEmpty then .error .notFound
  else t.walk (if Path.isAbsolute path then [] else t.workingDirectory) (Path.parts path)

/-- What a path leads to. -/
def find (t : FileTree) (path : String) : Except SystemFault FileNode :=
  match t.follow path with
  | .error e => .error e
  | .ok names =>
      match t.node? names with
      | none => .error .notFound
      | some .directory => .ok .directory
      | some n => if Path.asksForDirectory path then .error .notADirectory else .ok n

/-- Whether something stands under a path. -/
def has (t : FileTree) (path : String) : Bool :=
  match t.find path with
  | .ok _ => true
  | .error _ => false

def isDirectory (t : FileTree) (path : String) : Bool :=
  match t.find path with
  | .ok .directory => true
  | _ => false

def readBytes (t : FileTree) (path : String) : Except SystemFault (List UInt8) :=
  match t.find path with
  | .error e => .error e
  | .ok .directory => .error .isADirectory
  | .ok (.file content) => .ok content
  | .ok (.program _) => .error .notText

def readText (t : FileTree) (path : String) : Except SystemFault String :=
  match t.readBytes path with
  | .error e => .error e
  | .ok bytes =>
      match Text.decode? bytes with
      | some s => .ok s
      | none => .error .notText

/-- Make the directories along names that start at `here`. Something else may already
stand under the last name, or in the way to it. -/
def makeAlong (t : FileTree) (here : List String) : List String → Except SystemFault FileTree
  | [] => .ok t
  | n :: rest =>
      let next := if n = ".." then here.dropLast else here ++ [n]
      match t.node? next with
      | some .directory => t.makeAlong next rest
      | some _ => .error (if rest.isEmpty then .alreadyExists else .notADirectory)
      | none => { t with nodes := t.nodes.insert (pathOf next) .directory }.makeAlong next rest

/-- Make a directory and those above it. -/
def makeDirectories (t : FileTree) (path : String) : Except SystemFault FileTree :=
  t.makeAlong (if Path.isAbsolute path then [] else t.workingDirectory) (Path.parts path)

/-- The path without its last name; nothing when it has no name to go without. -/
def parent? (path : String) : Option String :=
  match (Path.parts path).getLast? with
  | none => none
  | some _ =>
      let dir := "/".intercalate (Path.parts path).dropLast
      some (if Path.isAbsolute path then "/" ++ dir else dir)

/-- Put a file in place as a whole; the directories above it are made. -/
def replaceFile (t : FileTree) (path : String) (content : List UInt8) :
    Except SystemFault FileTree := do
  let dir ← match parent? path with
    | none => throw .isADirectory
    | some dir => pure dir
  let t ← t.makeDirectories dir
  let names ← t.follow path
  if Path.asksForDirectory path then throw .notADirectory
  match t.node? names with
  | some .directory => throw .isADirectory
  | _ => return { t with nodes := t.nodes.insert (pathOf names) (.file content) }

/-- A tree with a file or, under a path that ends in a slash, a directory added. -/
def add (t : FileTree) (path text : String) : FileTree :=
  let made :=
    if path.toList.getLast? = some '/' then t.makeDirectories path
    else t.replaceFile path (Text.encode text)
  match made with
  | .ok t => t
  | .error _ => t

def programDirectories : List (List String) :=
  [["bin"], ["usr", "bin"]]

/-- The programs that every machine has. -/
def programs : List String :=
  ["sh", "true", "false", "echo", "printf", "cat", "sleep", "test", "["]

/-- A machine's files before anything is added; the working directory is empty. -/
def standard : FileTree :=
  let directories := [["bin"], ["usr"], ["usr", "bin"], ["usr", "local"], ["usr", "local", "bin"],
    ["dev"], ["etc"], ["home"], ["opt"], ["proc"], ["root"], ["tmp"], ["var"], ["work"]]
  let withDirectories := directories.foldl
    (fun (t : Table String FileNode) d => t.insert (pathOf d) .directory) .empty
  let nodes := (programDirectories.flatMap fun d => programs.map fun p => (d ++ [p], p)).foldl
    (fun (t : Table String FileNode) e => t.insert (pathOf e.1) (.program e.2)) withDirectories
  { nodes := nodes.insert "/dev/null" (.file []), workingDirectory := ["work"] }

/-- The tree as seen from another directory. -/
def enter (t : FileTree) (path : String) : Except SystemFault FileTree :=
  match t.find path, t.follow path with
  | .ok .directory, .ok names => .ok { t with workingDirectory := names }
  | .ok _, _ => .error .notADirectory
  | .error e, _ => .error e

end FileTree

end Conductor
