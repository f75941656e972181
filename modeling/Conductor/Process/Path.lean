/-!
# Paths

Joining and taking apart paths as the operating system reads them: a path that
begins with a slash is absolute and stands for itself wherever it is joined.
-/

namespace Conductor.Path

/-- Whether a path begins at the root. -/
def isAbsolute (p : String) : Bool :=
  p.toList.head? = some '/'

/-- `path` as seen from the directory `dir`. -/
def join (dir path : String) : String :=
  if isAbsolute path then path
  else if dir.isEmpty then path
  else if dir.toList.getLast? = some '/' then dir ++ path
  else dir ++ "/" ++ path

/-- The parts between the slashes, without empty parts and the part `.`. -/
def splitParts : List Char → List Char → List (List Char)
  | [], acc => [acc.reverse]
  | c :: r, acc => if c = '/' then acc.reverse :: splitParts r [] else splitParts r (c :: acc)

/-- The names along a path, without the ones that lead nowhere. -/
def parts (p : String) : List String :=
  ((splitParts p.toList []).map String.ofList).filter fun s => !s.isEmpty && s ≠ "."

/-- The name of the file that a path ends with; nothing for a path that ends in `..`
and for one without names. -/
def fileName? (p : String) : Option String :=
  match (parts p).getLast? with
  | some n => if n = ".." then none else some n
  | none => none

/-- A path whose last step is spelled with a slash or a point asks for a directory. -/
def asksForDirectory (p : String) : Bool :=
  match ((splitParts p.toList []).map String.ofList).getLast? with
  | some s => (s.isEmpty && p.toList.head?.isSome) || s = "." || s = ".."
  | none => false

@[simp] theorem join_absolute {dir path : String} (h : isAbsolute path = true) :
    join dir path = path := by
  simp [join, h]

end Conductor.Path
