import Conductor.Machine.Basic

/-!
# The file that is executed

A process that runs in a directory of its own enters it before the path of its program is looked
up. The path itself is taken from that directory already (`ProcessSpec.locate?`), so on the way from
the launcher's directory to the file a directory that is not absolute is entered twice.
-/

namespace Conductor

/-! ## Joined paths -/

namespace Path

variable {dir path : String}

theorem splitParts_append_slash (xs ys acc : List Char) :
    splitParts (xs ++ '/' :: ys) acc = splitParts xs acc ++ splitParts ys [] := by
  induction xs generalizing acc with
  | nil => simp [splitParts]
  | cons x xs ih =>
      simp only [List.cons_append, splitParts]
      split
      · rw [ih, List.cons_append]
      · exact ih _

theorem splitParts_ne_nil (xs acc : List Char) : splitParts xs acc ≠ [] := by
  induction xs generalizing acc with
  | nil => simp [splitParts]
  | cons x xs ih =>
      rw [splitParts]
      split
      · exact List.cons_ne_nil _ _
      · exact ih _

/-- The names along two paths with a slash between them. -/
theorem parts_append_slash (front path : String) :
    parts (front ++ "/" ++ path) = parts front ++ parts path := by
  simp [parts, splitParts_append_slash]

/-- What stands before a path that is not absolute when it is joined to a directory: something
with the names of the directory, and a slash. -/
theorem exists_join_eq (hdir : dir ≠ "") (hpath : isAbsolute path = false) :
    ∃ front, join dir path = front ++ "/" ++ path ∧ parts front = parts dir := by
  have hne : dir.isEmpty = false := by simpa using hdir
  by_cases hlast : dir.toList.getLast? = some '/'
  · obtain ⟨front, hfront⟩ := List.getLast?_eq_some_iff.mp hlast
    have hsplit : dir = String.ofList front ++ "/" := by
      rw [← String.toList_inj, hfront]
      simp
    refine ⟨String.ofList front, ?_, ?_⟩
    · rw [join, if_neg (by simp [hpath]), if_neg (by simp [hdir]), if_pos hlast, ← hsplit]
    · have hparts := parts_append_slash (String.ofList front) ""
      rw [String.append_empty, ← hsplit] at hparts
      simpa [parts, splitParts] using hparts.symm
  · exact ⟨dir, by rw [join, if_neg (by simp [hpath]), if_neg (by simp [hdir]), if_neg hlast], rfl⟩

theorem parts_join (hdir : dir ≠ "") (hpath : isAbsolute path = false) :
    parts (join dir path) = parts dir ++ parts path := by
  obtain ⟨front, heq, hparts⟩ := exists_join_eq hdir hpath
  rw [heq, parts_append_slash, hparts]

theorem isAbsolute_join (hdir : dir ≠ "") (hpath : isAbsolute path = false) :
    isAbsolute (join dir path) = isAbsolute dir := by
  obtain ⟨c, rest, hlist⟩ : ∃ c rest, dir.toList = c :: rest :=
    List.exists_cons_of_ne_nil (by simpa using hdir)
  unfold join
  rw [if_neg (by simp [hpath]), if_neg (by simp [hdir])]
  split <;> simp [isAbsolute, hlist]

theorem join_ne_empty (hdir : dir ≠ "") (hpath : isAbsolute path = false) : join dir path ≠ "" := by
  obtain ⟨front, heq, -⟩ := exists_join_eq hdir hpath
  simp [heq]

/-- Whether a directory is asked for shows at the end of a path. -/
theorem asksForDirectory_join (hdir : dir ≠ "") (hne : path ≠ "")
    (hpath : isAbsolute path = false) :
    asksForDirectory (join dir path) = asksForDirectory path := by
  obtain ⟨front, heq, -⟩ := exists_join_eq hdir hpath
  have hlist : (join dir path).toList = front.toList ++ '/' :: path.toList := by
    simp [heq]
  obtain ⟨last, hlast⟩ : ∃ last, ((splitParts path.toList []).map String.ofList).getLast? =
      some last :=
    Option.isSome_iff_exists.mp (by simpa using splitParts_ne_nil path.toList [])
  have hsome : path.toList.head?.isSome = true := by
    simpa [List.isSome_head?] using hne
  unfold asksForDirectory
  rw [hlist, splitParts_append_slash, List.map_append, List.getLast?_append, hlast, hsome]
  simp

end Path

/-! ## Paths from another directory -/

namespace FileTree

variable {t inside : FileTree} {dir path : String}

theorem walk_append (t : FileTree) (here names rest : List String) :
    t.walk here (names ++ rest) = (t.walk here names).bind fun there => t.walk there rest := by
  induction names generalizing here with
  | nil => rfl
  | cons n names ih =>
      rw [List.cons_append, walk, walk]
      split
      · rfl
      · split <;> exact ih _
      · rfl

/-- Where names lead does not depend on the working directory. -/
theorem walk_from (t : FileTree) (directory here names : List String) :
    { t with workingDirectory := directory }.walk here names = t.walk here names := by
  induction names generalizing here with
  | nil => rfl
  | cons n names ih =>
      simp only [walk, ih]
      rfl

theorem follow_of_ne_empty (hne : path ≠ "") :
    t.follow path =
      t.walk (if Path.isAbsolute path then [] else t.workingDirectory) (Path.parts path) :=
  if_neg (by simpa using hne)

theorem follow_join (hdir : dir ≠ "") (hpath : Path.isAbsolute path = false) :
    t.follow (Path.join dir path) =
      (t.follow dir).bind fun there => t.walk there (Path.parts path) := by
  rw [follow_of_ne_empty (Path.join_ne_empty hdir hpath), follow_of_ne_empty hdir,
    Path.isAbsolute_join hdir hpath, Path.parts_join hdir hpath, walk_append]

theorem of_enter (h : t.enter dir = .ok inside) :
    ∃ there, t.follow dir = .ok there ∧ inside = { t with workingDirectory := there } := by
  unfold enter at h
  split at h
  · rename_i there _ hfollow
    exact ⟨there, hfollow, by cases h; rfl⟩
  · cases h
  · cases h

theorem ne_empty_of_enter (h : t.enter dir = .ok inside) : dir ≠ "" := by
  obtain ⟨there, hfollow, -⟩ := of_enter h
  rintro rfl
  cases hfollow

/-- A path leads from a directory that was entered to where it leads joined to that directory. -/
theorem follow_of_enter (h : t.enter dir = .ok inside) (hne : path ≠ "") :
    inside.follow path = t.follow (Path.join dir path) := by
  have hdir := ne_empty_of_enter h
  obtain ⟨there, hfollow, rfl⟩ := of_enter h
  cases hpath : Path.isAbsolute path with
  | true =>
      rw [Path.join_absolute hpath, follow_of_ne_empty hne, follow_of_ne_empty hne, hpath,
        walk_from]
      rfl
  | false =>
      rw [follow_join hdir hpath, hfollow, follow_of_ne_empty hne, hpath, walk_from]
      rfl

theorem find_of_enter (h : t.enter dir = .ok inside) (hne : path ≠ "") :
    inside.find path = t.find (Path.join dir path) := by
  have hdir := ne_empty_of_enter h
  have hasks : Path.asksForDirectory (Path.join dir path) = Path.asksForDirectory path := by
    cases hpath : Path.isAbsolute path with
    | true => rw [Path.join_absolute hpath]
    | false => exact Path.asksForDirectory_join hdir hne hpath
  rw [find, find, follow_of_enter h hne, hasks]
  obtain ⟨there, -, rfl⟩ := of_enter h
  rfl

/-- A directory that is entered from another one is the two joined. -/
theorem enter_of_enter (h : t.enter dir = .ok inside) (hne : path ≠ "") :
    inside.enter path = t.enter (Path.join dir path) := by
  rw [enter, enter, find_of_enter h hne, follow_of_enter h hne]
  obtain ⟨there, -, rfl⟩ := of_enter h
  rfl

end FileTree

/-! ## The file that is asked for -/

namespace ProcessSpec

variable {p : ProcessSpec} {c : String}

theorem ne_empty_of_isPath {program : String} (h : isPath program = true) : program ≠ "" := by
  rintro rfl
  revert h
  decide

/-- The path from the launcher's directory to the file. -/
theorem executable?_of_isPath (find? : String → Option String) (base : String)
    (hdir : p.directory = some c) (hpath : isPath p.program = true) :
    executable? find? base p = some (Path.join (Path.join base c) (Path.join c p.program)) := by
  simp [executable?, locate?, hpath, hdir]

end ProcessSpec

namespace Machine

variable {m : Machine} {p : ProcessSpec} {inside : FileTree} {path : String}

/-- What comes of asking for a file from the machine's directory: a program can be started. -/
def ask (m : Machine) (file : String) : Except StartFault Unit :=
  match m.files.find file with
  | .error fault => .error (.refused fault)
  | .ok (.program _) => .ok ()
  | .ok _ => .error (.refused .permissionDenied)

/-- A process is started if the path of its program leads to one from the directory it enters. -/
theorem start_eq_ask (isGone : ProcessId → Bool) (id : ProcessId)
    (hlocate : ProcessSpec.locate? m.which p.program p.directory = some path)
    (hspoken : isUnspeakable p path = false) (hinside : m.filesOf p = .ok inside) :
    (m.host isGone).start id p = ({ m with files := inside }.ask path).map fun _ => pidOf id := by
  simp only [host, prepare, hlocate, hspoken, hinside, ask]
  cases inside.find path with
  | error fault => rfl
  | ok node => cases node <;> rfl

/-- **The file that is asked for.** A process that runs in a directory of its own, and whose program
is given as a path, asks for one file, and starts if this is a program. The file is the program
itself where its path is absolute; the program in the directory to run in where that one is
absolute. Where neither is, the names of the directory stand twice on the way from the launcher's
directory; the file is the program in the directory to run in all the same if entering this one
leads back to where the launcher is. -/
theorem start_asks_for (m : Machine) (p : ProcessSpec) (base c : String)
    (hbase : m.files.enter base = .ok m.files) (hdir : p.directory = some c) (hc : c ≠ "")
    (hpath : ProcessSpec.isPath p.program = true) :
    ∃ file, ProcessSpec.executable? m.which base p = some file ∧
      (∀ isGone id inside, isUnspeakable p (Path.join c p.program) = false →
        m.filesOf p = .ok inside →
        (m.host isGone).start id p = (m.ask file).map fun _ => pidOf id) ∧
      (Path.isAbsolute p.program = true → file = p.program) ∧
      (Path.isAbsolute p.program = false → Path.isAbsolute c = true →
        file = Path.join c p.program) ∧
      (Path.isAbsolute p.program = false → Path.isAbsolute c = false →
        Path.isAbsolute file = Path.isAbsolute base ∧
        Path.parts file =
          Path.parts base ++ Path.parts c ++ Path.parts c ++ Path.parts p.program) ∧
      (m.filesOf p = .ok m.files →
        m.ask file = m.ask (Path.join (Path.join base c) p.program)) := by
  have hprogram := ProcessSpec.ne_empty_of_isPath hpath
  have hlocate : ProcessSpec.locate? m.which p.program p.directory =
      some (Path.join c p.program) := by
    simp [ProcessSpec.locate?, hpath, hdir]
  have hjoined : Path.join c p.program ≠ "" := by
    cases hrel : Path.isAbsolute p.program with
    | true => rwa [Path.join_absolute hrel]
    | false => exact Path.join_ne_empty hc hrel
  -- the launcher's directory, entered first, changes nothing
  have hentered : m.filesOf p = m.files.enter (Path.join base c) := by
    rw [← FileTree.enter_of_enter hbase hc]
    simp [filesOf, hdir]
  have hfind (inside : FileTree) (hinside : m.filesOf p = .ok inside) (path : String)
      (hne : path ≠ "") : inside.find path = m.files.find (Path.join (Path.join base c) path) :=
    FileTree.find_of_enter (hentered.symm.trans hinside) hne
  refine ⟨_, ProcessSpec.executable?_of_isPath m.which base hdir hpath, ?started, ?program,
    ?directory, ?neither, ?back⟩
  case started =>
    intro isGone id inside hspoken hinside
    rw [start_eq_ask isGone id hlocate hspoken hinside, ask, ask, hfind inside hinside _ hjoined]
  case program =>
    intro habs
    rw [Path.join_absolute habs, Path.join_absolute habs]
  case directory =>
    intro hrel habs
    have hfile : Path.isAbsolute (Path.join c p.program) = true := by
      rw [Path.isAbsolute_join hc hrel, habs]
    rw [Path.join_absolute hfile]
  case neither =>
    intro hrel hcrel
    have hbase' := FileTree.ne_empty_of_enter hbase
    have hfile : Path.isAbsolute (Path.join c p.program) = false := by
      rw [Path.isAbsolute_join hc hrel, hcrel]
    have hjoined' := Path.join_ne_empty hbase' hcrel
    refine ⟨by rw [Path.isAbsolute_join hjoined' hfile, Path.isAbsolute_join hbase' hcrel], ?_⟩
    rw [Path.parts_join hjoined' hfile, Path.parts_join hbase' hcrel, Path.parts_join hc hrel,
      ← List.append_assoc]
  case back =>
    intro hinside
    have hsame : m.files.enter c = .ok m.files := by
      rwa [filesOf, hdir] at hinside
    rw [ask, ask, ← hfind m.files hinside _ hjoined, ← hfind m.files hinside _ hprogram,
      ← FileTree.find_of_enter hsame hprogram]

/-- A machine with one program, and a directory in the working directory. -/
def workshop : Machine where
  environment := .empty
  files :=
    { nodes := (((Table.empty.insert "/bin" .directory).insert "/bin/true" (.program "true")).insert
        "/work" .directory).insert "/work/sub" .directory
      workingDirectory := ["work"] }

/-- A process with a program that is reached from two directories below the root. -/
def reaching (directory : String) : ProcessSpec :=
  { name := "tool", program := "../../bin/true", arguments := [], directory := some directory }

/-- From an absolute directory the program is reached, and started. -/
theorem start_reaching :
    workshop.files.enter "/work" = .ok workshop.files ∧
    ProcessSpec.isPath (reaching "/work/sub").program = true ∧
    ProcessSpec.executable? workshop.which "/work" (reaching "/work/sub") =
      some "/work/sub/../../bin/true" ∧
    (workshop.host fun _ => false).start ⟨1⟩ (reaching "/work/sub") = .ok 1001 := by
  have hbase : workshop.files.enter "/work" = .ok workshop.files := rfl
  have hpath : ProcessSpec.isPath (reaching "/work/sub").program = true := by decide
  obtain ⟨file, hfile, hstart, -, hjoined, -⟩ := start_asks_for workshop (reaching "/work/sub")
    "/work" "/work/sub" hbase rfl (by decide) hpath
  have hreached : file = "/work/sub/../../bin/true" := hjoined (by decide) (by decide)
  subst hreached
  exact ⟨hbase, hpath, hfile, hstart _ ⟨1⟩ _ (by decide) rfl⟩

/-- Not every program is started from the directory to run in: from this one, which is not absolute,
the same program is asked for one directory further down. -/
theorem not_every_program_from_directory : ¬ ∀ (m : Machine) (p : ProcessSpec) (base c : String),
    m.files.enter base = .ok m.files → p.directory = some c → c ≠ "" →
    ProcessSpec.isPath p.program = true → ∀ isGone id inside,
    isUnspeakable p (Path.join c p.program) = false → m.filesOf p = .ok inside →
    (m.host isGone).start id p =
      (m.ask (Path.join (Path.join base c) p.program)).map fun _ => pidOf id := by
  intro h
  have hbad := h workshop (reaching "sub") "/work" "sub" rfl rfl (by decide) (by decide)
    (fun _ => false) ⟨1⟩ _ (by decide) rfl
  have hstart : (workshop.host fun _ => false).start ⟨1⟩ (reaching "sub") =
      .error (.refused .notFound) := rfl
  have hask : workshop.ask (Path.join (Path.join "/work" "sub") (reaching "sub").program) =
      .ok () := rfl
  rw [hstart, hask] at hbad
  cases hbad

end Machine

end Conductor
