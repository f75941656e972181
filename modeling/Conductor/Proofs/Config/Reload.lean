import Conductor.Config.Store
import Conductor.Proofs.Config.Settings
import Conductor.Proofs.Document.Writer
import Conductor.Proofs.Machine.Replacement

/-!
# Configurations that are loaded

A configuration that was saved is loaded again, whatever was in its place (`load_of_save`). A
document that somebody else wrote is loaded as the configuration that has exactly the settings it
gives, in any order and with anything else between them: whatever its form, if the library finds
a mapping in it (`loadFrom_of_entries`), and as a page with remarks and blank lines
(`loadFrom_of_page`). This is so with every library that keeps what is promised
(`DocumentLibrary.Lawful`).
-/

namespace Conductor.Config

open Document (IsPage Passage PageLine fieldsOf)

variable {lib : DocumentLibrary} {spelling : lib.Spelling} {files files' : FileTree}
  {path root text : String} {given : List Setting}

/-! ## What is saved -/

/-- Names of alternatives and of keys need no quotes. -/
theorem Setting.isSimple_scalar (s : Setting) : s.scalar.isSimple = true := by
  cases s with
  | graceSeconds x => rfl
  | failurePolicy p => cases p <;> decide
  | writePolicy p => cases p <;> decide
  | allowRedeclare b => rfl
  | handleSignals b => rfl
  | defaultOutput m => cases m <;> decide

theorem Key.isName_name (k : Key) : Document.isName k.name = true := by
  cases k <;> decide

/-- A setting is found in its text. -/
theorem Setting.givenBy_print (laws : lib.Lawful spelling) {s : Setting}
    (hnumber : s ≠ .graceSeconds .nan) :
    s.GivenBy lib (spelling.value s.scalar) := by
  have hsimple := s.isSimple_scalar
  cases s with
  | graceSeconds x => exact laws.number?_print x fun hx => hnumber (hx ▸ rfl)
  | failurePolicy p => exact laws.word?_print _ hsimple
  | writePolicy p => exact laws.word?_print _ hsimple
  | allowRedeclare b => exact laws.truth?_print b
  | handleSignals b => exact laws.truth?_print b
  | defaultOutput m => exact laws.word?_print _ hsimple

/-- A record that was written is read as its fields. -/
theorem entries?_of_write_record (laws : lib.Lawful spelling) {c : Config}
    (hwrite : lib.write c.record = some text) :
    lib.entries? text = some (spelling.fields c.record) := by
  have hnames : (c.record.map Prod.fst).Nodup := show fieldNames.Nodup by decide
  refine laws.entries?_write _ _ ?_ hnames hwrite
  intro f hf
  rw [record_eq] at hf
  obtain ⟨k, -, rfl⟩ := List.mem_map.mp hf
  exact ⟨k.isName_name, (c.setting k).isSimple_scalar⟩

/-- The fields of a configuration give all of its settings. -/
theorem gives_record (laws : lib.Lawful spelling) {c : Config} (hgrace : c.graceSeconds ≠ .nan) :
    Gives lib (spelling.fields c.record) (Key.all.map c.setting) := by
  rw [record_eq]
  induction Key.all with
  | nil => exact .nil
  | cons k ks ih =>
      have hnumber : c.setting k ≠ .graceSeconds .nan := by
        cases k <;> simp [setting, hgrace]
      have hgiven := Gives.known (Setting.givenBy_print laws hnumber) ih
      rwa [key_setting] at hgiven

/-- Saving writes the record and puts its document in place. -/
theorem save_eq_ok_iff {c : Config} :
    lib.save files root c = .ok files' ↔ ∃ text, lib.write c.record = some text ∧
      files.replaceFile (pathIn root) (Text.encode text) = .ok files' := by
  unfold DocumentLibrary.save
  cases lib.write c.record with
  | none => simp
  | some text =>
      cases hput : files.replaceFile (pathIn root) (Text.encode text) with
      | error fault => simp [hput, Except.mapError]
      | ok t => simp [hput, Except.mapError]

/-! ## What is loaded -/

/-- **A mapping is loaded as what it gives**, in whatever form it is written. -/
theorem loadFrom_of_entries {entries : List (String × lib.Node)}
    (htext : files.readText path = .ok text) (hentries : lib.entries? text = some entries)
    (hgives : Gives lib entries given) (hkeys : (given.map Setting.key).Nodup) :
    ∃ c, lib.loadFrom files path = .ok c ∧ c.HasExactly given := by
  obtain ⟨c, hc, hexactly⟩ := configOf?_of_gives hgives hkeys
  refine ⟨c, ?_, hexactly⟩
  have hconfig : lib.config? text = some c := by
    rw [DocumentLibrary.config?, hentries, Option.bind_some, hc]
  rw [DocumentLibrary.loadFrom, htext]
  simp only [hconfig]

/-- **A page is loaded as what it gives.** -/
theorem loadFrom_of_page (laws : lib.Lawful spelling) {ls : List PageLine}
    (htext : files.readText path = .ok (Document.page ls)) (hsimple : ∀ l ∈ ls, l.isSimple = true)
    (hgives : Gives lib (spelling.entries ls) given) (hkeys : (given.map Setting.key).Nodup) :
    ∃ c, lib.loadFrom files path = .ok c ∧ c.HasExactly given :=
  loadFrom_of_entries htext (laws.entries?_page ls hsimple) hgives hkeys

/-- **A saved configuration is loaded again.** -/
theorem load_of_save (laws : lib.Lawful spelling) {c : Config} (hgrace : c.graceSeconds ≠ .nan)
    (h : lib.save files root c = .ok files') : lib.load files' root = .ok c := by
  obtain ⟨text, hwrite, hput⟩ := save_eq_ok_iff.mp h
  have hkeys : ((Key.all.map c.setting).map Setting.key).Nodup := by
    simpa [Function.comp_def] using Key.nodup_all
  obtain ⟨d, hd, hexactly⟩ := loadFrom_of_entries (FileTree.readText_of_replaceFile hput)
    (entries?_of_write_record laws hwrite) (gives_record laws hgrace) hkeys
  obtain rfl := hexactly.eq c.hasExactly_settings
  rw [DocumentLibrary.load, if_pos (FileTree.has_of_replaceFile hput), hd]

/-- **Saved settings are loaded, and so are settings written by hand.** With a library that keeps
what is promised, what is saved is loaded from the same project as the same data, whatever was in
its place. A document that gives any of the keys once each is loaded as the configuration with
exactly these settings: a mapping of any form, and a page with remarks and blank lines. -/
theorem settings_reload (lib : DocumentLibrary) (spelling : lib.Spelling)
    (laws : lib.Lawful spelling) :
    (∀ (files files' : FileTree) (root : String) (c : Config), c.graceSeconds ≠ .nan →
      lib.save files root c = .ok files' → lib.load files' root = .ok c) ∧
    (∀ (files : FileTree) (path text : String) (entries : List (String × lib.Node))
      (given : List Setting), files.readText path = .ok text → lib.entries? text = some entries →
      Gives lib entries given → (given.map Setting.key).Nodup →
      ∃ c, lib.loadFrom files path = .ok c ∧ c.HasExactly given) ∧
    (∀ (files : FileTree) (path : String) (ls : List PageLine) (given : List Setting),
      files.readText path = .ok (Document.page ls) → (∀ l ∈ ls, l.isSimple = true) →
      Gives lib (spelling.entries ls) given → (given.map Setting.key).Nodup →
      ∃ c, lib.loadFrom files path = .ok c ∧ c.HasExactly given) := by
  refine ⟨?saved, ?mapping, ?page⟩
  case saved =>
    intro files files' root c hgrace hsave
    exact load_of_save laws hgrace hsave
  case mapping =>
    intro files path text entries given htext hentries hgives hkeys
    exact loadFrom_of_entries htext hentries hgives hkeys
  case page =>
    intro files path ls given htext hsimple hgives hkeys
    exact loadFrom_of_page laws htext hsimple hgives hkeys

/-! ## A project -/

/-- A page as it is written in a hurry. -/
def hurriedLines : List PageLine :=
  [.remark 0 " in a hurry", .entry "grace_period_secs" "0.0", .blank 0, .entry "team" "red",
    .remark 2 " for now", .entry "failure_policy" "fail_fast"]

/-- A document with a list of its own and a remark behind a value. -/
def handwritten : String :=
  "# in a hurry\ngrace_period_secs: 0.0 # at once\n\nteam:\n- red\n  # not today\n- blue\n" ++
    "failure_policy: fail_fast\n"

/-- A project whose configuration file says what no configuration can say, with two documents
beside it. -/
def projectWith (page document : String) : FileTree :=
  { nodes := ((((Table.empty.insert "/work" .directory).insert "/work/.launchpad" .directory).insert
      "/work/.launchpad/config.yaml" (.file (Text.encode "failure_policy: sometimes\n"))).insert
      "/work/page.yaml" (.file (Text.encode page))).insert
      "/work/document.yaml" (.file (Text.encode document))
    workingDirectory := ["work"] }

theorem readText_page (page document : String) :
    (projectWith page document).readText "/work/page.yaml" = .ok page :=
  FileTree.readText_of_find rfl

theorem readText_document (page document : String) :
    (projectWith page document).readText "/work/document.yaml" = .ok document :=
  FileTree.readText_of_find rfl

theorem exists_replaceFile (page document : String) (content : List UInt8) :
    ∃ t, (projectWith page document).replaceFile (pathIn "/work") content = .ok t :=
  ⟨_, rfl⟩

/-- What the page and the document say. -/
def hurried : Config :=
  { standard with graceSeconds := .zero false, failurePolicy := .failFast }

theorem hasExactly_hurried :
    hurried.HasExactly [.graceSeconds (.zero false), .failurePolicy .failFast] where
  given := by simp [Setting.key, setting, hurried]
  absent := by rintro ⟨⟩ <;> simp [Setting.key, setting, hurried]

/-- Whatever stands under the name that is no key. -/
theorem gives_hurried (team : DocumentValue) :
    Gives Document.library [("grace_period_secs", .plain "0.0"), ("team", team),
      ("failure_policy", .plain "fail_fast")]
      [.graceSeconds (.zero false), .failurePolicy .failFast] := by
  have hgrace : (Setting.graceSeconds (.zero false)).GivenBy Document.library (.plain "0.0") := by
    show Document.numberOf? "0.0" = some (.zero false)
    decide
  have hfailure : (Setting.failurePolicy .failFast).GivenBy Document.library
      (.plain "fail_fast") := rfl
  exact .known hgrace (.unknown (by decide) team (.known hfailure .nil))

/-- The passages of the document. -/
def passages : List Passage :=
  [.filler "# in a hurry".toList,
    .entry "grace_period_secs".toList " 0.0 # at once".toList [],
    .filler [],
    .entry "team".toList [] ["- red".toList, "  # not today".toList, "- blue".toList],
    .entry "failure_policy".toList " fail_fast".toList [],
    .filler []]

theorem isPage_handwritten : IsPage handwritten 0 passages where
  allowed := by decide +kernel
  lines := by decide +kernel
  fits := by
    have hempty : Document.SaysNothing [] := ⟨0, [], rfl, rfl⟩
    have hremark : Document.SaysNothing "# in a hurry".toList :=
      ⟨0, "# in a hurry".toList, rfl, rfl⟩
    have hinner : Document.SaysNothing "  # not today".toList :=
      ⟨2, "# not today".toList, rfl, rfl⟩
    have hitem (r : List Char) (hr : Document.startsBlank r = true) :
        Document.Belongs 0 ('-' :: r) := .item hr
    have hteam : ∀ line ∈ ["- red".toList, "  # not today".toList, "- blue".toList],
        Document.Belongs 0 line := by
      simp only [List.forall_mem_cons]
      exact ⟨hitem _ rfl, .nothing hinner, hitem _ rfl, by simp⟩
    simp only [passages, List.forall_mem_cons]
    refine ⟨.filler hremark, ?_, .filler hempty, ?_, ?_, .filler hempty, by simp⟩
    · exact .entry (by decide) rfl (fun _ => Document.not_isMark (by decide)) (by simp) rfl
    · exact .entry (by decide) rfl (fun _ => Document.not_isMark (by decide)) hteam rfl
    · exact .entry (by decide) rfl (fun _ => Document.not_isMark (by decide)) (by simp) rfl

theorem fieldsOf_passages :
    fieldsOf passages = [("grace_period_secs", .plain "0.0"), ("team", .spread),
      ("failure_policy", .plain "fail_fast")] := by
  have hgrace : Passage.field? (.entry "grace_period_secs".toList " 0.0 # at once".toList []) =
      some ("grace_period_secs", .plain "0.0") := rfl
  have hteam : Passage.field? (.entry "team".toList []
      ["- red".toList, "  # not today".toList, "- blue".toList]) = some ("team", .spread) := rfl
  have hfailure : Passage.field? (.entry "failure_policy".toList " fail_fast".toList []) =
      some ("failure_policy", .plain "fail_fast") := rfl
  have hfiller (line : List Char) : Passage.field? (.filler line) = none := rfl
  simp only [fieldsOf, passages, List.filterMap_cons, List.filterMap_nil, hgrace, hteam, hfailure,
    hfiller]

theorem entries?_handwritten : Document.library.entries? handwritten =
    some [("grace_period_secs", .plain "0.0"), ("team", .spread),
      ("failure_policy", .plain "fail_fast")] :=
  isPage_handwritten.entries?_eq.trans (congrArg some fieldsOf_passages)

/-- A configuration is saved over the broken one and loaded again, and what stands beside it is
loaded. -/
theorem project_reloads :
    (∃ files', Document.library.save (projectWith (Document.page hurriedLines) handwritten) "/work"
        hurried = .ok files' ∧ Document.library.load files' "/work" = .ok hurried) ∧
    Document.library.loadFrom (projectWith (Document.page hurriedLines) handwritten)
      "/work/document.yaml" = .ok hurried ∧
    Document.library.loadFrom (projectWith (Document.page hurriedLines) handwritten)
      "/work/page.yaml" = .ok hurried := by
  obtain ⟨hsaved, hmapping, hpage⟩ :=
    settings_reload Document.library Document.spelling Document.lawful_library
  refine ⟨?_, ?_, ?_⟩
  · obtain ⟨files', hput⟩ := exists_replaceFile (Document.page hurriedLines) handwritten
      (Text.encode (Document.write hurried.record))
    have hsave : Document.library.save (projectWith (Document.page hurriedLines) handwritten)
        "/work" hurried = .ok files' := save_eq_ok_iff.mpr ⟨_, rfl, hput⟩
    exact ⟨files', hsave, hsaved _ _ _ _ (by decide) hsave⟩
  · obtain ⟨c, hc, hexactly⟩ := hmapping _ _ _ _ _ (readText_document _ handwritten)
      entries?_handwritten (gives_hurried _) (by decide)
    rw [hc, hexactly.eq hasExactly_hurried]
  · obtain ⟨c, hc, hexactly⟩ := hpage _ _ _ _ (readText_page (Document.page hurriedLines) _)
      (by decide) (gives_hurried (.plain "red")) (by decide)
    rw [hc, hexactly.eq hasExactly_hurried]

end Conductor.Config
