import Conductor.Machine.FileTree

/-!
# Files that are put in place

A file that could be put in place stands there afterwards, whatever stood there before, and holds
what was written (`readText_of_replaceFile`). The way to it is not changed by what is put at its
end: names are only followed through directories, and the end was none.
-/

namespace Conductor

/-! ## Texts as bytes -/

namespace Text

theorem toList_loop (bs : ByteArray) (i : Nat) (r : List UInt8) :
    ByteArray.toList.loop bs i r = r.reverse ++ bs.data.toList.drop i := by
  fun_induction ByteArray.toList.loop bs i r with
  | case1 i r hi ih =>
      have hi' : i < bs.data.toList.length := hi
      have hget : bs.get! i = bs.data.toList[i] := by
        show bs.data[i]! = _
        rw [getElem!_pos bs.data i hi, Array.getElem_toList]
      rw [ih, List.reverse_cons, List.append_assoc, List.singleton_append, hget,
        ← List.drop_eq_getElem_cons hi']
  | case2 i r hi =>
      have hi' : bs.data.toList.length ≤ i := Nat.le_of_not_lt hi
      rw [List.drop_eq_nil_of_le hi', List.append_nil]

/-- The bytes of a text spell it. -/
@[simp] theorem decode?_encode (s : String) : decode? (encode s) = some s := by
  have hbytes : (⟨(encode s).toArray⟩ : ByteArray) = s.toByteArray := by
    show (⟨(ByteArray.toList.loop s.toByteArray 0 []).toArray⟩ : ByteArray) = _
    rw [toList_loop]
    simp
  rw [decode?, hbytes, String.fromUTF8?, dif_pos s.isValidUTF8]
  rfl

end Text

namespace FileTree

variable {t t' : FileTree} {names here rest : List String} {node : FileNode}

/-- The tree with something put under a path in plain form. -/
def put (t : FileTree) (names : List String) (node : FileNode) : FileTree :=
  { t with nodes := t.nodes.insert (pathOf names) node }

theorem node?_put (hne : names ≠ []) : (t.put names node).node? names = some node := by
  simp [put, node?, hne]

/-- What is not put in the place of a directory leaves the directories alone. -/
theorem node?_put_of_directory (hnames : t.node? names ≠ some .directory)
    (hhere : t.node? here = some .directory) : (t.put names node).node? here = some .directory := by
  unfold node? at *
  by_cases hempty : here.isEmpty = true
  · rw [if_pos hempty]
  · rw [if_neg hempty] at hhere ⊢
    have hne : pathOf here ≠ pathOf names := by
      intro heq
      split at hnames
      · exact hnames rfl
      · exact hnames (heq ▸ hhere)
    rw [put, Table.get?_insert, if_neg hne, hhere]

/-- The way that names lead is not changed. -/
theorem walk_put (hnames : t.node? names ≠ some .directory) {there : List String}
    (h : t.walk here rest = .ok there) : (t.put names node).walk here rest = .ok there := by
  induction rest generalizing here with
  | nil => exact h
  | cons n rest ih =>
      rw [walk] at h ⊢
      cases hhere : t.node? here with
      | none => simp [hhere] at h
      | some found =>
          cases found with
          | directory =>
              rw [node?_put_of_directory hnames hhere]
              simp only [hhere] at h
              dsimp only
              split at h
              · rename_i hup
                rw [if_pos hup]
                exact ih h
              · rename_i hup
                rw [if_neg hup]
                exact ih h
          | file content => simp [hhere] at h
          | program name => simp [hhere] at h

theorem follow_put (hnames : t.node? names ≠ some .directory) {path : String}
    {there : List String} (h : t.follow path = .ok there) :
    (t.put names node).follow path = .ok there := by
  unfold follow at h ⊢
  split at h
  · cases h
  · rename_i hne
    rw [if_neg hne]
    exact walk_put hnames h

/-- What it takes to put a file in place: the directories above it can be made, its path leads
somewhere and asks for no directory, and there is none. -/
theorem replaceFile_cases {path : String} {content : List UInt8}
    (h : t.replaceFile path content = .ok t') :
    ∃ (made : FileTree) (names : List String), made.follow path = .ok names ∧
      Path.asksForDirectory path = false ∧ made.node? names ≠ some .directory ∧
      t' = made.put names (.file content) := by
  unfold replaceFile at h
  cases hparent : parent? path with
  | none =>
      rw [hparent] at h
      cases h
  | some dir =>
      rw [hparent] at h
      cases hmade : t.makeDirectories dir with
      | error fault => simp [bind, Except.bind, pure, Except.pure, hmade] at h
      | ok made =>
          cases hnames : made.follow path with
          | error fault => simp [bind, Except.bind, pure, Except.pure, hmade, hnames] at h
          | ok names =>
              simp only [bind, Except.bind, pure, Except.pure, hmade, hnames] at h
              split at h
              · cases h
              · rename_i hplain
                split at h
                · cases h
                · rename_i hnode
                  cases h
                  exact ⟨made, names, hnames, Bool.eq_false_iff.mpr hplain, hnode, rfl⟩

/-- **A file that was put in place is there.** -/
theorem find_of_replaceFile {path : String} {content : List UInt8}
    (h : t.replaceFile path content = .ok t') : t'.find path = .ok (.file content) := by
  obtain ⟨made, names, hfollow, hplain, hnames, rfl⟩ := replaceFile_cases h
  have hne : names ≠ [] := by
    rintro rfl
    exact hnames rfl
  rw [find, follow_put hnames hfollow]
  simp [node?_put hne, hplain]

theorem has_of_replaceFile {path : String} {content : List UInt8}
    (h : t.replaceFile path content = .ok t') : t'.has path = true := by
  rw [has, find_of_replaceFile h]

/-- A file that holds a text is read as the text. -/
theorem readText_of_find {path text : String} (h : t.find path = .ok (.file (Text.encode text))) :
    t.readText path = .ok text := by
  rw [readText, readBytes, h]
  simp

theorem readText_of_replaceFile {path text : String}
    (h : t.replaceFile path (Text.encode text) = .ok t') : t'.readText path = .ok text :=
  readText_of_find (find_of_replaceFile h)

end FileTree

end Conductor
