import Mathlib.Algebra.Ring.Nat
import Mathlib.Data.List.TakeWhile
import Mathlib.Data.String.Basic
import Conductor.Text.Columns

/-!
# Where the columns of a table stand

A table is a line of headers, a line of dashes and a line for each row (`LaidOut`): below every
header there is one run of dashes, and every cell begins where the run of its column begins. A
column is as wide as its longest text takes bytes. Measured in characters the same holds exactly of
the tables in which no text takes more bytes than the longest text of its column has characters.
-/

namespace Conductor.Text

/-! ## What is joined -/

/-- A piece of a joined text stands behind the pieces before it, each with a separator, and the
separator stands on both sides of it where there are further pieces. -/
theorem exists_joinWith_eq (sep : String) {pieces : List String} {i : Nat} {piece : String}
    (h : pieces[i]? = some piece) :
    ∃ before after, (joinWith sep pieces).toList = before ++ piece.toList ++ after ∧
      before.length = ((pieces.take i).map String.length).sum + sep.length * i ∧
      (before = [] ∨ ∃ b, before = b ++ sep.toList) ∧
      (after = [] ∨ ∃ a, after = sep.toList ++ a) := by
  induction pieces generalizing i with
  | nil => simp at h
  | cons p r ih =>
      cases i with
      | zero =>
          obtain rfl : p = piece := by simpa using h
          cases r with
          | nil => exact ⟨[], [], by simp [joinWith], by simp, .inl rfl, .inl rfl⟩
          | cons q r =>
              exact ⟨[], sep.toList ++ (joinWith sep (q :: r)).toList, by simp [joinWith], by simp,
                .inl rfl, .inr ⟨_, rfl⟩⟩
      | succ i =>
          rw [List.getElem?_cons_succ] at h
          obtain ⟨before, after, htext, hlength, hbefore, hafter⟩ := ih h
          have hjoin : joinWith sep (p :: r) = p ++ sep ++ joinWith sep r := by
            cases r with
            | nil => simp at h
            | cons q r => rfl
          refine ⟨p.toList ++ sep.toList ++ before, after, ?_, ?_, ?_, hafter⟩
          · simp [hjoin, htext]
          · simp only [List.length_append, String.length_toList, hlength, List.take_succ_cons,
              List.map_cons, List.sum_cons, Nat.mul_succ]
            omega
          · obtain rfl | ⟨b, rfl⟩ := hbefore
            · exact .inr ⟨p.toList, by simp⟩
            · exact .inr ⟨p.toList ++ sep.toList ++ b, by simp⟩

theorem mem_joinWith {sep : String} {pieces : List String} {c : Char}
    (h : c ∈ (joinWith sep pieces).toList) : c ∈ sep.toList ∨ ∃ p ∈ pieces, c ∈ p.toList := by
  induction pieces with
  | nil => simp [joinWith] at h
  | cons p r ih =>
      cases r with
      | nil => exact .inr ⟨p, by simp, by simpa [joinWith] using h⟩
      | cons q r =>
          simp only [joinWith, String.toList_append, List.mem_append] at h
          rcases h with (h | h) | h
          · exact .inr ⟨p, by simp, h⟩
          · exact .inl h
          · rcases ih h with h | ⟨s, hs, hc⟩
            · exact .inl h
            · exact .inr ⟨s, List.mem_cons_of_mem _ hs, hc⟩

/-! ## Lines -/

theorem splitOnChar_of_not_mem {d : Char} {cs : List Char} (h : d ∉ cs) :
    splitOnChar d cs = [cs] := by
  induction cs with
  | nil => rfl
  | cons c r ih =>
      obtain ⟨hne, hr⟩ := not_or.mp (mt List.mem_cons.mpr h)
      rw [splitOnChar, if_neg (Ne.symm hne), ih hr]

theorem splitOnChar_append {d : Char} {cs : List Char} (h : d ∉ cs) (rest : List Char) :
    splitOnChar d (cs ++ d :: rest) = cs :: splitOnChar d rest := by
  induction cs with
  | nil => simp [splitOnChar]
  | cons c r ih =>
      obtain ⟨hne, hr⟩ := not_or.mp (mt List.mem_cons.mpr h)
      rw [List.cons_append, splitOnChar, if_neg (Ne.symm hne), ih hr]

/-- Lines that are joined are found again. -/
theorem splitOnChar_joinWith {lines : List String} (hne : lines ≠ [])
    (h : ∀ l ∈ lines, '\n' ∉ l.toList) :
    splitOnChar '\n' (joinWith "\n" lines).toList = lines.map String.toList := by
  induction lines with
  | nil => exact absurd rfl hne
  | cons l r ih =>
      have hl : '\n' ∉ l.toList := h l (by simp)
      cases r with
      | nil => exact splitOnChar_of_not_mem hl
      | cons m r =>
          have hrest := ih (List.cons_ne_nil _ _) fun k hk => h k (List.mem_cons_of_mem _ hk)
          have htext : (joinWith "\n" (l :: m :: r)).toList =
              l.toList ++ '\n' :: (joinWith "\n" (m :: r)).toList := by
            simp [joinWith]
          rw [htext, splitOnChar_append hl, hrest]
          rfl

/-- What trimming takes away are blanks. -/
theorem exists_dropRight_append (cs : List Char) :
    ∃ blanks, (∀ c ∈ blanks, isBlank c = true) ∧ dropRight cs ++ blanks = cs := by
  refine ⟨(cs.reverse.takeWhile isBlank).reverse, ?_, ?_⟩
  · intro c hc
    exact List.mem_takeWhile_imp (List.mem_reverse.mp hc)
  · rw [dropRight, ← List.reverse_append, List.takeWhile_append_dropWhile, List.reverse_reverse]

/-! ## How a table is laid out -/

/-- The texts of a column: its header and the cells of the rows that reach it. -/
def columnTexts (headers : List String) (rows : List (List String)) (i : Nat) : List String :=
  headers[i]?.toList ++ rows.filterMap (·[i]?)

/-- The longest text, as long as it is measured. -/
def longest (measure : String → Nat) (texts : List String) : Nat :=
  (texts.map measure).foldr max 0

/-- The widths of columns that are as wide as their longest text. -/
def widthsBy (measure : String → Nat) (headers : List String) (rows : List (List String)) :
    List Nat :=
  (List.range headers.length).map fun i => longest measure (columnTexts headers rows i)

/-- Where a column begins: behind the columns before it, with two blanks for each. -/
def columnStart (widths : List Nat) (i : Nat) : Nat :=
  (widths.take i).sum + 2 * i

/-- From the given place on the line holds this character so many times, and not once more on
either side. -/
def IsRun (c : Char) (line : List Char) (start length : Nat) : Prop :=
  ∃ before after, line = before ++ List.replicate length c ++ after ∧ before.length = start ∧
    c ∉ before.getLast? ∧ c ∉ after.head?

/-- The whole text stands at the given place of the line; blanks at the end of the line may have
been left out. -/
def StandsAt (text : String) (line : List Char) (start : Nat) : Prop :=
  ∃ blanks, (∀ c ∈ blanks, isBlank c = true) ∧ text.toList <+: (line ++ blanks).drop start

/-- The table is a line of headers, a line with a run of dashes for each column, and a line for each
row, with columns of these widths: every run is as long as its column is wide, and every text of a
column begins where the column does. -/
def LaidOut (widths : List Nat) (headers : List String) (rows : List (List String)) : Prop :=
  ∃ head rule body, splitOnChar '\n' (columns headers rows).toList = head :: rule :: body ∧
    body.length = rows.length ∧
    ∀ i < headers.length, ∃ width ∈ widths[i]?,
      IsRun '-' rule (columnStart widths i) width ∧
      ∀ (k : Nat) (line : List Char) (cells : List String), (head :: body)[k]? = some line →
        (headers :: rows)[k]? = some cells →
          ∀ text ∈ cells[i]?, StandsAt text line (columnStart widths i)

/-! ## The widths -/

theorem le_longest {measure : String → Nat} {texts : List String} {s : String} (h : s ∈ texts) :
    measure s ≤ longest measure texts := by
  induction texts with
  | nil => cases h
  | cons t r ih =>
      rw [longest, List.map_cons, List.foldr_cons]
      rcases List.mem_cons.mp h with rfl | h
      · exact Nat.le_max_left _ _
      · exact Nat.le_trans (ih h) (Nat.le_max_right _ _)

theorem longest_le {measure : String → Nat} {texts : List String} {n : Nat}
    (h : ∀ s ∈ texts, measure s ≤ n) : longest measure texts ≤ n := by
  induction texts with
  | nil => exact Nat.zero_le n
  | cons t r ih =>
      rw [longest, List.map_cons, List.foldr_cons]
      exact Nat.max_le.mpr ⟨h t (by simp), ih fun s hs => h s (List.mem_cons_of_mem _ hs)⟩

/-- The widest cell so far, going on with the rows. -/
theorem foldl_columnWidth (rows : List (List String)) (i w : Nat) :
    rows.foldl (fun w row => max w ((row[i]?.map String.utf8ByteSize).getD 0)) w =
      max w (longest String.utf8ByteSize (rows.filterMap (·[i]?))) := by
  induction rows generalizing w with
  | nil => simp [longest]
  | cons row rows ih =>
      rw [List.foldl_cons, ih, List.filterMap_cons]
      cases row[i]? with
      | none => simp
      | some cell => simp [longest, Nat.max_assoc]

/-- Columns are as wide as their longest text takes bytes. -/
theorem columnWidths_eq (headers : List String) (rows : List (List String)) :
    columnWidths headers rows = widthsBy String.utf8ByteSize headers rows := by
  apply List.ext_getElem
  · simp [widthsBy]
  · intro i hi hi'
    rw [length_columnWidths] at hi
    simp [columnWidths, widthsBy, columnWidth, foldl_columnWidth, columnTexts, hi, longest]

/-- A text has no more characters than bytes. -/
theorem length_le_utf8ByteSize (s : String) : s.length ≤ s.utf8ByteSize := by
  rw [← String.ofList_toList (s := s), String.utf8ByteSize_ofList, String.length_ofList]
  induction s.toList with
  | nil => simp
  | cons c r ih =>
      have := c.utf8Size_pos
      rw [String.utf8Len_cons, List.length_cons]
      omega

/-! ## The lines of a table -/

theorem length_fillUp {width : Nat} {cell : String} (h : cell.length ≤ width) :
    (fillUp width cell).length = width := by
  rw [← String.length_toList, fillUp_toList, List.length_append, List.length_replicate,
    String.length_toList]
  omega

theorem getElem?_fillRow {widths : List Nat} {cells : List String} {i width : Nat} {cell : String}
    (hwidth : widths[i]? = some width) (hcell : cells[i]? = some cell) :
    (fillRow widths cells)[i]? = some (fillUp width cell) := by
  induction cells generalizing widths i with
  | nil => simp at hcell
  | cons c r ih =>
      cases widths with
      | nil => simp at hwidth
      | cons w ws =>
          cases i with
          | zero => simp_all [fillRow]
          | succ i => exact ih hwidth hcell

/-- No cell is wider than its column. -/
def Fits (widths : List Nat) (cells : List String) : Prop :=
  ∀ (i width : Nat) (cell : String), widths[i]? = some width → cells[i]? = some cell →
    cell.length ≤ width

/-- Cells that fit are filled up to the widths of their columns. -/
theorem map_length_take_fillRow {widths : List Nat} {cells : List String}
    (hfits : Fits widths cells) {i : Nat} (hi : i ≤ widths.length) (hi' : i ≤ cells.length) :
    ((fillRow widths cells).take i).map String.length = widths.take i := by
  induction i generalizing widths cells with
  | zero => simp
  | succ i ih =>
      obtain ⟨w, ws, rfl⟩ := List.exists_cons_of_length_pos (Nat.zero_lt_of_lt hi)
      obtain ⟨c, cs, rfl⟩ := List.exists_cons_of_length_pos (Nat.zero_lt_of_lt hi')
      have hfirst : c.length ≤ w := hfits 0 w c rfl rfl
      have hrest : Fits ws cs := fun j => hfits (j + 1)
      rw [fillRow, List.take_succ_cons, List.map_cons, length_fillUp hfirst,
        ih hrest (Nat.le_of_succ_le_succ hi) (Nat.le_of_succ_le_succ hi'), List.take_succ_cons]

/-- Filling up brings in nothing but blanks. -/
theorem mem_fillRow {widths : List Nat} {cells : List String} {filled : String} {c : Char}
    (hfilled : filled ∈ fillRow widths cells) (hc : c ∈ filled.toList) :
    c = ' ' ∨ ∃ s ∈ cells, c ∈ s.toList := by
  induction cells generalizing widths with
  | nil => cases widths <;> simp [fillRow] at hfilled
  | cons s r ih =>
      cases widths with
      | nil => exact .inr ⟨filled, hfilled, hc⟩
      | cons w ws =>
          rcases List.mem_cons.mp hfilled with rfl | hrest
          · rw [fillUp_toList, List.mem_append] at hc
            rcases hc with hc | hc
            · exact .inr ⟨s, by simp, hc⟩
            · exact .inl (List.eq_of_mem_replicate hc)
          · rcases ih hrest with h | ⟨t, ht, hct⟩
            · exact .inl h
            · exact .inr ⟨t, List.mem_cons_of_mem _ ht, hct⟩

/-- A row of cells without line ends is one line. -/
theorem not_mem_rowLine {widths : List Nat} {cells : List String}
    (h : ∀ s ∈ cells, '\n' ∉ s.toList) : '\n' ∉ (rowLine widths cells).toList := by
  intro hmem
  rw [rowLine, toList_trimRight, dropRight, List.mem_reverse] at hmem
  have hjoined := List.mem_reverse.mp ((List.dropWhile_sublist _).mem hmem)
  rcases mem_joinWith hjoined with hsep | ⟨filled, hfilled, hc⟩
  · exact absurd hsep (by decide)
  · rcases mem_fillRow hfilled hc with hblank | ⟨s, hs, hcs⟩
    · exact absurd hblank (by decide)
    · exact h s hs hcs

theorem not_mem_ruleLine (widths : List Nat) : '\n' ∉ (ruleLine widths).toList := by
  intro hmem
  rcases mem_joinWith hmem with hsep | ⟨dashes, hdashes, hc⟩
  · exact absurd hsep (by decide)
  · obtain ⟨w, -, rfl⟩ := List.mem_map.mp hdashes
    rw [String.toList_ofList] at hc
    exact absurd (List.eq_of_mem_replicate hc) (by decide)

/-- Every cell of a column stands where the column begins. -/
theorem standsAt_rowLine {widths : List Nat} {cells : List String} (hfits : Fits widths cells)
    {i : Nat} (hi : i < widths.length) {cell : String} (hcell : cells[i]? = some cell) :
    StandsAt cell (rowLine widths cells).toList (columnStart widths i) := by
  have hi' : i < cells.length := (List.getElem?_eq_some_iff.mp hcell).1
  have hfill := getElem?_fillRow (List.getElem?_eq_getElem hi) hcell
  obtain ⟨before, after, htext, hlength, -, -⟩ := exists_joinWith_eq "  " hfill
  rw [map_length_take_fillRow hfits hi.le hi'.le] at hlength
  obtain ⟨blanks, hblanks, hline⟩ :=
    exists_dropRight_append (joinWith "  " (fillRow widths cells)).toList
  refine ⟨blanks, hblanks, ?_⟩
  have hstart : columnStart widths i = before.length := hlength.symm
  rw [rowLine, toList_trimRight, hline, htext, hstart, List.append_assoc, List.drop_left,
    fillUp_toList, List.append_assoc]
  exact List.prefix_append _ _

/-- Every column has its run of dashes. -/
theorem isRun_ruleLine {widths : List Nat} {i width : Nat} (h : widths[i]? = some width) :
    IsRun '-' (ruleLine widths).toList (columnStart widths i) width := by
  have hpiece : (widths.map fun w => String.ofList (List.replicate w '-'))[i]? =
      some (String.ofList (List.replicate width '-')) := by
    rw [List.getElem?_map, h]
    rfl
  obtain ⟨before, after, htext, hlength, hbefore, hafter⟩ := exists_joinWith_eq "  " hpiece
  refine ⟨before, after, ?_, ?_, ?_, ?_⟩
  · rw [ruleLine, htext, String.toList_ofList]
  · rw [hlength, columnStart, ← List.map_take, List.map_map]
    simp only [Function.comp_def, String.length_ofList, List.length_replicate, List.map_id']
    rfl
  · obtain rfl | ⟨b, rfl⟩ := hbefore <;> simp
  · obtain rfl | ⟨a, rfl⟩ := hafter <;> simp

/-- A run tells its length. -/
theorem IsRun.length_eq {c : Char} {line : List Char} {start length : Nat}
    (h : IsRun c line start length) :
    ((line.drop start).takeWhile (· = c)).length = length := by
  obtain ⟨before, after, rfl, rfl, -, hafter⟩ := h
  rw [List.append_assoc, List.drop_left, List.takeWhile_append_of_pos (by simp)]
  cases after with
  | nil => simp
  | cons d r =>
      have hd : d ≠ c := by rintro rfl; simp at hafter
      simp [hd]

/-! ## The table -/

variable {headers : List String} {rows : List (List String)}

theorem mem_columnTexts_of_mem {cells : List String} (hmem : cells = headers ∨ cells ∈ rows)
    {i : Nat} {s : String} (h : cells[i]? = some s) : s ∈ columnTexts headers rows i := by
  rw [columnTexts, List.mem_append]
  rcases hmem with rfl | hmem
  · exact .inl (by simp [h])
  · exact .inr (List.mem_filterMap.mpr ⟨cells, hmem, h⟩)

theorem getElem?_widthsBy (measure : String → Nat) {i : Nat} (hi : i < headers.length) :
    (widthsBy measure headers rows)[i]? = some (longest measure (columnTexts headers rows i)) := by
  simp [widthsBy, hi]

/-- Measured in bytes, a column has room for all its cells. -/
theorem fits_widthsBy {cells : List String} (hmem : cells = headers ∨ cells ∈ rows) :
    Fits (widthsBy String.utf8ByteSize headers rows) cells := by
  intro i width cell hwidth hcell
  have hi : i < headers.length := by
    have := (List.getElem?_eq_some_iff.mp hwidth).1
    simpa [widthsBy] using this
  obtain rfl : longest _ _ = width := by
    rw [getElem?_widthsBy _ hi] at hwidth
    exact Option.some.inj hwidth
  exact Nat.le_trans (length_le_utf8ByteSize cell)
    (le_longest (mem_columnTexts_of_mem hmem hcell))

/-- **The lines of a table.** -/
theorem splitOnChar_columns (hheaders : ∀ s ∈ headers, '\n' ∉ s.toList)
    (hrows : ∀ row ∈ rows, ∀ s ∈ row, '\n' ∉ s.toList) :
    splitOnChar '\n' (columns headers rows).toList =
      (rowLine (columnWidths headers rows) headers).toList ::
        (ruleLine (columnWidths headers rows)).toList ::
          rows.map fun row => (rowLine (columnWidths headers rows) row).toList := by
  rw [columns, splitOnChar_joinWith (List.cons_ne_nil _ _)]
  · simp [Function.comp_def]
  · intro l hl
    rcases List.mem_cons.mp hl with rfl | hl
    · exact not_mem_rowLine hheaders
    · rcases List.mem_cons.mp hl with rfl | hl
      · exact not_mem_ruleLine _
      · obtain ⟨row, hrow, rfl⟩ := List.mem_map.mp hl
        exact not_mem_rowLine (hrows row hrow)

/-- Measured in bytes, every table is laid out. -/
theorem laidOut_utf8ByteSize (hheaders : ∀ s ∈ headers, '\n' ∉ s.toList)
    (hrows : ∀ row ∈ rows, ∀ s ∈ row, '\n' ∉ s.toList) :
    LaidOut (widthsBy String.utf8ByteSize headers rows) headers rows := by
  refine ⟨_, _, _, splitOnChar_columns hheaders hrows, by simp, fun i hi => ?_⟩
  have hwidth : (widthsBy String.utf8ByteSize headers rows)[i]? = some _ :=
    getElem?_widthsBy _ hi
  rw [columnWidths_eq]
  refine ⟨_, hwidth, isRun_ruleLine hwidth, ?_⟩
  intro k line cells hline hcells text htext
  rw [← List.map_cons (f := fun row => (rowLine _ row).toList), List.getElem?_map, hcells] at hline
  obtain rfl := Option.some.inj hline
  have hmem : cells = headers ∨ cells ∈ rows := List.mem_cons.mp (List.mem_of_getElem? hcells)
  exact standsAt_rowLine (fits_widthsBy hmem) (by simpa [widthsBy]) htext

/-- One table has columns of one width only. -/
theorem LaidOut.widths_take_eq {ws vs : List Nat} (hw : LaidOut ws headers rows)
    (hv : LaidOut vs headers rows) {i : Nat} (hi : i ≤ headers.length) :
    ws.take i = vs.take i := by
  obtain ⟨head, rule, body, hlines, -, hcolumns⟩ := hw
  obtain ⟨head', rule', body', hlines', -, hcolumns'⟩ := hv
  obtain ⟨rfl, rfl, rfl⟩ : head = head' ∧ rule = rule' ∧ body = body' := by
    simpa using hlines.symm.trans hlines'
  induction i with
  | zero => simp
  | succ i ih =>
      have htake := ih (Nat.le_of_succ_le hi)
      obtain ⟨w, hwi, hrun, -⟩ := hcolumns i hi
      obtain ⟨v, hvi, hrun', -⟩ := hcolumns' i hi
      -- The runs begin at the same place of the same line.
      have hstart : columnStart ws i = columnStart vs i := by rw [columnStart, htake, columnStart]
      have hsame : w = v := by
        rw [← hrun.length_eq, hstart, hrun'.length_eq]
      rw [List.take_add_one, List.take_add_one, htake, hwi, hvi, hsame]

/-- Measured in characters, a table is laid out exactly if no text takes more bytes than the longest
of its column has characters. -/
theorem laidOut_length_iff (hheaders : ∀ s ∈ headers, '\n' ∉ s.toList)
    (hrows : ∀ row ∈ rows, ∀ s ∈ row, '\n' ∉ s.toList) :
    LaidOut (widthsBy String.length headers rows) headers rows ↔
      ∀ i < headers.length, ∀ s ∈ columnTexts headers rows i,
        s.utf8ByteSize ≤ longest String.length (columnTexts headers rows i) := by
  have hbytes := laidOut_utf8ByteSize hheaders hrows
  constructor
  · intro h i hi s hs
    have hsame := h.widths_take_eq hbytes hi
    have hlast : (widthsBy String.length headers rows)[i]? =
        (widthsBy String.utf8ByteSize headers rows)[i]? := by
      rw [← List.getElem?_take_of_succ, hsame, List.getElem?_take_of_succ]
    rw [getElem?_widthsBy _ hi, getElem?_widthsBy _ hi] at hlast
    rw [Option.some.inj hlast]
    exact le_longest hs
  · intro h
    have hsame :
        widthsBy String.length headers rows = widthsBy String.utf8ByteSize headers rows := by
      apply List.map_congr_left
      intro i hi
      apply Nat.le_antisymm
      · exact longest_le fun s hs => Nat.le_trans (length_le_utf8ByteSize s) (le_longest hs)
      · exact longest_le (h i (List.mem_range.mp hi))
    rw [hsame]
    exact hbytes

/-- **The columns of a table.** If no text holds a line end, every column is as wide as its longest
text takes bytes: so long is its run of dashes, and there its cells begin. Measured in characters
the table is laid out exactly if no text takes more bytes than the longest of its column has
characters. -/
theorem table_laid_out (hheaders : ∀ s ∈ headers, '\n' ∉ s.toList)
    (hrows : ∀ row ∈ rows, ∀ s ∈ row, '\n' ∉ s.toList) :
    LaidOut (widthsBy String.utf8ByteSize headers rows) headers rows ∧
      (LaidOut (widthsBy String.length headers rows) headers rows ↔
        ∀ i < headers.length, ∀ s ∈ columnTexts headers rows i,
          s.utf8ByteSize ≤ longest String.length (columnTexts headers rows i)) :=
  ⟨laidOut_utf8ByteSize hheaders hrows, laidOut_length_iff hheaders hrows⟩

theorem accents_laid_out :
    (∀ s ∈ ["né", "b"], '\n' ∉ s.toList) ∧
      (∀ row ∈ [["à", "y", "z"], [], ["plain", "é"]], ∀ s ∈ row, '\n' ∉ s.toList) ∧
      LaidOut [5, 2] ["né", "b"] [["à", "y", "z"], [], ["plain", "é"]] := by
  have hheaders : ∀ s ∈ ["né", "b"], '\n' ∉ s.toList := by decide
  have hrows : ∀ row ∈ [["à", "y", "z"], [], ["plain", "é"]], ∀ s ∈ row, '\n' ∉ s.toList := by
    decide
  exact ⟨hheaders, hrows, (table_laid_out hheaders hrows).1⟩

/-- Columns are not always as wide as their longest text has characters. -/
theorem not_every_table_laid_out_by_characters :
    ¬ ∀ headers rows, (∀ s ∈ headers, '\n' ∉ s.toList) →
      (∀ row ∈ rows, ∀ s ∈ row, '\n' ∉ s.toList) →
        LaidOut (widthsBy String.length headers rows) headers rows := by
  intro h
  have hheaders : ∀ s ∈ ["é", "b"], '\n' ∉ s.toList := by decide
  have hrows : ∀ row ∈ ([] : List (List String)), ∀ s ∈ row, '\n' ∉ s.toList := by simp
  have hbytes := (laidOut_length_iff hheaders hrows).mp (h _ _ hheaders hrows) 0 (by decide) "é"
    (by decide)
  exact absurd hbytes (by decide)

end Conductor.Text
