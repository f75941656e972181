import Conductor.Proofs.Document.Scalar

/-!
# Pages of entries

A page is written down in passages: lines that say nothing, and entries, each with the lines below
that belong to it. All entries begin at one column. What the reader finds on such a page are its
entries, in their order (`gather_lines`), and a text that is laid out so is read as the record of
them (`IsPage.read?_eq`). The lines below an entry can hold anything that has a value.
-/

namespace Conductor.Document

variable {column n : Nat} {c : Char} {r text line name rest : List Char}
  {below : List (List Char)}

/-! ## Lines -/

/-- A line that says nothing: blanks, and behind them at most a remark. -/
def SaysNothing (line : List Char) : Prop :=
  ∃ n r, line = List.replicate n ' ' ++ r ∧ r.head?.all (· = '#') = true

/-- Three dashes or three points for themselves begin or end a document. -/
def IsMark (cs : List Char) : Prop :=
  ∃ c ∈ ['-', '.'], ∃ r, cs = c :: c :: c :: r ∧ startsBlank r = true

/-- What a line below an entry is when it belongs to the entry. -/
inductive Belongs (column : Nat) : List Char → Prop where
  | nothing {line : List Char} (h : SaysNothing line) : Belongs column line
  /-- A line further to the right. -/
  | right {n : Nat} (hn : column < n) {c : Char} (hc : c ∉ [' ', '\t', '#']) (r : List Char) :
      Belongs column (List.replicate n ' ' ++ c :: r)
  /-- An item of a list may stand at the column of the entries. -/
  | item {r : List Char} (hr : startsBlank r = true) :
      Belongs column (List.replicate column ' ' ++ '-' :: r)

/-- What a line says, without the blanks before it. -/
def content? (line : List Char) : Option (List Char) :=
  match line.dropWhile (· = ' ') with
  | [] => none
  | '#' :: _ => none
  | cs => some cs

theorem dropWhile_replicate_append (n : Nat) (r : List Char) :
    (List.replicate n ' ' ++ r).dropWhile (· = ' ') = r.dropWhile (· = ' ') := by
  apply List.dropWhile_append_of_pos
  intro c hc
  rw [List.eq_of_mem_replicate hc]
  rfl

theorem content?_of_saysNothing (h : SaysNothing line) : content? line = none := by
  obtain ⟨n, r, rfl, hr⟩ := h
  rw [content?, dropWhile_replicate_append]
  cases r with
  | nil => rfl
  | cons c r =>
      obtain rfl : c = '#' := of_decide_eq_true hr
      rfl

theorem content?_shifted (hc : c ∉ [' ', '\t', '#']) (n : Nat) (r : List Char) :
    content? (List.replicate n ' ' ++ c :: r) = some (c :: r) := by
  simp only [List.mem_cons, List.not_mem_nil, or_false, not_or] at hc
  rw [content?, dropWhile_replicate_append, List.dropWhile_cons_of_neg (by simp [hc.1])]
  split
  · rename_i heq
    cases heq
  · rename_i heq
    exact absurd (List.cons.inj heq).1 hc.2.2
  · rfl

theorem ofChars_of_saysNothing (h : SaysNothing line) : Line.ofChars line = .empty := by
  obtain ⟨n, r, rfl, hr⟩ := h
  cases r with
  | nil =>
      rw [List.append_nil]
      exact Line.ofChars_blanks n
  | cons c r =>
      obtain rfl : c = '#' := of_decide_eq_true hr
      exact Line.ofChars_remark n r

/-- What begins otherwise is no mark. -/
theorem not_isMark (hc : c ∉ ['-', '.']) : ¬ IsMark (c :: r) := by
  rintro ⟨d, hd, s, heq, -⟩
  obtain rfl := (List.cons.inj heq).1
  exact hc hd

/-- What begins with neither a tab nor a remark and is no mark is content. -/
theorem atColumn_eq_content (hc : c ∉ ['\t', '#']) (hmark : n = 0 → ¬ IsMark (c :: r)) :
    Line.atColumn n (c :: r) = .content n (c :: r) := by
  simp only [List.mem_cons, List.not_mem_nil, or_false, not_or] at hc
  have hoff (d : Char) (hd : d ∈ ['-', '.']) (s : List Char) (heq : c :: r = d :: d :: d :: s) :
      (n = 0 && startsBlank s) = false := by
    rw [Bool.and_eq_false_iff, decide_eq_false_iff_not]
    by_cases hn : n = 0
    · exact .inr (Bool.eq_false_iff.mpr fun hs => hmark hn ⟨d, hd, s, heq, hs⟩)
    · exact .inl hn
  unfold Line.atColumn
  split
  · rename_i heq
    cases heq
  · rename_i heq
    exact absurd (List.cons.inj heq).1 hc.2
  · rename_i heq
    exact absurd (List.cons.inj heq).1 hc.1
  · rename_i s heq
    rw [hoff '-' (by simp) s heq, heq]
    rfl
  · rename_i s heq
    rw [hoff '.' (by simp) s heq, heq]
    rfl
  · rfl

theorem ofChars_shifted (hc : c ∉ [' ', '\t', '#']) (hmark : n = 0 → ¬ IsMark (c :: r)) :
    Line.ofChars (List.replicate n ' ' ++ c :: r) = .content n (c :: r) := by
  rw [List.mem_cons, not_or] at hc
  have hdrop : (List.replicate n ' ' ++ c :: r).dropWhile (· = ' ') = c :: r := by
    rw [dropWhile_replicate_append, List.dropWhile_cons_of_neg (by simp [hc.1])]
  have htake : (List.replicate n ' ' ++ c :: r).takeWhile (· = ' ') = List.replicate n ' ' := by
    rw [List.takeWhile_append_of_pos, List.takeWhile_cons_of_neg (by simp [hc.1]), List.append_nil]
    intro d hd
    simp [List.eq_of_mem_replicate hd]
  rw [Line.ofChars, hdrop, htake, List.length_replicate]
  exact atColumn_eq_content hc.2 hmark

/-- A line that belongs to an entry is passed over, or it is content to the right of the entries or
an item of a list. -/
theorem Belongs.ofChars (h : Belongs column line) :
    (Line.ofChars line = .empty ∧ content? line = none) ∨
      ∃ n text, Line.ofChars line = .content n text ∧ content? line = some text ∧
        ¬ n < column ∧ (decide (column < n) || isItem text) = true := by
  cases h with
  | nothing h => exact .inl ⟨ofChars_of_saysNothing h, content?_of_saysNothing h⟩
  | @right n hn c hc r =>
      refine .inr ⟨n, c :: r, ofChars_shifted hc fun h0 => ?_, content?_shifted hc n r, ?_, ?_⟩
      · omega
      · omega
      · simp [hn]
  | @item r hr =>
      have hmark : ¬ IsMark ('-' :: r) := by
        rintro ⟨d, hd, s, heq, -⟩
        obtain ⟨rfl, rfl⟩ := List.cons.inj heq
        cases hr
      refine .inr ⟨column, '-' :: r, ofChars_shifted (by decide) fun _ => hmark,
        content?_shifted (by decide) column r, Nat.lt_irrefl column, ?_⟩
      rw [Bool.or_eq_true]
      exact .inr hr

/-! ## Passages -/

/-- A piece of a page. -/
inductive Passage where
  | filler (line : List Char)
  /-- An entry: its name, what stands behind the colon, and the lines below. -/
  | entry (name rest : List Char) (below : List (List Char))

namespace Passage

def lines (column : Nat) : Passage → List (List Char)
  | .filler line => [line]
  | .entry name rest below => (List.replicate column ' ' ++ (name ++ ':' :: rest)) :: below

/-- The name and the value of an entry. -/
def field? : Passage → Option (String × DocumentValue)
  | .filler _ => none
  | .entry name rest below =>
      (entryValue? rest (below.filterMap content?)).map fun v => (String.ofList name, v)

/-- An entry as the reader finds it. -/
def found? : Passage → Option Entry
  | .filler _ => none
  | .entry name rest below => some ⟨name ++ ':' :: rest, below.filterMap content?⟩

/-- When a passage can stand on a page. -/
inductive Fits (column : Nat) : Passage → Prop where
  | filler {line : List Char} (h : SaysNothing line) : Fits column (.filler line)
  | entry {name rest : List Char} {below : List (List Char)} {v : DocumentValue}
      (hname : IsPlain name) (hrest : startsBlank rest = true)
      (hmark : column = 0 → ¬ IsMark (name ++ ':' :: rest))
      (hbelow : ∀ line ∈ below, Belongs column line)
      (hvalue : entryValue? rest (below.filterMap content?) = some v) :
      Fits column (.entry name rest below)

end Passage

/-- The names and values on a page. -/
def fieldsOf (ps : List Passage) : List (String × DocumentValue) :=
  ps.filterMap Passage.field?

/-- The lines of a page as the reader sees them. -/
def linesOf (column : Nat) (ps : List Passage) : List Line :=
  (ps.flatMap (Passage.lines column)).map Line.ofChars

variable {ps : List Passage}

@[simp] theorem linesOf_nil : linesOf column [] = [] := rfl

theorem linesOf_filler (h : SaysNothing line) (ps : List Passage) :
    linesOf column (.filler line :: ps) = .empty :: linesOf column ps := by
  rw [linesOf, List.flatMap_cons, List.map_append]
  show Line.ofChars line :: linesOf column ps = _
  rw [ofChars_of_saysNothing h]

/-- The line of an entry is content at the column of the entries that is no item of a list and opens
neither a record nor a list. -/
theorem exists_linesOf_entry (hname : IsPlain name)
    (hmark : column = 0 → ¬ IsMark (name ++ ':' :: rest)) (below : List (List Char))
    (ps : List Passage) :
    linesOf column (.entry name rest below :: ps) =
        .content column (name ++ ':' :: rest) :: (below.map Line.ofChars ++ linesOf column ps) ∧
      isItem (name ++ ':' :: rest) = false ∧
      ((name ++ ':' :: rest).head?.any fun c => c = '\x7b' || c = '[') = false := by
  have hstarts := startsPlain_append hname.starts (':' :: rest)
  obtain ⟨c, r, hcons, hc⟩ := exists_cons_of_startsPlain hstarts
  have hitem := isItem_eq_false hstarts
  simp only [List.mem_cons, List.not_mem_nil, or_false, not_or] at hc
  have hblank : c ∉ [' ', '\t', '#'] := by simp [hc.1, hc.2.1, hc.2.2.1]
  refine ⟨?_, hitem, ?_⟩
  · rw [linesOf, List.flatMap_cons, List.map_append]
    show Line.ofChars (List.replicate column ' ' ++ (name ++ ':' :: rest)) ::
      (below.map Line.ofChars ++ linesOf column ps) = _
    rw [hcons] at hmark ⊢
    rw [ofChars_shifted hblank hmark]
  · rw [hcons]
    simp [hc.2.2.2.1, hc.2.2.2.2.1]

/-! ## What the reader finds -/

/-- The lines that belong to an entry are put below it. -/
theorem gather_append (h : ∀ line ∈ below, Belongs column line) (ls : List Line) :
    gather column (below.map Line.ofChars ++ ls) =
      (gather column ls).map fun p => (below.filterMap content? ++ p.1, p.2) := by
  induction below with
  | nil => simp
  | cons line below ih =>
      have hrest := ih fun l hl => h l (List.mem_cons_of_mem _ hl)
      rw [List.map_cons, List.cons_append, List.filterMap_cons]
      rcases (h line (by simp)).ofChars with ⟨hline, hcontent⟩ | ⟨n, text, hline, hcontent, hn, hto⟩
      · rw [hline, hcontent, gather, hrest]
      · rw [hline, hcontent, gather, hrest]
        cases gather column ls with
        | none => rfl
        | some p => simp [hn, hto]

/-- The entries of a page are found in their order, and nothing before the first of them. -/
theorem gather_linesOf (h : ∀ p ∈ ps, p.Fits column) :
    gather column (linesOf column ps) = some ([], ps.filterMap Passage.found?) := by
  induction ps with
  | nil => rfl
  | cons p ps ih =>
      have hrest := ih fun q hq => h q (List.mem_cons_of_mem _ hq)
      cases h p (by simp) with
      | filler hline =>
          rw [linesOf_filler hline, gather, hrest]
          rfl
      | @entry name rest below v hname _ hmark hbelow _ =>
          obtain ⟨hlines, hitem, -⟩ := exists_linesOf_entry hname hmark below ps
          rw [hlines, gather, gather_append hbelow, hrest]
          simp [hitem, Passage.found?]

/-- What is found is read as the names and values. -/
theorem mapM_read?_found (h : ∀ p ∈ ps, p.Fits column) :
    (ps.filterMap Passage.found?).mapM Entry.read? =
      some ((fieldsOf ps).map fun f => (.plain f.1, f.2)) := by
  induction ps with
  | nil => rfl
  | cons p ps ih =>
      have hrest := ih fun q hq => h q (List.mem_cons_of_mem _ hq)
      cases h p (by simp) with
      | filler _ => exact hrest
      | @entry name rest below v hname hblank _ _ hvalue =>
          have hread := Entry.read?_append hname hblank (below.filterMap content?)
          rw [hvalue] at hread
          show (Entry.mk (name ++ ':' :: rest) (below.filterMap content?) ::
            ps.filterMap Passage.found?).mapM Entry.read? = _
          have hfield : fieldsOf (.entry name rest below :: ps) =
              (String.ofList name, v) :: fieldsOf ps := by
            simp [fieldsOf, Passage.field?, hvalue]
          rw [List.mapM_cons, hread, hrest, hfield]
          rfl

/-- On a page there are no marks and no tabs before content. -/
theorem isInside_of_mem_linesOf (h : ∀ p ∈ ps, p.Fits column) {l : Line}
    (hl : l ∈ linesOf column ps) : l.isInside = true := by
  induction ps with
  | nil => cases hl
  | cons p ps ih =>
      have hrest := ih fun q hq => h q (List.mem_cons_of_mem _ hq)
      cases h p (by simp) with
      | filler hline =>
          rw [linesOf_filler hline] at hl
          rcases List.mem_cons.mp hl with rfl | hl
          · rfl
          · exact hrest hl
      | @entry name rest below v hname _ hmark hbelow _ =>
          rw [(exists_linesOf_entry hname hmark below ps).1] at hl
          rcases List.mem_cons.mp hl with rfl | hl
          · rfl
          · rcases List.mem_append.mp hl with hl | hl
            · obtain ⟨line, hline, rfl⟩ := List.mem_map.mp hl
              rcases (hbelow line hline).ofChars with ⟨hempty, -⟩ | ⟨n, text, hcontent, -⟩
              · rw [hempty]
                rfl
              · rw [hcontent]
                rfl
            · exact hrest hl

/-- What first says something on a page is an entry. -/
theorem skipEmpty_linesOf (h : ∀ p ∈ ps, p.Fits column) :
    (skipEmpty (linesOf column ps) = [] ∧ fieldsOf ps = []) ∨
      ∃ text ls, skipEmpty (linesOf column ps) = .content column text :: ls ∧
        (text.head?.any fun c => c = '\x7b' || c = '[') = false := by
  induction ps with
  | nil => exact .inl ⟨rfl, rfl⟩
  | cons p ps ih =>
      cases h p (by simp) with
      | filler hline =>
          rw [linesOf_filler hline]
          exact ih fun q hq => h q (List.mem_cons_of_mem _ hq)
      | @entry name rest below v hname _ hmark _ _ =>
          obtain ⟨hlines, -, hopen⟩ := exists_linesOf_entry hname hmark below ps
          exact .inr ⟨_, _, by rw [hlines]; rfl, hopen⟩

theorem gather_skipEmpty (ls : List Line) : gather column (skipEmpty ls) = gather column ls := by
  induction ls with
  | nil => rfl
  | cons l ls ih =>
      cases l with
      | empty => exact ih
      | _ => rfl

theorem untilClosed?_of_isInside {ls : List Line} (h : ∀ l ∈ ls, l.isInside = true) :
    untilClosed? ls = ofLines? ls := by
  rw [untilClosed?, List.dropWhile_eq_nil_iff.mpr h, List.takeWhile_eq_self_iff.mpr h]
  rfl

/-- The lines of a page are the record of its entries, or they say nothing at all. -/
theorem ofMarkedLines?_linesOf (h : ∀ p ∈ ps, p.Fits column) :
    ofMarkedLines? (linesOf column ps) =
        some (.record ((fieldsOf ps).map fun f => (.plain f.1, f.2))) ∨
      (fieldsOf ps = [] ∧ ofMarkedLines? (linesOf column ps) = some (.plain "")) := by
  have hinside : ∀ l ∈ skipEmpty (linesOf column ps), l.isInside = true := fun l hl =>
    isInside_of_mem_linesOf h ((List.dropWhile_sublist _).subset hl)
  have hfound := gather_linesOf h
  have hread := mapM_read?_found h
  rw [← gather_skipEmpty] at hfound
  rcases skipEmpty_linesOf h with ⟨hskip, hfields⟩ | ⟨text, ls, hskip, hopen⟩
  · refine .inr ⟨hfields, ?_⟩
    rw [ofMarkedLines?, hskip]
    rfl
  · left
    rw [hskip] at hinside hfound
    have hlines : ofLines? (.content column text :: ls) =
        some (.record ((fieldsOf ps).map fun f => (.plain f.1, f.2))) := by
      show (if _ then _ else _) = _
      rw [hopen]
      simp only [Bool.false_eq_true, if_false, hfound, hread]
      rfl
    rw [ofMarkedLines?, hskip]
    exact (untilClosed?_of_isInside hinside).trans hlines

/-! ## Texts -/

/-- A text that is laid out in passages, however its lines are ended. -/
structure IsPage (text : String) (column : Nat) (ps : List Passage) : Prop where
  allowed : (dropMark text.toList).all isAllowed = true
  lines : breakLines (dropMark text.toList) = ps.flatMap (Passage.lines column)
  fits : ∀ p ∈ ps, p.Fits column

/-- **A page is read as the record of its entries.** A page without any says nothing. -/
theorem IsPage.read?_eq {text : String} (h : IsPage text column ps) :
    read? text = some (.record ((fieldsOf ps).map fun f => (.plain f.1, f.2))) ∨
      (fieldsOf ps = [] ∧ read? text = some (.plain "")) := by
  have hread : read? text = ofMarkedLines? (linesOf column ps) := by
    simp only [read?, h.allowed, if_true, h.lines]
    rfl
  rw [hread]
  exact ofMarkedLines?_linesOf h.fits

/-! ## Pages written line by line -/

theorem dropMark_eq_self {cs : List Char} (h : ∀ c ∈ cs, isAllowed c = true) :
    dropMark cs = cs := by
  unfold dropMark
  split
  · rename_i r
    exact absurd (h '\uFEFF' (by simp)) (by decide)
  · rfl

/-- Lines that each end with a line feed, with an empty line behind the last of them. -/
theorem breakLines_flatMap {ls : List (List Char)} (h : ∀ l ∈ ls, ∀ c ∈ l, isBreak c = false) :
    breakLines (ls.flatMap (· ++ ['\n'])) = ls ++ [[]] := by
  induction ls with
  | nil => rfl
  | cons l ls ih =>
      have hrest := ih fun m hm => h m (List.mem_cons_of_mem _ hm)
      rw [List.flatMap_cons, List.append_assoc, List.singleton_append,
        breakLines_append (h l (by simp)), hrest]
      rfl

/-- A text whose lines each end with a line feed is a page with an empty line at its end. -/
theorem isPage_of_toList_eq {text : String} (hfits : ∀ p ∈ ps, p.Fits column)
    (hchars : ∀ l ∈ ps.flatMap (Passage.lines column), ∀ c ∈ l,
      isAllowed c = true ∧ isBreak c = false)
    (htext : text.toList = (ps.flatMap (Passage.lines column)).flatMap (· ++ ['\n'])) :
    IsPage text column (ps ++ [.filler []]) := by
  have hallowed : ∀ c ∈ text.toList, isAllowed c = true := by
    intro c hc
    rw [htext] at hc
    obtain ⟨l, hl, hc⟩ := List.mem_flatMap.mp hc
    rcases List.mem_append.mp hc with hc | hc
    · exact (hchars l hl c hc).1
    · obtain rfl := List.mem_singleton.mp hc
      decide
  have hmark := dropMark_eq_self hallowed
  refine ⟨?_, ?_, ?_⟩
  · rw [hmark]
    exact List.all_eq_true.mpr hallowed
  · rw [hmark, htext, breakLines_flatMap fun l hl c hc => (hchars l hl c hc).2,
      List.flatMap_append]
    rfl
  · intro p hp
    rcases List.mem_append.mp hp with hp | hp
    · exact hfits p hp
    · obtain rfl := List.mem_singleton.mp hp
      exact .filler ⟨0, [], rfl, rfl⟩

end Conductor.Document
