import Conductor.Document.Writer
import Conductor.Proofs.Binary64.Text
import Conductor.Proofs.Document.Laws
import Conductor.Proofs.Document.Page

/-!
# The library of the writer and the reader

The library of the command line keeps what is promised of one (`lawful_library`). It spells scalars
as the writer prints them and takes a text without quotes as it stands. Its pages, and what it
writes is one of them (`write_eq_page`), are pages of the reader (`isPage_page`). Numbers of all
kinds read back: finite ones in each of their forms, the infinities and even the one that is no
number (`numberOf?_print`).
-/

namespace Conductor.Document

open Binary64 (IsNumeralChar)

variable {c : Char} {s name word : String}

/-! ## Words -/

theorem ne_of_isWordChar (hc : isWordChar c = true) {d : Char} (hd : isWordChar d = false) :
    c ≠ d := by
  rintro rfl
  rw [hc] at hd
  cases hd

/-- Characters other than blanks that are no part of a word, but stand for something else when they
come first. -/
def marks : List Char :=
  ['?', ':', ',', '[', ']', '\x7b', '\x7d', '#', '&', '*', '!', '|', '>', '\'', '"', '%', '@', '\x60']

theorem ne_of_mem_marks (hc : isWordChar c = true) : ∀ d ∈ marks, c ≠ d := by
  intro d hd
  have hnone : (marks.all fun d => !isWordChar d) = true := by decide
  exact ne_of_isWordChar hc (by simpa using List.all_eq_true.mp hnone d hd)

theorem isWordChar_of_isAlphanum (h : c.isAlphanum = true) : isWordChar c = true := by
  simp [isWordChar, h]

/-- Neither a colon, nor a mark of a remark or a blank is in a word. -/
theorem not_mem_of_all {cs : List Char} (h : cs.all isWordChar = true) {d : Char}
    (hd : isWordChar d = false) : d ∉ cs := fun hmem =>
  ne_of_isWordChar (List.all_eq_true.mp h d hmem) hd rfl

theorem isSpace_of_isWordChar (h : isWordChar c = true) : isSpace c = false := by
  simp [isSpace, ne_of_isWordChar h (d := ' ') rfl, ne_of_isWordChar h (d := '\t') rfl]

/-- A word may begin with any of its characters, a hyphen only if another one follows. -/
theorem startsPlain_of_all {cs : List Char} (h : (c :: cs).all isWordChar = true)
    (hhyphen : c = '-' → cs ≠ []) : startsPlain false (c :: cs) = true := by
  obtain ⟨hc, hcs⟩ : isWordChar c = true ∧ cs.all isWordChar = true := by
    rwa [List.all_cons, Bool.and_eq_true] at h
  by_cases hfirst : c = '-'
  · cases cs with
    | nil => exact absurd rfl (hhyphen hfirst)
    | cons d ds =>
        have hd : isSpace d = false := by
          rw [List.all_cons, Bool.and_eq_true] at hcs
          exact isSpace_of_isWordChar hcs.1
        simp [startsPlain, hfirst, startsBlank, hd]
  · have hmarks := ne_of_mem_marks hc
    simp only [marks, List.forall_mem_cons] at hmarks
    simp [startsPlain, isFlowMark, hfirst, isSpace_of_isWordChar hc, hmarks]

theorem isPlain_of_all {cs : List Char} (h : cs.all isWordChar = true)
    (hstart : startsPlain false cs = true) : IsPlain cs where
  starts := hstart
  colon := not_mem_of_all h rfl
  hash := not_mem_of_all h rfl
  ends := by
    cases hlast : cs.getLast? with
    | none => rfl
    | some c =>
        exact isSpace_of_isWordChar (List.all_eq_true.mp h c (List.mem_of_getLast? hlast))

theorem isPlain_of_isWord (h : isWord s = true) : IsPlain s.toList := by
  rw [isWord, Bool.and_eq_true] at h
  apply isPlain_of_all h.2
  cases hs : s.toList with
  | nil => simp [hs] at h
  | cons c cs =>
      rw [hs] at h
      apply startsPlain_of_all h.2
      rintro rfl rfl
      exact absurd h.1 (by decide)

/-- A name begins with a letter and is made of letters, digits and underscores. -/
theorem exists_cons_of_isName (h : isName s = true) :
    ∃ c cs, s.toList = c :: cs ∧ c.isAlpha = true ∧ (c :: cs).all isWordChar = true := by
  rw [isName, Bool.and_eq_true, Bool.and_eq_true] at h
  cases hs : s.toList with
  | nil => simp [hs] at h
  | cons c cs =>
      rw [hs] at h
      refine ⟨c, cs, rfl, h.1.1, List.all_eq_true.mpr fun d hd => ?_⟩
      have hd' := List.all_eq_true.mp h.1.2 d hd
      rw [Bool.or_eq_true] at hd'
      rcases hd' with hd' | hd'
      · exact isWordChar_of_isAlphanum hd'
      · simp [isWordChar, of_decide_eq_true hd']

theorem isPlain_of_isName (h : isName s = true) : IsPlain s.toList := by
  obtain ⟨c, cs, hs, hc, hall⟩ := exists_cons_of_isName h
  rw [hs]
  apply isPlain_of_all hall
  apply startsPlain_of_all hall
  rintro rfl
  cases hc

theorem isWord_of_isName (h : isName s = true) : isWord s = true := by
  obtain ⟨c, cs, hs, hc, hall⟩ := exists_cons_of_isName h
  have hfirst : c.isAlphanum = true := by simp [Char.isAlphanum, hc]
  rw [isWord, hs, hall, List.any_cons, hfirst]
  rfl

theorem bounds_of_isAlphanum (h : c.isAlphanum = true) : 48 ≤ c.toNat ∧ c.toNat ≤ 122 := by
  have hkind : ((c.isUpper || c.isLower) || c.isDigit) = true := h
  rw [Bool.or_eq_true, Bool.or_eq_true] at hkind
  rcases hkind with (hupper | hlower) | hdigit
  · obtain ⟨hlow, hhigh⟩ : 65 ≤ c.toNat ∧ c.toNat ≤ 90 := of_decide_eq_true hupper
    exact ⟨by omega, by omega⟩
  · obtain ⟨hlow, hhigh⟩ := Bool.and_eq_true_iff.mp hlower
    have hlow' : 97 ≤ c.toNat := of_decide_eq_true hlow
    have hhigh' : c.toNat ≤ 122 := of_decide_eq_true hhigh
    exact ⟨by omega, hhigh'⟩
  · obtain ⟨hlow, hhigh⟩ := Char.isDigit_iff_toNat.mp hdigit
    change 48 ≤ c.toNat at hlow
    change c.toNat ≤ 57 at hhigh
    exact ⟨hlow, by omega⟩

/-- The characters of words are printable. -/
theorem bounds_of_isWordChar (h : isWordChar c = true) : 0x20 < c.toNat ∧ c.toNat < 0x7F := by
  simp only [isWordChar, Bool.or_eq_true, decide_eq_true_eq] at h
  rcases h with (((halnum | rfl) | rfl) | rfl) | rfl
  · obtain ⟨hlow, hhigh⟩ := bounds_of_isAlphanum halnum
    exact ⟨by omega, by omega⟩
  all_goals decide

/-- A character of a word may stand in a document and ends no line. -/
theorem isAllowed_of_isWordChar (h : isWordChar c = true) :
    isAllowed c = true ∧ isBreak c = false := by
  obtain ⟨hlow, hhigh⟩ := bounds_of_isWordChar h
  constructor
  · have hlow' : 0x20 ≤ c.toNat := by omega
    have hhigh' : c.toNat ≤ 0x7E := by omega
    simp [isAllowed, hlow', hhigh']
  · have hne (d : Char) (hd : isWordChar d = false) : c ≠ d := ne_of_isWordChar h hd
    simp [isBreak, hne '\n' rfl, hne '\r' rfl, hne '\u0085' rfl, hne '\u2028' rfl,
      hne '\u2029' rfl]

/-! ## Numbers -/

/-- The text of a finite number: behind a minus or at once there is a digit. -/
theorem exists_toList_print {x : Binary64} (hfinite : x.isFinite = true) :
    ∃ c r, c.isDigit = true ∧ (∀ d ∈ r, IsNumeralChar d) ∧
      ((layout.write x).toList = c :: r ∨ (layout.write x).toList = '-' :: c :: r) := by
  obtain ⟨cs, htext, ⟨c, r, rfl, hc, hr⟩, -⟩ : ∃ cs, (layout.write x).toList = _ ∧ _ :=
    Binary64.exists_write_eq rfl rfl hfinite
  refine ⟨c, r, hc, hr, ?_⟩
  cases hsign : x.isNegative
  · exact .inl (by rw [htext, hsign]; rfl)
  · exact .inr (by rw [htext, hsign]; rfl)

theorem isAlphanum_of_isDigit (h : c.isDigit = true) : c.isAlphanum = true := by
  simp [Char.isAlphanum, h]

theorem isWordChar_of_isNumeralChar (h : IsNumeralChar c) : isWordChar c = true := by
  rcases h with h | h
  · exact isWordChar_of_isAlphanum (isAlphanum_of_isDigit h)
  · simp only [List.mem_cons, List.not_mem_nil, or_false] at h
    rcases h with rfl | rfl | rfl <;> decide

theorem isWord_write (x : Binary64) : isWord (layout.write x) = true := by
  cases x with
  | nan => decide
  | infinite negative => cases negative <;> decide
  | finite n m s h =>
      obtain ⟨c, r, hc, hr, htext⟩ := exists_toList_print (x := .finite n m s h) rfl
      have halnum : c.isAlphanum = true := isAlphanum_of_isDigit hc
      have hfirst : isWordChar c = true := isWordChar_of_isAlphanum halnum
      have hrest : r.all isWordChar = true :=
        List.all_eq_true.mpr fun d hd => isWordChar_of_isNumeralChar (hr d hd)
      have hminus : isWordChar '-' = true := rfl
      rcases htext with htext | htext <;>
        simp [isWord, htext, halnum, hfirst, hrest, hminus]

/-- The words for an infinity and for no number. -/
def numberWords : List String :=
  [".inf", ".Inf", ".INF", "-.inf", "-.Inf", "-.INF", ".nan", ".NaN", ".NAN"]

theorem numberOf?_eq_read? {r : List Char} (hcons : word.toList = c :: r) (hplus : c ≠ '+')
    (hwords : word ∉ numberWords) :
    numberOf? word = (Binary64.read? word).filter Binary64.isFinite := by
  have hself : String.ofList (c :: r) = word := by rw [← hcons, String.ofList_toList]
  simp only [numberWords, List.mem_cons, List.not_mem_nil, or_false, not_or] at hwords
  simp [numberOf?, hcons, hplus, hself, hwords]

/-- **A number of a document reads back.** -/
theorem numberOf?_print (x : Binary64) : numberOf? (layout.write x) = some x := by
  cases x with
  | nan => decide
  | infinite negative => cases negative <;> decide
  | finite n m s h =>
      have hread : Binary64.read? (layout.write (.finite n m s h)) = _ :=
        Binary64.read?_write rfl rfl rfl
      obtain ⟨c, r, hc, -, htext⟩ := exists_toList_print (x := .finite n m s h) rfl
      generalize layout.write (.finite n m s h) = word at hread htext
      have hplus : c ≠ '+' := forall_digit (p := (· ≠ '+')) (by decide) hc
      have hminus : c ≠ '-' := forall_digit (p := (· ≠ '-')) (by decide) hc
      have hpoint : c ≠ '.' := forall_digit (p := (· ≠ '.')) (by decide) hc
      -- All words begin with a point, or with one behind a minus.
      have hforms : ∀ w ∈ numberWords,
          w.toList.head? = some '.' ∨ w.toList.take 2 = ['-', '.'] := by
        decide
      have hwords : word ∉ numberWords := by
        intro hmem
        rcases htext with htext | htext <;>
          simpa [htext, hminus, hpoint] using hforms word hmem
      rcases htext with htext | htext
      · rw [numberOf?_eq_read? htext hplus hwords, hread]
        rfl
      · rw [numberOf?_eq_read? htext (by decide) hwords, hread]
        rfl

/-- Simple scalars are printed as words that need no quotes. -/
theorem isWord_print {v : Scalar} (h : v.isSimple = true) : isWord (print v) = true := by
  cases v with
  | number x => exact isWord_write x
  | truth b => cases b <;> decide
  | word s => exact isWord_of_isName h

/-! ## Pages -/

/-- The passage of a line. -/
def PageLine.passage : PageLine → Passage
  | .entry name word => .entry name.toList (' ' :: word.toList) []
  | line => .filler line.text.toList

theorem PageLine.lines_passage (l : PageLine) : l.passage.lines 0 = [l.text.toList] := by
  cases l <;> simp [PageLine.passage, Passage.lines, PageLine.text]

theorem lineValue?_of_isWord (h : isWord word = true) :
    lineValue? (' ' :: word.toList) = some (.plain word) := by
  rw [lineValue?_plain (isPlain_of_isWord h), String.ofList_toList]

theorem PageLine.fits_passage {l : PageLine} (h : l.isSimple = true) : l.passage.Fits 0 := by
  cases l with
  | blank n => exact .filler ⟨n, [], by simp [PageLine.text], rfl⟩
  | remark n s =>
      exact .filler ⟨n, '#' :: s.toList, by simp [PageLine.text], rfl⟩
  | entry name word =>
      obtain ⟨hname, hword⟩ : isName name = true ∧ isWord word = true := by
        rwa [PageLine.isSimple, Bool.and_eq_true] at h
      obtain ⟨c, cs, hcons, hc, -⟩ := exists_cons_of_isName hname
      have hmark : ¬ IsMark (name.toList ++ ':' :: ' ' :: word.toList) := by
        rw [hcons]
        apply not_isMark
        intro hmem
        simp only [List.mem_cons, List.not_mem_nil, or_false] at hmem
        rcases hmem with rfl | rfl <;> cases hc
      exact .entry (isPlain_of_isName hname) rfl (fun _ => hmark) (by simp)
        (lineValue?_of_isWord hword)

theorem PageLine.field?_passage {l : PageLine} (h : l.isSimple = true) :
    l.passage.field? = l.entry?.map fun e => (e.1, .plain e.2) := by
  cases l with
  | blank n => rfl
  | remark n s => rfl
  | entry name word =>
      rw [PageLine.isSimple, Bool.and_eq_true] at h
      have hvalue : entryValue? (' ' :: word.toList) [] = _ := lineValue?_of_isWord h.2
      simp [PageLine.passage, Passage.field?, PageLine.entry?, hvalue]

theorem PageLine.isAllowed_of_mem_text {l : PageLine} (h : l.isSimple = true)
    (hc : c ∈ l.text.toList) : isAllowed c = true ∧ isBreak c = false := by
  have hblank (n : Nat) (hc : c ∈ List.replicate n ' ') :
      isAllowed c = true ∧ isBreak c = false := by
    rw [List.eq_of_mem_replicate hc]
    decide
  cases l with
  | blank n =>
      rw [PageLine.text, String.toList_ofList] at hc
      exact hblank n hc
  | remark n s =>
      simp only [PageLine.text, String.toList_append, String.toList_ofList, List.mem_append] at hc
      rcases hc with (hc | hc) | hc
      · exact hblank n hc
      · obtain rfl : c = '#' := by simpa using hc
        decide
      · simpa using List.all_eq_true.mp h c hc
  | entry name word =>
      rw [PageLine.isSimple, Bool.and_eq_true] at h
      simp only [PageLine.text, String.toList_append, List.mem_append] at hc
      have hword {s : String} (hs : isWord s = true) (hc : c ∈ s.toList) :
          isAllowed c = true ∧ isBreak c = false := by
        rw [isWord, Bool.and_eq_true] at hs
        exact isAllowed_of_isWordChar (List.all_eq_true.mp hs.2 c hc)
      rcases hc with (hc | hc) | hc
      · exact hword (isWord_of_isName h.1) hc
      · have hc' : c = ':' ∨ c = ' ' := by simpa using hc
        rcases hc' with rfl | rfl <;> decide
      · exact hword h.2 hc

variable {ls : List PageLine}

/-- A page is a page of the reader, with an empty line behind the last line feed. -/
theorem isPage_page (h : ∀ l ∈ ls, l.isSimple = true) :
    IsPage (page ls) 0 (ls.map PageLine.passage ++ [.filler []]) := by
  have hlines : (ls.map PageLine.passage).flatMap (Passage.lines 0) =
      ls.map fun l => l.text.toList := by
    rw [List.flatMap_map, List.map_eq_flatMap]
    simp only [PageLine.lines_passage]
  apply isPage_of_toList_eq
  · intro p hp
    obtain ⟨l, hl, rfl⟩ := List.mem_map.mp hp
    exact PageLine.fits_passage (h l hl)
  · intro line hline c hc
    rw [hlines] at hline
    obtain ⟨l, hl, rfl⟩ := List.mem_map.mp hline
    exact PageLine.isAllowed_of_mem_text (h l hl) hc
  · rw [hlines, page, String.toList_join]
    simp [List.flatMap_map]

theorem fieldsOf_page (h : ∀ l ∈ ls, l.isSimple = true) :
    fieldsOf (ls.map PageLine.passage ++ [.filler []]) =
      (ls.filterMap PageLine.entry?).map fun e => (e.1, .plain e.2) := by
  induction ls with
  | nil => rfl
  | cons l ls ih =>
      have hrest := ih fun m hm => h m (List.mem_cons_of_mem _ hm)
      have hfield := PageLine.field?_passage (h l (by simp))
      rw [List.map_cons, List.cons_append, fieldsOf, List.filterMap_cons, hfield, ← fieldsOf, hrest]
      cases l <;> rfl

/-- Names without quotes are texts. -/
theorem namedEntries?_plain (entries : List (String × DocumentValue)) :
    namedEntries? (entries.map fun e => (.plain e.1, e.2)) = some entries := by
  unfold namedEntries?
  induction entries with
  | nil => rfl
  | cons e entries ih =>
      rw [List.map_cons, List.mapM_cons, ih]
      rfl

/-- A page of the reader has the entries that stand on it. -/
theorem IsPage.entries?_eq {text : String} {column : Nat} {ps : List Passage}
    (h : IsPage text column ps) : library.entries? text = some (fieldsOf ps) := by
  show (read? text).bind entriesOf? = _
  rcases h.read?_eq with hread | ⟨hfields, hread⟩
  · rw [hread, Option.bind_some, entriesOf?, namedEntries?_plain]
  · rw [hread, hfields]
    rfl

/-! ## What is promised -/

/-- What is written is a page. -/
theorem write_eq_page (fields : List (String × Scalar)) :
    write fields = page (fields.map fun f => .entry f.1 (print f.2)) := by
  rw [write, page, List.map_map]
  rfl

/-- Scalars are spelt as they are printed, and a text without quotes is a value. -/
def spelling : library.Spelling where
  print := print
  inline := .plain

/-- **The library of the writer and the reader keeps what is promised.** -/
theorem lawful_library : library.Lawful spelling where
  number?_print x _ := numberOf?_print x
  truth?_print b := by cases b <;> decide
  word?_print s _ := rfl
  entries?_page ls h := by
    rw [(isPage_page h).entries?_eq, fieldsOf_page h]
    rfl
  entries?_write fields text hsimple _ hwrite := by
    obtain rfl : write fields = text := Option.some.inj hwrite
    rw [write_eq_page, (isPage_page ?simple).entries?_eq, fieldsOf_page ?simple]
    case simple =>
      intro l hl
      obtain ⟨f, hf, rfl⟩ := List.mem_map.mp hl
      rw [PageLine.isSimple, Bool.and_eq_true]
      exact ⟨(hsimple f hf).1, isWord_print (hsimple f hf).2⟩
    simp [List.filterMap_map, PageLine.entry?, Function.comp_def]
    rfl

end Conductor.Document
