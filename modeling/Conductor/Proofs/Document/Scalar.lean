import Mathlib.Data.List.TakeWhile
import Conductor.Document.Reader

/-!
# Texts without quotes

A text that begins like one without quotes, holds no colon and no mark of a remark and does not end
with a blank (`IsPlain`) is read as it stands: as the name of an entry up to the colon behind it
(`takeName_append`), and as a value up to the end of its line (`lineValue?_plain`).
-/

namespace Conductor.Document

/-- A text that can stand without quotes as a name and as a value. -/
structure IsPlain (cs : List Char) : Prop where
  starts : startsPlain false cs = true
  colon : ':' ∉ cs
  hash : '#' ∉ cs
  ends : cs.getLast?.any isSpace = false

instance (cs : List Char) : Decidable (IsPlain cs) :=
  decidable_of_iff (startsPlain false cs = true ∧ ':' ∉ cs ∧ '#' ∉ cs ∧
      cs.getLast?.any isSpace = false)
    ⟨fun ⟨h₁, h₂, h₃, h₄⟩ => ⟨h₁, h₂, h₃, h₄⟩, fun ⟨h₁, h₂, h₃, h₄⟩ => ⟨h₁, h₂, h₃, h₄⟩⟩

variable {cs r : List Char}

/-! ## How such a text begins -/

/-- Whether a text may begin here does not depend on what follows it. -/
theorem startsPlain_append (h : startsPlain false cs = true) (r : List Char) :
    startsPlain false (cs ++ r) = true := by
  cases cs with
  | nil => cases h
  | cons c ds =>
      -- A hyphen, a question mark or a colon needs a character behind it.
      have hblank (hds : startsBlank ds = false) : startsBlank (ds ++ r) = false := by
        cases ds with
        | nil => cases hds
        | cons d ds => exact hds
      rw [List.cons_append]
      unfold startsPlain at h ⊢
      by_cases hhyphen : c = '-'
      · simp only [hhyphen, if_true, Bool.not_eq_true'] at h ⊢
        exact hblank h
      · by_cases hmark : (c = '?' || c = ':') = true
        · simp only [hhyphen, hmark, if_true, if_false, Bool.not_false, Bool.true_and,
            Bool.not_eq_true'] at h ⊢
          exact hblank h
        · simp only [hhyphen, hmark, if_false] at h ⊢
          exact h

/-- A text without quotes does not begin with a blank, a remark, a quote, a bracket or a brace. -/
theorem exists_cons_of_startsPlain (h : startsPlain false cs = true) :
    ∃ c r, cs = c :: r ∧ c ∉ [' ', '\t', '#', '\x7b', '[', '"', '\''] := by
  cases cs with
  | nil => cases h
  | cons c r =>
      refine ⟨c, r, rfl, ?_⟩
      intro hmem
      simp only [List.mem_cons, List.not_mem_nil, or_false] at hmem
      rcases hmem with rfl | rfl | rfl | rfl | rfl | rfl | rfl <;> cases h

/-- An item of a list is no text without quotes. -/
theorem isItem_eq_false (h : startsPlain false cs = true) : isItem cs = false := by
  unfold isItem
  split
  · rename_i r
    have hblank : (!startsBlank r) = true := h
    simpa using hblank
  · rfl

/-! ## How far such a text goes -/

theorem dropSpaces_eq_self (h : cs.getLast?.any isSpace = false) : dropSpaces cs = cs := by
  rw [dropSpaces]
  cases hcs : cs.reverse with
  | nil =>
      obtain rfl := List.reverse_eq_nil_iff.mp hcs
      rfl
  | cons c ds =>
      have hlast : cs.getLast? = some c := by
        rw [List.getLast?_eq_head?_reverse, hcs, List.head?_cons]
      have hc : isSpace c = false := by simpa [hlast] using h
      rw [List.dropWhile_cons_of_neg (by simp [hc]), ← hcs, List.reverse_reverse]

/-- Without colons and marks of remarks a text goes on up to where anything stops. -/
theorem spanPlain_append (hcolon : ':' ∉ cs) (hhash : '#' ∉ cs)
    (hr : ∀ before, spanPlain false before r = some ([], r)) (before : Char) :
    spanPlain false before (cs ++ r) = some (cs, r) := by
  induction cs generalizing before with
  | nil => exact hr before
  | cons c ds ih =>
      have hc : c ≠ ':' := fun h => hcolon (by simp [h])
      have hc' : c ≠ '#' := fun h => hhash (by simp [h])
      have hrest := ih (fun h => hcolon (List.mem_cons_of_mem _ h))
        (fun h => hhash (List.mem_cons_of_mem _ h)) c
      rw [List.cons_append, spanPlain]
      simp [hc, hc', hrest]

theorem takePlain_append (h : IsPlain cs) (hr : ∀ before, spanPlain false before r = some ([], r)) :
    takePlain false (cs ++ r) = some (.plain (String.ofList cs), r) := by
  rw [takePlain, if_pos (startsPlain_append h.starts r),
    spanPlain_append h.colon h.hash hr, Option.map_some, dropSpaces_eq_self h.ends]

/-- A colon with a blank behind it stops a text. -/
theorem spanPlain_colon (hr : startsBlank r = true) (before : Char) :
    spanPlain false before (':' :: r) = some ([], ':' :: r) := by
  simp [spanPlain, hr]

/-! ## Names and values -/

/-- The name of an entry goes up to the colon. -/
theorem takeName_append (h : IsPlain cs) (hr : startsBlank r = true) :
    takeName (cs ++ ':' :: r) = some (.plain (String.ofList cs), r) := by
  obtain ⟨c, ds, hcons, hc⟩ := exists_cons_of_startsPlain h.starts
  have hplain := takePlain_append h (r := ':' :: r) (spanPlain_colon hr)
  have hcolon : c ≠ ':' := fun heq => h.colon (by simp [hcons, heq])
  have hskip : skipSpaces (':' :: r) = ':' :: r := rfl
  subst hcons
  unfold takeName
  split
  · rename_i heq
    obtain rfl := (List.cons.inj heq).1
    simp at hc
  · rename_i heq
    obtain rfl := (List.cons.inj heq).1
    simp at hc
  · rw [List.cons_append] at hplain ⊢
    simp [hcolon, hplain, hskip, hr]

/-- Outside of brackets and braces a text without quotes is a value. -/
theorem takeValue_plain (h : startsPlain false cs = true) (n : Nat) :
    takeValue (n + 1) false cs = takePlain false cs := by
  obtain ⟨c, ds, rfl, hc⟩ := exists_cons_of_startsPlain h
  rw [takeValue] <;>
    · rintro r heq
      obtain rfl := (List.cons.inj heq).1
      simp at hc

/-- A text without quotes behind a blank is the value of its line. -/
theorem lineValue?_plain (h : IsPlain cs) :
    lineValue? (' ' :: cs) = some (.plain (String.ofList cs)) := by
  have hvalue := takeValue_plain h.starts (2 * (' ' :: cs).length + 1)
  have hplain := takePlain_append h (r := []) fun _ => rfl
  obtain ⟨c, ds, hcons, hc⟩ := exists_cons_of_startsPlain h.starts
  simp only [List.mem_cons, List.not_mem_nil, or_false, not_or] at hc
  have hskip : (' ' :: cs).dropWhile isSpace = cs := by
    rw [List.dropWhile_cons_of_pos rfl, hcons,
      List.dropWhile_cons_of_neg (by simp [isSpace, hc.1, hc.2.1])]
  have hdone : isDone (' ' :: cs) = false := by
    rw [isDone, hskip, hcons]
    simp [hc.2.2.1]
  rw [List.append_nil] at hplain
  rw [lineValue?, hdone, skipSpaces, hskip, hvalue, hplain]
  rfl

/-- An entry has the name before its colon, and the value that stands behind it. -/
theorem Entry.read?_append (h : IsPlain cs) (hr : startsBlank r = true)
    (below : List (List Char)) :
    Entry.read? ⟨cs ++ ':' :: r, below⟩ =
      (entryValue? r below).map fun v => (.plain (String.ofList cs), v) := by
  rw [Entry.read?, takeName_append h hr, Option.map_eq_bind]
  rfl

end Conductor.Document
