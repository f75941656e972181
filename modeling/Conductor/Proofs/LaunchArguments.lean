import Mathlib.Data.List.Basic
import Conductor.Argument

/-!
# Launch arguments as they are written

An argument is written `name:=value` or `name=value`. Both separators are looked for in the whole
text, the longer one first, and the text is cut at the first place where the separator stands. The
longer form gives the name and the value whatever the value is. The shorter form does so exactly if
the longer separator does not stand in the value; otherwise the cut is made there, and all that is
before it is taken for the name (`LaunchArguments.read_assignment_of_cut`).
-/

namespace Conductor

namespace Text

/-! ## The first place of a separator -/

/-- What comes before can be cut off if the separator begins with a character not in it. -/
theorem splitFirst_append {d : Char} {sep before : List Char} (hd : d ∉ before) (cs : List Char) :
    splitFirst (d :: sep) (before ++ cs) =
      (splitFirst (d :: sep) cs).map fun p => (before ++ p.1, p.2) := by
  induction before with
  | nil => simp
  | cons c before ih =>
      obtain ⟨hne, hd⟩ := not_or.mp (mt List.mem_cons.mpr hd)
      rw [List.cons_append, splitFirst, if_neg (by simp [hne]), ih hd, Option.map_map]
      rfl

theorem splitFirst_self_append (d : Char) (sep cs : List Char) :
    splitFirst (d :: sep) (d :: (sep ++ cs)) = some ([], cs) := by
  rw [splitFirst, if_pos (by simp)]
  simp

/-- A text is cut exactly if the separator stands in it. -/
theorem isSome_splitFirst (sep cs : List Char) : (splitFirst sep cs).isSome = occursIn sep cs := by
  induction cs with
  | nil =>
      rw [splitFirst, occursIn]
      cases sep <;> rfl
  | cons c cs ih =>
      rw [splitFirst, occursIn]
      by_cases h : sep.isPrefixOf (c :: cs) = true
      · rw [if_pos h, h]
        rfl
      · rw [if_neg h, Option.isSome_map, ih, Bool.eq_false_iff.mpr h, Bool.false_or]

/-! ## What trimming keeps -/

theorem mem_dropLeft {c : Char} {cs : List Char} (hc : isBlank c = false) (h : c ∈ cs) :
    c ∈ dropLeft cs := by
  induction cs with
  | nil => exact h
  | cons d cs ih =>
      by_cases hd : isBlank d = true
      · have hne : c ≠ d := by
          rintro rfl
          rw [hc] at hd
          cases hd
        rw [dropLeft, List.dropWhile_cons_of_pos hd]
        exact ih ((List.mem_cons.mp h).resolve_left hne)
      · rw [dropLeft, List.dropWhile_cons_of_neg hd]
        exact h

/-- A character that is not blank stays. -/
theorem mem_trim {c : Char} {s : String} (hc : isBlank c = false) (h : c ∈ s.toList) :
    c ∈ (trim s).toList := by
  rw [toList_trim, dropRight, List.mem_reverse]
  apply mem_dropLeft hc
  rw [List.mem_reverse]
  exact mem_dropLeft hc h

end Text

/-- A name that can be given to an argument in both forms: not empty, without the characters of the
separators, and without blanks at its ends. -/
structure IsArgumentName (name : String) : Prop where
  nonempty : name ≠ ""
  colon : ':' ∉ name.toList
  equals : '=' ∉ name.toList
  trimmed : Text.trim name = name

namespace LaunchArguments

variable {name value text : String}

/-- One argument gives one pair. -/
theorem read_singleton (h : split? text = some (name, value)) :
    read [text] = .ok [(name, value)] := by
  simp [read, readAfter, h, pass]

/-- What is before the cut, trimmed, is the name, and what is after it is the value. -/
theorem read_of_cut (cs ds : List Char)
    (h : (Text.splitFirst [':', '='] text.toList).or (Text.splitFirst ['='] text.toList) =
      some (cs, ds)) (hne : Text.trim (String.ofList cs) ≠ "") :
    read [text] = .ok [(Text.trim (String.ofList cs), String.ofList ds)] := by
  have hor : (Text.splitOnce ":=" text).or (Text.splitOnce "=" text) =
      some (String.ofList cs, String.ofList ds) := by
    show ((Text.splitFirst [':', '='] text.toList).map _).or
      ((Text.splitFirst ['='] text.toList).map _) = _
    rw [← Option.map_or, h]
    rfl
  apply read_singleton
  rw [split?, hor]
  simp [hne]

/-- The longer form is cut right behind the name. -/
theorem read_definition (h : IsArgumentName name) (value : String) :
    read [name ++ ":=" ++ value] = .ok [(name, value)] := by
  have hcut : Text.splitFirst [':', '='] (name ++ ":=" ++ value).toList =
      some (name.toList, value.toList) := by
    simp only [String.toList_append, List.append_assoc]
    rw [Text.splitFirst_append h.colon]
    show (Text.splitFirst [':', '='] (':' :: (['='] ++ value.toList))).map _ = _
    rw [Text.splitFirst_self_append]
    simp
  have hread := read_of_cut name.toList value.toList (by rw [hcut]; rfl)
    (by simpa [h.trimmed] using h.nonempty)
  simpa [h.trimmed] using hread

/-- In the shorter form the longer separator can only stand in the value. -/
theorem splitFirst_assignment (h : IsArgumentName name) (value : String) :
    Text.splitFirst [':', '='] (name ++ "=" ++ value).toList =
      (Text.splitFirst [':', '='] value.toList).map
        fun p => ((name ++ "=").toList ++ p.1, p.2) := by
  have hcolon : ':' ∉ (name ++ "=").toList := by
    rw [String.toList_append, List.mem_append]
    rintro (hname | hsep)
    · exact h.colon hname
    · exact absurd hsep (by decide)
  have htext : (name ++ "=" ++ value).toList = (name ++ "=").toList ++ value.toList :=
    String.toList_append
  rw [htext, Text.splitFirst_append hcolon]

theorem read_assignment_of_not_contains (h : IsArgumentName name)
    (hvalue : Text.containsText value ":=" = false) :
    read [name ++ "=" ++ value] = .ok [(name, value)] := by
  have hnone : Text.splitFirst [':', '='] value.toList = none := by
    rw [← Option.not_isSome_iff_eq_none, Text.isSome_splitFirst]
    exact Bool.eq_false_iff.mp hvalue
  have hcut : Text.splitFirst ['='] (name ++ "=" ++ value).toList =
      some (name.toList, value.toList) := by
    simp only [String.toList_append, List.append_assoc]
    rw [Text.splitFirst_append h.equals]
    show (Text.splitFirst ['='] ('=' :: ([] ++ value.toList))).map _ = _
    rw [Text.splitFirst_self_append]
    simp
  have hread := read_of_cut name.toList value.toList
    (by rw [splitFirst_assignment h, hnone, hcut]; rfl) (by simpa [h.trimmed] using h.nonempty)
  simpa [h.trimmed] using hread

/-- The cut leaves the shorter separator in what is taken for the name. -/
theorem equals_mem_trim (name before : String) :
    '=' ∈ (Text.trim (name ++ "=" ++ before)).toList := by
  apply Text.mem_trim (by decide)
  simp

theorem read_assignment_of_cut (h : IsArgumentName name) {before after : String}
    (hvalue : Text.splitOnce ":=" value = some (before, after)) :
    read [name ++ "=" ++ value] = .ok [(Text.trim (name ++ "=" ++ before), after)] := by
  obtain ⟨⟨cs, ds⟩, hcut, hpair⟩ := Option.map_eq_some_iff.mp hvalue
  obtain ⟨rfl, rfl⟩ := Prod.mk.inj hpair
  have hne : Text.trim (name ++ "=" ++ String.ofList cs) ≠ "" := by
    intro hempty
    have hmem := equals_mem_trim name (String.ofList cs)
    rw [hempty] at hmem
    cases hmem
  have hlist : String.ofList ((name ++ "=").toList ++ cs) = name ++ "=" ++ String.ofList cs := by
    rw [String.ofList_append, String.ofList_toList]
  have hread := read_of_cut ((name ++ "=").toList ++ cs) ds
    (by rw [splitFirst_assignment h]; exact congrArg (Option.or · _) (congrArg _ hcut))
    (by rwa [hlist])
  rwa [hlist] at hread

/-- **What a written argument gives.** The longer form gives the name and the value as they are
written, whatever the value is. The shorter form does so exactly if the longer separator does not
stand in the value; where it does, the value is cut there, and all that is before is the name. -/
theorem written_pair_read (h : IsArgumentName name) (value : String) :
    read [name ++ ":=" ++ value] = .ok [(name, value)] ∧
      (read [name ++ "=" ++ value] = .ok [(name, value)] ↔
        Text.containsText value ":=" = false) ∧
      ∀ before after, Text.splitOnce ":=" value = some (before, after) →
        read [name ++ "=" ++ value] = .ok [(Text.trim (name ++ "=" ++ before), after)] := by
  refine ⟨read_definition h value, ⟨fun hread => ?_, read_assignment_of_not_contains h⟩,
    fun before after => read_assignment_of_cut h⟩
  by_contra hcontains
  have hsome : (Text.splitOnce ":=" value).isSome = true := by
    rw [Text.splitOnce, Option.isSome_map, Text.isSome_splitFirst]
    exact Bool.of_not_eq_false hcontains
  obtain ⟨⟨before, after⟩, hcut⟩ := Option.isSome_iff_exists.mp hsome
  rw [read_assignment_of_cut h hcut] at hread
  injection hread with hpairs
  injection hpairs with hpair
  have hmem := equals_mem_trim name before
  rw [(Prod.mk.inj hpair).1] at hmem
  exact h.equals hmem

theorem isArgumentName_remap : IsArgumentName "remap" := by
  constructor <;> decide

theorem remap_read : read ["remap:=chatter:=/talk"] = .ok [("remap", "chatter:=/talk")] ∧
    read ["remap=http://host/?a=b"] = .ok [("remap", "http://host/?a=b")] ∧
      read ["remap=chatter:=/talk"] = .ok [("remap=chatter", "/talk")] :=
  ⟨(written_pair_read isArgumentName_remap "chatter:=/talk").1,
    (written_pair_read isArgumentName_remap "http://host/?a=b").2.1.mpr (by decide),
    (written_pair_read isArgumentName_remap "chatter:=/talk").2.2 "chatter" "/talk" (by decide)⟩

/-- The shorter form does not give every value back. -/
theorem assignment_not_read_back : ¬ ∀ name value, IsArgumentName name →
    read [name ++ ":=" ++ value] = .ok [(name, value)] ∧
      read [name ++ "=" ++ value] = .ok [(name, value)] := by
  intro h
  obtain ⟨-, hread⟩ := h "remap" "chatter:=/talk" isArgumentName_remap
  exact absurd hread (by decide)

end LaunchArguments

end Conductor
