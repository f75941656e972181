/-!
# Searching and splitting text

A text is split at the first place where a separator occurs; the separator
itself is dropped. A text without the separator is not split.
-/

namespace Conductor.Text

/-- What stands before and after the first occurrence of `sep`. -/
def splitFirst (sep : List Char) : List Char → Option (List Char × List Char)
  | [] => if sep.isEmpty then some ([], []) else none
  | c :: r =>
      if sep.isPrefixOf (c :: r) then some ([], (c :: r).drop sep.length)
      else (splitFirst sep r).map fun p => (c :: p.1, p.2)

/-- `splitFirst` on whole texts. -/
def splitOnce (sep s : String) : Option (String × String) :=
  (splitFirst sep.toList s.toList).map fun p => (String.ofList p.1, String.ofList p.2)

/-- Whether `needle` stands somewhere in the characters. -/
def occursIn (needle : List Char) : List Char → Bool
  | [] => needle.isEmpty
  | c :: r => needle.isPrefixOf (c :: r) || occursIn needle r

/-- Whether the text `needle` stands somewhere in the text `s`. -/
def containsText (s needle : String) : Bool :=
  occursIn needle.toList s.toList

/-- Put the parts of a split back together with the separator between them. -/
theorem append_of_splitFirst {sep cs a b : List Char}
    (h : splitFirst sep cs = some (a, b)) : cs = a ++ sep ++ b := by
  induction cs generalizing a b with
  | nil =>
      rw [splitFirst] at h
      split at h
      · simp_all
      · simp at h
  | cons c r ih =>
      rw [splitFirst] at h
      split at h
      · rename_i hp
        obtain ⟨t, ht⟩ := List.isPrefixOf_iff_prefix.1 hp
        simp only [Option.some.injEq, Prod.mk.injEq] at h
        obtain ⟨rfl, rfl⟩ := h
        simp [← ht]
      · obtain ⟨p, hp, hq⟩ := Option.map_eq_some_iff.1 h
        simp only [Prod.mk.injEq] at hq
        obtain ⟨rfl, rfl⟩ := hq
        simp [ih hp]

/-- The pieces between the occurrences of one character; always at least one. -/
def splitOnChar (sep : Char) : List Char → List (List Char)
  | [] => [[]]
  | c :: r =>
      if c = sep then [] :: splitOnChar sep r
      else
        match splitOnChar sep r with
        | [] => [[c]]
        | p :: ps => (c :: p) :: ps

/-- The lines of a text. A line ends at a line feed, a carriage return just
before it belongs to the end of the line, and a last line without an end counts
unless it is empty. -/
def lines (s : String) : List String :=
  let pieces := splitOnChar '\n' s.toList
  let ended := pieces.dropLast.map fun l =>
    if l.getLast? = some '\r' then l.dropLast else l
  let rest := (pieces.getLast?.getD []) 
  (if rest.isEmpty then ended else ended ++ [rest]).map String.ofList

/-- Texts joined with a separator between each two. -/
def joinWith (sep : String) : List String → String
  | [] => ""
  | [s] => s
  | s :: t :: r => s ++ sep ++ joinWith sep (t :: r)

end Conductor.Text
