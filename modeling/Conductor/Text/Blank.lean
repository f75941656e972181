/-!
# Blank characters and trimming

A character is blank when it has the Unicode property `White_Space`. Trimming
removes the longest blank run at one end of a text or at both. Trimming twice
is trimming once, and a trimmed text neither starts nor ends with a blank.
-/

namespace Conductor.Text

/-- The characters with the Unicode property `White_Space`. -/
def isBlank (c : Char) : Bool :=
  let n := c.toNat
  (9 ≤ n && n ≤ 13) || n = 0x20 || n = 0x85 || n = 0xA0 || n = 0x1680 ||
  (0x2000 ≤ n && n ≤ 0x200A) || n = 0x2028 || n = 0x2029 || n = 0x202F ||
  n = 0x205F || n = 0x3000

/-- The characters without the blanks they begin with. -/
def dropLeft (cs : List Char) : List Char :=
  cs.dropWhile isBlank

/-- The characters without the blanks they end with. -/
def dropRight (cs : List Char) : List Char :=
  (cs.reverse.dropWhile isBlank).reverse

/-- The text without the blanks at its end. -/
def trimRight (s : String) : String :=
  String.ofList (dropRight s.toList)

/-- The text without the blanks at its two ends. -/
def trim (s : String) : String :=
  String.ofList (dropRight (dropLeft s.toList))

@[simp] theorem toList_trim (s : String) :
    (trim s).toList = dropRight (dropLeft s.toList) := by
  simp [trim]

@[simp] theorem toList_trimRight (s : String) :
    (trimRight s).toList = dropRight s.toList := by
  simp [trimRight]

@[simp] theorem dropLeft_nil : dropLeft [] = [] := rfl

@[simp] theorem dropRight_nil : dropRight [] = [] := rfl

/-- Nothing is lost in front: the text is a blank run followed by what stays. -/
theorem takeWhile_append_dropLeft (cs : List Char) :
    cs.takeWhile isBlank ++ dropLeft cs = cs := by
  simp [dropLeft]

/-- A text that does not begin with a blank is left alone. -/
theorem dropLeft_eq_self {cs : List Char} (h : ∀ c ∈ cs.head?, isBlank c = false) :
    dropLeft cs = cs := by
  cases cs with
  | nil => rfl
  | cons c r =>
      have hc : isBlank c = false := h c (by simp)
      simp [dropLeft, hc]

/-- A text that does not end with a blank is left alone. -/
theorem dropRight_eq_self {cs : List Char} (h : ∀ c ∈ cs.getLast?, isBlank c = false) :
    dropRight cs = cs := by
  have : dropLeft cs.reverse = cs.reverse :=
    dropLeft_eq_self (by simpa using h)
  simpa [dropRight, dropLeft] using congrArg List.reverse this

end Conductor.Text
