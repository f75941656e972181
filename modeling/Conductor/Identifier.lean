/-!
# Identities of actions

An action has an identity of 128 bits. It is written as 32 hexadecimal digits
with hyphens after the 8th, 12th, 16th and 20th, in lower case. It is read with or
without the hyphens in any case; with them it may also stand between braces or after
the name of its kind of resource.
-/

namespace Conductor

/-- The identity of an action. -/
structure ActionId where
  bits : BitVec 128
  deriving DecidableEq, Repr, Inhabited

namespace ActionId

/-- Value of a hexadecimal digit of either case. -/
def digit? (c : Char) : Option Nat :=
  if '0' ≤ c ∧ c ≤ '9' then some (c.toNat - '0'.toNat)
  else if 'a' ≤ c ∧ c ≤ 'f' then some (c.toNat - 'a'.toNat + 10)
  else if 'A' ≤ c ∧ c ≤ 'F' then some (c.toNat - 'A'.toNat + 10)
  else none

/-- The last `n` hexadecimal digits of a number, most significant first. -/
def hexDigits : Nat → Nat → List Char
  | 0, _ => []
  | n + 1, b => hexDigits n (b / 16) ++ [Nat.digitChar (b % 16)]

/-- The number that hexadecimal digits spell, continuing from `acc`. -/
def ofDigits? : Nat → List Char → Option Nat
  | acc, [] => some acc
  | acc, c :: r => (digit? c).bind fun d => ofDigits? (16 * acc + d) r

/-- The 32 digits without hyphens. -/
def digits (a : ActionId) : List Char :=
  hexDigits 32 a.bits.toNat

/-- The first eight digits, by which an identity is shown for short. -/
def short (a : ActionId) : String :=
  String.ofList (a.digits.take 8)

/-- Digits with the four hyphens. -/
def hyphenated (ds : List Char) : List Char :=
  ds.take 8 ++ '-' :: (ds.drop 8).take 4 ++ '-' :: (ds.drop 12).take 4 ++
    '-' :: (ds.drop 16).take 4 ++ '-' :: ds.drop 20

/-- The written form. -/
def text (a : ActionId) : String :=
  String.ofList (hyphenated a.digits)

/-- The identity that 32 digits spell. -/
def ofBare? (ds : List Char) : Option ActionId :=
  if ds.length = 32 then (ofDigits? 0 ds).map fun n => ⟨BitVec.ofNat 128 n⟩ else none

/-- The identity written with its four hyphens. -/
def ofHyphenated? (cs : List Char) : Option ActionId :=
  let ds := cs.filter (· ≠ '-')
  if cs = hyphenated ds then ofBare? ds else none

/-- What an identity may stand between, when it is written with hyphens. -/
def wrappings : List (List Char × List Char) :=
  [([], []), (['{'], ['}']), ("urn:uuid:".toList, [])]

def between? (opening closing cs : List Char) : Option (List Char) :=
  if opening.isPrefixOf cs && closing.isSuffixOf (cs.drop opening.length) then
    some ((cs.drop opening.length).take (cs.length - opening.length - closing.length))
  else none

/-- The identity that a text spells. -/
def read? (s : String) : Option ActionId :=
  (ofBare? s.toList).or <|
    wrappings.findSome? fun w => (between? w.1 w.2 s.toList).bind ofHyphenated?

/-! ## Reading what is written -/

@[simp] theorem length_hexDigits (n b : Nat) : (hexDigits n b).length = n := by
  induction n generalizing b with
  | zero => rfl
  | succ n ih => simp [hexDigits, ih]

theorem digit?_digitChar {d : Nat} (h : d < 16) : digit? (Nat.digitChar d) = some d := by
  have : ∀ d : Fin 16, digit? (Nat.digitChar d) = some d.val := by decide
  exact this ⟨d, h⟩

theorem digitChar_ne_hyphen {d : Nat} (h : d < 16) : Nat.digitChar d ≠ '-' := by
  have : ∀ d : Fin 16, Nat.digitChar d ≠ '-' := by decide
  exact this ⟨d, h⟩

theorem ne_hyphen_of_mem_hexDigits {n b : Nat} {c : Char} (h : c ∈ hexDigits n b) : c ≠ '-' := by
  induction n generalizing b with
  | zero => simp [hexDigits] at h
  | succ n ih =>
      rcases List.mem_append.1 h with h | h
      · exact ih h
      · rw [List.mem_singleton.1 h]
        exact digitChar_ne_hyphen (Nat.mod_lt _ (by decide))

theorem ofDigits?_append (acc : Nat) (cs ds : List Char) :
    ofDigits? acc (cs ++ ds) = (ofDigits? acc cs).bind fun n => ofDigits? n ds := by
  induction cs generalizing acc with
  | nil => rfl
  | cons c cs ih =>
      simp only [List.cons_append, ofDigits?]
      cases digit? c with
      | none => rfl
      | some d => exact ih _

/-- Digits spell the number whose last digits they are. -/
theorem ofDigits?_hexDigits (acc n b : Nat) :
    ofDigits? acc (hexDigits n b) = some (acc * Nat.pow 16 n + b % Nat.pow 16 n) := by
  induction n generalizing b with
  | zero => simp [hexDigits, ofDigits?, Nat.mod_one]
  | succ n ih =>
      rw [hexDigits, ofDigits?_append, ih]
      simp only [Option.bind_some, ofDigits?, digit?_digitChar (Nat.mod_lt b (by decide : 16 > 0))]
      congr 1
      have : b % Nat.pow 16 (n + 1) = 16 * (b / 16 % Nat.pow 16 n) + b % 16 := by
        rw [show Nat.pow 16 (n + 1) = 16 * Nat.pow 16 n from Nat.mul_comm _ _, Nat.mod_mul]
        omega
      rw [this, show Nat.pow 16 (n + 1) = Nat.pow 16 n * 16 from rfl]
      grind

theorem ofBare?_digits (a : ActionId) : ofBare? a.digits = some a := by
  have h : 0 * Nat.pow 16 32 + a.bits.toNat % Nat.pow 16 32 = a.bits.toNat := by
    rw [Nat.zero_mul, Nat.zero_add]
    exact Nat.mod_eq_of_lt a.bits.isLt
  rw [ofBare?, digits, if_pos (length_hexDigits _ _), ofDigits?_hexDigits, h, Option.map_some,
    BitVec.ofNat_toNat, BitVec.setWidth_eq]

theorem filter_hyphenated {ds : List Char} (h : ∀ c ∈ ds, c ≠ '-') :
    (hyphenated ds).filter (· ≠ '-') = ds := by
  have keep : ∀ r : List Char, (∀ c ∈ r, c ∈ ds) → r.filter (· ≠ '-') = r := by
    intro r hr
    exact List.filter_eq_self.2 fun c hc => by simpa using h c (hr c hc)
  have part : ∀ m n : Nat, ((ds.drop m).take n).filter (· ≠ '-') = (ds.drop m).take n := by
    intro m n
    exact keep _ fun c hc => List.mem_of_mem_drop (List.mem_of_mem_take hc)
  have hyphen (r : List Char) : ('-' :: r).filter (· ≠ '-') = r.filter (· ≠ '-') := by simp
  have first := part 0 8
  rw [List.drop_zero] at first
  simp only [hyphenated, List.filter_append, hyphen, part, first,
    keep (ds.drop 20) fun c hc => List.mem_of_mem_drop hc]
  have cut (m : Nat) : (ds.drop m).take 4 ++ ds.drop (m + 4) = ds.drop m := by
    rw [← List.drop_drop, List.take_append_drop]
  simp only [List.append_assoc, cut 16, cut 12, cut 8, List.take_append_drop]

theorem ofHyphenated?_hyphenated (a : ActionId) : ofHyphenated? (hyphenated a.digits) = some a := by
  have h : (hyphenated a.digits).filter (· ≠ '-') = a.digits :=
    filter_hyphenated fun c hc => ne_hyphen_of_mem_hexDigits hc
  simp only [ofHyphenated?, h, if_pos, ofBare?_digits]

theorem length_hyphenated {ds : List Char} (h : ds.length = 32) : (hyphenated ds).length = 36 := by
  simp [hyphenated, h]

/-- A written identity is read back. -/
@[simp] theorem read?_text (a : ActionId) : read? a.text = some a := by
  have h : (hyphenated a.digits).length = 36 := length_hyphenated (length_hexDigits _ _)
  have bare : ofBare? (hyphenated a.digits) = none := by simp [ofBare?, h]
  have whole : between? [] [] (hyphenated a.digits) = some (hyphenated a.digits) := by
    simp [between?]
  simp [read?, text, bare, wrappings, whole, ofHyphenated?_hyphenated]

end ActionId

end Conductor
