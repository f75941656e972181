import Mathlib.Tactic.IntervalCases
import Conductor.Binary64.Reader
import Conductor.Proofs.Binary64.Shortest

/-!
# Written numbers are read back

A positive number is written positionally or with a power of ten. Either way the text spells the
digits it is written from (`readUnsigned?_writePositive`), so a finite number is read back from its
text (`exists_write_eq`). The layouts meant here show a point in a whole number and no sign before a
power of ten that is not negative.
-/

namespace Conductor

/-! ## Digits -/

/-- What holds of the ten digits holds of every digit. -/
theorem forall_digit {p : Char → Prop} (h : ∀ k : Fin 10, p (Nat.digitChar k)) {c : Char}
    (hc : c.isDigit = true) : p c := by
  obtain ⟨hlow, hhigh⟩ := Char.isDigit_iff_toNat.mp hc
  change 48 ≤ c.toNat at hlow
  change c.toNat ≤ 57 at hhigh
  have hdigit : c = Nat.digitChar (c.toNat - 48) := by
    rw [← Char.ofNat_toNat c]
    generalize c.toNat = n at hlow hhigh
    interval_cases n <;> decide
  rw [hdigit]
  exact h ⟨c.toNat - 48, by omega⟩

theorem digitsValue_eq (acc : Nat) (ds : List Char) :
    digitsValue acc ds = Nat.ofDigitChars 10 ds acc := rfl

theorem digitsValue_append (acc : Nat) (ds es : List Char) :
    digitsValue (digitsValue acc ds) es = digitsValue acc (ds ++ es) := by
  simp only [digitsValue_eq, Nat.ofDigitChars_append]

theorem digitsValue_zeros (acc n : Nat) :
    digitsValue acc (List.replicate n '0') = acc * 10 ^ n := by
  rw [digitsValue_eq, Nat.ofDigitChars_replicate_zero, Nat.mul_comm]

/-- The decimal digits of a number. -/
theorem toList_toString (n : Nat) : (toString n).toList = Nat.toDigits 10 n := by
  simp

theorem digitsValue_toString (n : Nat) : digitsValue 0 (toString n).toList = n := by
  rw [toList_toString, digitsValue_eq, Nat.ofDigitChars_ten_toDigits]

theorem isDigit_of_mem_toString {n : Nat} {c : Char} (h : c ∈ (toString n).toList) :
    c.isDigit = true := by
  rw [toList_toString] at h
  exact Nat.isDigit_of_mem_toDigits (by decide) (by decide) h

theorem toString_ne_nil (n : Nat) : (toString n).toList ≠ [] := by
  rw [toList_toString]
  exact Nat.toDigits_ne_nil

/-- Characters that are all digits. -/
def AreDigits (cs : List Char) : Prop :=
  ∀ c ∈ cs, c.isDigit = true

/-- Nothing that begins like this goes on a run of digits. -/
def EndsDigits (cs : List Char) : Prop :=
  ∀ c ∈ cs.head?, c.isDigit = false

theorem takeDigits_append {ds r : List Char} (hds : AreDigits ds) (hr : EndsDigits r) :
    takeDigits (ds ++ r) = (ds, r) := by
  rw [takeDigits, List.takeWhile_append_of_pos hds, List.dropWhile_append_of_pos hds]
  cases r with
  | nil => simp
  | cons c r =>
      have hc : c.isDigit = false := hr c rfl
      simp [hc]

theorem takeSign_of_isDigit {c : Char} (hc : c.isDigit = true) (r : List Char) :
    takeSign (c :: r) = (false, c :: r) := by
  have hminus : c ≠ '-' := forall_digit (p := (· ≠ '-')) (by decide) hc
  have hplus : c ≠ '+' := forall_digit (p := (· ≠ '+')) (by decide) hc
  unfold takeSign
  split
  · rename_i h
    exact absurd (List.cons.inj h).1 hminus
  · rename_i h
    exact absurd (List.cons.inj h).1 hplus
  · rfl

namespace Binary64

variable {negative : Bool} {ds ps r : List Char}

theorem readUnsigned?_point (hds : AreDigits ds) (hps : AreDigits ps) (hne : ds ≠ [])
    (hr : EndsDigits r) :
    readUnsigned? negative (ds ++ '.' :: (ps ++ r)) =
      (readExponent? r).map fun e =>
        ofDecimal negative (digitsValue 0 (ds ++ ps)) (e - ps.length) := by
  have hpoint : EndsDigits ('.' :: (ps ++ r)) := by
    intro c hc
    cases hc
    decide
  have hwhole : ds.isEmpty = false := by simpa using hne
  simp only [readUnsigned?, takeDigits_append hds hpoint, takeDigits_append hps hr, hwhole,
    digitsValue_append, Bool.false_and, Bool.false_eq_true, if_false]

theorem readUnsigned?_whole (hds : AreDigits ds) (hne : ds ≠ []) (hr : EndsDigits r)
    (hpoint : '.' ∉ r.head?) :
    readUnsigned? negative (ds ++ r) =
      (readExponent? r).map fun e => ofDecimal negative (digitsValue 0 ds) e := by
  have hwhole : ds.isEmpty = false := by simpa using hne
  unfold readUnsigned?
  simp only [takeDigits_append hds hr]
  split
  · simp at hpoint
  · simp [hwhole, digitsValue]

/-! ## Powers of ten -/

/-- A power of ten as it is written behind the digits. -/
def exponentText (order : Int) : List Char :=
  'e' :: ((if order < 0 then ['-'] else []) ++ (toString order.natAbs).toList)

theorem readExponent?_exponentText (order : Int) :
    readExponent? (exponentText order) = some order := by
  have hdigits : AreDigits (toString order.natAbs).toList := fun _ => isDigit_of_mem_toString
  have htake := takeDigits_append hdigits (r := []) (by simp [EndsDigits])
  rw [List.append_nil] at htake
  have hvalue := digitsValue_toString order.natAbs
  rw [exponentText, readExponent?]
  obtain ⟨c, r, hcons⟩ := List.exists_cons_of_ne_nil (toString_ne_nil order.natAbs)
  rw [hcons] at hdigits htake hvalue ⊢
  have hsign := takeSign_of_isDigit (hdigits c (by simp)) r
  by_cases hneg : order < 0
  · have horder : -(order.natAbs : Int) = order := by omega
    simpa [hneg, takeSign, htake, hvalue] using horder
  · have horder : (order.natAbs : Int) = order := by omega
    simpa [hneg, hsign, htake, hvalue] using horder

/-! ## Points -/

/-- Zeros in front, so that a digit stands before the point. -/
def paddedDigits (digits : String) (places : Nat) : List Char :=
  List.replicate (places + 1 - digits.toList.length) '0' ++ digits.toList

/-- A point among digits stands behind at least one of them, and behind it are so many places. The
digits spell the same number. -/
theorem exists_withPoint_eq {digits : String} (hdigits : AreDigits digits.toList) (places : Nat) :
    ∃ ds ps, (DecimalLayout.withPoint digits places).toList = ds ++ '.' :: ps ∧
      AreDigits ds ∧ AreDigits ps ∧ ds ≠ [] ∧ ps.length = places ∧
      digitsValue 0 (ds ++ ps) = digitsValue 0 digits.toList := by
  have hpadded : AreDigits (paddedDigits digits places) := by
    intro c hc
    rcases List.mem_append.mp hc with hc | hc
    · rw [List.eq_of_mem_replicate hc]
      decide
    · exact hdigits c hc
  have hlength : places < (paddedDigits digits places).length := by
    rw [paddedDigits, List.length_append, List.length_replicate]
    omega
  have hvalue : digitsValue 0 (paddedDigits digits places) = digitsValue 0 digits.toList := by
    rw [paddedDigits, ← digitsValue_append, digitsValue_zeros, Nat.zero_mul]
  have htext : (DecimalLayout.withPoint digits places).toList =
      (paddedDigits digits places).take ((paddedDigits digits places).length - places) ++
        '.' :: (paddedDigits digits places).drop ((paddedDigits digits places).length - places) :=
    String.toList_ofList
  generalize paddedDigits digits places = zs at hpadded hlength hvalue htext
  refine ⟨_, _, htext, fun c hc => hpadded c (List.mem_of_mem_take hc),
    fun c hc => hpadded c (List.mem_of_mem_drop hc), ?_, ?_, ?_⟩
  · intro hnil
    have := congrArg List.length hnil
    rw [List.length_take, List.length_nil] at this
    omega
  · rw [List.length_drop, Nat.sub_sub_self hlength.le]
  · rw [List.take_append_drop, hvalue]

theorem readUnsigned?_withPoint {digits : String} (hdigits : AreDigits digits.toList) (places : Nat)
    (hr : EndsDigits r) :
    readUnsigned? negative ((DecimalLayout.withPoint digits places).toList ++ r) =
      (readExponent? r).map fun e =>
        ofDecimal negative (digitsValue 0 digits.toList) (e - places) := by
  obtain ⟨ds, ps, htext, hds, hps, hne, hlength, hvalue⟩ := exists_withPoint_eq hdigits places
  rw [htext, List.append_assoc, List.cons_append, readUnsigned?_point hds hps hne hr, hvalue,
    hlength]

/-! ## Positive numbers -/

variable {layout : DecimalLayout}

theorem toList_exponentText (order : Int) :
    ("e" ++ (if order < 0 then "-" else "") ++ toString order.natAbs).toList =
      exponentText order := by
  rw [exponentText]
  generalize toString order.natAbs = digits
  split <;> simp

/-- The three forms of a positive number: a whole number, digits with a point among them, or digits
with a power of ten, where a single digit stands without a point. -/
theorem writePositive_cases (hsuffix : layout.wholeSuffix = ".0") (hsign : layout.exponentSign = "")
    (d : DecimalDigits) :
    (0 ≤ d.exponent ∧ (layout.writePositive d).toList =
        (toString d.digits).toList ++ List.replicate d.exponent.toNat '0' ++ ['.', '0']) ∨
      (d.exponent < 0 ∧ (layout.writePositive d).toList =
        (DecimalLayout.withPoint (toString d.digits) (-d.exponent).toNat).toList) ∨
      (layout.writePositive d).toList =
        (if (toString d.digits).length = 1 then toString d.digits
          else DecimalLayout.withPoint (toString d.digits)
            ((toString d.digits).length - 1)).toList ++
          exponentText (d.exponent + (toString d.digits).length - 1) := by
  unfold DecimalLayout.writePositive
  generalize toString d.digits = digits
  dsimp only
  split
  · split
    · rename_i hwhole
      exact .inl ⟨hwhole, by simp [hsuffix]⟩
    · rename_i hplaces
      exact .inr (.inl ⟨Int.not_le.mp hplaces, rfl⟩)
  · refine .inr (.inr ?_)
    rw [hsign, String.append_assoc, String.append_assoc, String.toList_append,
      ← String.append_assoc, toList_exponentText]

theorem endsDigits_exponentText (order : Int) : EndsDigits (exponentText order) := by
  intro c hc
  cases hc
  decide

/-- A whole number: the zeros behind its digits and the one behind the point are taken for digits
too. -/
theorem readUnsigned?_zeros (hds : AreDigits ds) (hne : ds ≠ []) (k : Nat) :
    readUnsigned? negative (ds ++ List.replicate k '0' ++ ['.', '0']) =
      some (ofDecimal negative (digitsValue 0 ds) k) := by
  have hwhole : AreDigits (ds ++ List.replicate k '0') := by
    intro c hc
    rcases List.mem_append.mp hc with hc | hc
    · exact hds c hc
    · rw [List.eq_of_mem_replicate hc]
      decide
  have hread : readUnsigned? negative (ds ++ List.replicate k '0' ++ '.' :: (['0'] ++ [])) = _ :=
    readUnsigned?_point hwhole (by simp [AreDigits]) (by simp [hne]) (by simp [EndsDigits])
  have hzeros : digitsValue 0 (ds ++ List.replicate k '0' ++ ['0']) =
      digitsValue 0 ds * 10 ^ (k + 1) := by
    rw [List.append_assoc, ← List.replicate_succ', ← digitsValue_append, digitsValue_zeros]
  have hexponent : -1 + ((k + 1 : Nat) : Int) = k := by omega
  refine hread.trans ?_
  rw [hzeros]
  show some (ofDecimal negative (digitsValue 0 ds * 10 ^ (k + 1)) (-1)) = _
  rw [ofDecimal_mul_pow, hexponent]

/-- Digits with a power of ten. -/
theorem readUnsigned?_exponentText (hds : AreDigits ds) (hne : ds ≠ []) (order : Int) :
    readUnsigned? negative (ds ++ exponentText order) =
      some (ofDecimal negative (digitsValue 0 ds) order) := by
  have hpoint : '.' ∉ (exponentText order).head? := by simp [exponentText]
  rw [readUnsigned?_whole hds hne (endsDigits_exponentText order) hpoint,
    readExponent?_exponentText]
  rfl

/-- A positive number is read back as what its digits stand for. -/
theorem readUnsigned?_writePositive (hsuffix : layout.wholeSuffix = ".0")
    (hsign : layout.exponentSign = "") (d : DecimalDigits) :
    readUnsigned? negative (layout.writePositive d).toList =
      some (ofDecimal negative d.digits d.exponent) := by
  have hdigits : AreDigits (toString d.digits).toList := fun _ => isDigit_of_mem_toString
  have hne := toString_ne_nil d.digits
  have hvalue := digitsValue_toString d.digits
  have hlength : 0 < (toString d.digits).length := by
    rw [← String.length_toList]
    exact List.length_pos_of_ne_nil hne
  have hforms := writePositive_cases hsuffix hsign d
  generalize toString d.digits = digits at hdigits hne hvalue hlength hforms
  rcases hforms with ⟨hwhole, htext⟩ | ⟨hplaces, htext⟩ | htext
  · have hexponent : (d.exponent.toNat : Int) = d.exponent := by omega
    rw [htext, readUnsigned?_zeros hdigits hne, hvalue, hexponent]
  · have hread : readUnsigned? negative (_ ++ []) = _ :=
      readUnsigned?_withPoint hdigits (-d.exponent).toNat (by simp [EndsDigits])
    have hexponent : 0 - ((-d.exponent).toNat : Int) = d.exponent := by omega
    rw [List.append_nil, hvalue] at hread
    rw [htext, hread]
    show some (ofDecimal negative d.digits (0 - ((-d.exponent).toNat : Int))) = _
    rw [hexponent]
  · rw [htext]
    split
    · have hexponent : d.exponent + (digits.length : Int) - 1 = d.exponent := by omega
      rw [readUnsigned?_exponentText hdigits hne, hvalue, hexponent]
    · have hexponent : d.exponent + (digits.length : Int) - 1 - (digits.length - 1 : Nat) =
          d.exponent := by omega
      rw [readUnsigned?_withPoint hdigits _ (endsDigits_exponentText _),
        readExponent?_exponentText, hvalue, Option.map_some, hexponent]

/-! ## All numbers -/

/-- Characters of numbers: digits, the point, the mark of a power of ten and the minus. -/
def IsNumeralChar (c : Char) : Prop :=
  c.isDigit = true ∨ c ∈ ['.', 'e', '-']

theorem isNumeralChar_of_mem_pointZero {c : Char} (h : c ∈ ['.', '0']) : IsNumeralChar c := by
  rcases List.mem_cons.mp h with rfl | h
  · exact .inr (by simp)
  · obtain rfl := List.mem_singleton.mp h
    exact .inl (by decide)

/-- A digit, and behind it characters of numbers. -/
def IsNumeral (cs : List Char) : Prop :=
  ∃ c r, cs = c :: r ∧ c.isDigit = true ∧ ∀ d ∈ r, IsNumeralChar d

theorem isNumeral_append (hds : AreDigits ds) (hne : ds ≠ []) (hr : ∀ d ∈ r, IsNumeralChar d) :
    IsNumeral (ds ++ r) := by
  obtain ⟨c, ds, rfl⟩ := List.exists_cons_of_ne_nil hne
  refine ⟨c, ds ++ r, rfl, hds c (by simp), ?_⟩
  intro d hd
  rcases List.mem_append.mp hd with hd | hd
  · exact .inl (hds d (List.mem_cons_of_mem _ hd))
  · exact hr d hd

theorem isNumeral_withPoint {digits : String} (hdigits : AreDigits digits.toList) (places : Nat)
    (hr : ∀ d ∈ r, IsNumeralChar d) :
    IsNumeral ((DecimalLayout.withPoint digits places).toList ++ r) := by
  obtain ⟨ds, ps, htext, hds, hps, hne, -, -⟩ := exists_withPoint_eq hdigits places
  rw [htext, List.append_assoc]
  apply isNumeral_append hds hne
  intro d hd
  rcases List.mem_cons.mp hd with rfl | hd
  · exact .inr (by simp)
  · rcases List.mem_append.mp hd with hd | hd
    · exact .inl (hps d hd)
    · exact hr d hd

theorem isNumeralChar_of_mem_exponentText {order : Int} {d : Char}
    (h : d ∈ exponentText order) : IsNumeralChar d := by
  rcases List.mem_cons.mp h with rfl | h
  · exact .inr (by simp)
  · rcases List.mem_append.mp h with h | h
    · split at h
      · obtain rfl := List.mem_singleton.mp h
        exact .inr (by simp)
      · cases h
    · exact .inl (isDigit_of_mem_toString h)

theorem isNumeral_writePositive (hsuffix : layout.wholeSuffix = ".0")
    (hsign : layout.exponentSign = "") (d : DecimalDigits) :
    IsNumeral (layout.writePositive d).toList := by
  have hdigits : AreDigits (toString d.digits).toList := fun _ => isDigit_of_mem_toString
  have hne := toString_ne_nil d.digits
  have hforms := writePositive_cases hsuffix hsign d
  generalize toString d.digits = digits at hdigits hne hforms
  rcases hforms with ⟨-, htext⟩ | ⟨-, htext⟩ | htext
  · rw [htext, List.append_assoc]
    apply isNumeral_append hdigits hne
    intro c hc
    rcases List.mem_append.mp hc with hc | hc
    · rw [List.eq_of_mem_replicate hc]
      exact .inl (by decide)
    · exact isNumeralChar_of_mem_pointZero hc
  · rw [htext]
    simpa using isNumeral_withPoint hdigits _ (r := []) (by simp)
  · rw [htext]
    split
    · exact isNumeral_append hdigits hne fun _ => isNumeralChar_of_mem_exponentText
    · exact isNumeral_withPoint hdigits _ fun _ => isNumeralChar_of_mem_exponentText

/-- **A finite number is read back from its text.** A minus may stand in front; the rest begins with
a digit. -/
theorem exists_write_eq (hsuffix : layout.wholeSuffix = ".0") (hsign : layout.exponentSign = "")
    {x : Binary64} (hfinite : x.isFinite = true) :
    ∃ cs, (layout.write x).toList = (if x.isNegative then ['-'] else []) ++ cs ∧ IsNumeral cs ∧
      readUnsigned? x.isNegative cs = some x := by
  cases x with
  | nan => cases hfinite
  | infinite n => cases hfinite
  | finite n m s h =>
      have hminus : (if n then "-" else "").toList = if n then ['-'] else [] := by
        cases n <;> rfl
      by_cases hzero : m = 0
      · subst hzero
        have hs : s = 0 := h.2.2.resolve_left (by decide)
        subst hs
        refine ⟨['0', '.', '0'], ?_, ⟨'0', ['.', '0'], rfl, by decide,
          fun _ => isNumeralChar_of_mem_pointZero⟩, rfl⟩
        have hwrite : layout.write (finite n 0 0 h) =
            (if n then "-" else "") ++ "0" ++ layout.wholeSuffix := rfl
        rw [hwrite, hsuffix, String.append_assoc, String.toList_append, hminus]
        rfl
      · have hread : readUnsigned? n _ = _ :=
          readUnsigned?_writePositive hsuffix hsign (finite n m s h).shortest
        have hwrite : layout.write (finite n m s h) =
            (if n then "-" else "") ++ layout.writePositive (finite n m s h).shortest :=
          if_neg hzero
        refine ⟨_, ?_, isNumeral_writePositive hsuffix hsign _, hread.trans ?_⟩
        · rw [hwrite, String.toList_append, hminus]
          rfl
        · exact congrArg some (ofDecimal_shortest hfinite)

/-- Behind its sign a numeral is none of the words, and is read as the number that it spells. -/
theorem read?_of_isNumeral {sign : List Char} {cs : List Char} (hcs : IsNumeral cs)
    (hsign : takeSign (sign ++ cs) = (negative, cs)) :
    read? (String.ofList (sign ++ cs)) = readUnsigned? negative cs := by
  obtain ⟨c, r, rfl, hc, -⟩ := hcs
  have hlower : c.toLower ≠ 'i' ∧ c.toLower ≠ 'n' :=
    forall_digit (p := fun c => c.toLower ≠ 'i' ∧ c.toLower ≠ 'n') (by decide) hc
  have hword (w : String) (hw : w.toList.head? = some 'i' ∨ w.toList.head? = some 'n') :
      String.ofList ((c :: r).map Char.toLower) ≠ w := by
    rintro rfl
    simp [hlower] at hw
  have hinf := hword "inf" (.inl (by decide))
  have hinfinity := hword "infinity" (.inl (by decide))
  have hnan := hword "nan" (.inr (by decide))
  simp only [read?, String.toList_ofList, hsign, hinf, hinfinity, hnan, or_self, if_false]

theorem read?_write (hsuffix : layout.wholeSuffix = ".0") (hsign : layout.exponentSign = "")
    {x : Binary64} (hfinite : x.isFinite = true) : read? (layout.write x) = some x := by
  obtain ⟨cs, htext, hcs, hread⟩ := exists_write_eq hsuffix hsign hfinite
  rw [← String.ofList_toList (s := layout.write x), htext, read?_of_isNumeral hcs ?_, hread]
  obtain ⟨c, r, rfl, hc, -⟩ := hcs
  cases x.isNegative
  · exact takeSign_of_isDigit hc r
  · rfl

end Binary64

end Conductor
