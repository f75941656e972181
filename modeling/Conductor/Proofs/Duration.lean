import Mathlib.Algebra.Order.Field.Rat
import Mathlib.Tactic.FieldSimp
import Mathlib.Tactic.Linarith
import Mathlib.Tactic.Positivity
import Conductor.Duration

/-!
# Durations and exact numbers of seconds

The number that a `Binary64` stands for is a rational number, `Binary64.toRat`. A number of
seconds becomes a duration that lies within half a nanosecond of it (`ofSeconds?_near`), and it
becomes none exactly if it is `2 ^ 64` or more (`ofSeconds?_eq_none_iff`).
-/

namespace Conductor

/-! ## Rounding -/

/-- What is rounded moves by half a unit at most. -/
theorem roundHalfEven_near (n : Nat) {d : Nat} (hd : 0 < d) :
    2 * (roundHalfEven n d * d) ≤ 2 * n + d ∧ 2 * n ≤ 2 * (roundHalfEven n d * d) + d := by
  have hdiv : d * (n / d) + n % d = n := Nat.div_add_mod n d
  have hrest : n % d < d := Nat.mod_lt n hd
  have hsucc : (n / d + 1) * d = d * (n / d) + d := by rw [Nat.succ_mul, Nat.mul_comm]
  have hsame : n / d * d = d * (n / d) := Nat.mul_comm _ _
  unfold roundHalfEven
  dsimp only
  split
  · omega
  · split
    · split <;> omega
    · omega

/-- As a rational number, the rounded quotient is within one half of the quotient. -/
theorem abs_roundHalfEven_sub (n : Nat) {d : Nat} (hd : 0 < d) :
    |(roundHalfEven n d : ℚ) - n / d| ≤ 1 / 2 := by
  obtain ⟨hupper, hlower⟩ := roundHalfEven_near n hd
  have hd' : (0 : ℚ) < d := by exact_mod_cast hd
  have hupper' : 2 * ((roundHalfEven n d : ℚ) * d) ≤ 2 * n + d := by exact_mod_cast hupper
  have hlower' : 2 * (n : ℚ) ≤ 2 * (roundHalfEven n d * d) + d := by exact_mod_cast hlower
  have hquot : (n : ℚ) / d * d = n := div_mul_cancel₀ _ hd'.ne'
  rw [abs_le]
  constructor <;> nlinarith

namespace Binary64

/-- The number that is meant, as a rational number; zero where there is none. -/
def toRat (x : Binary64) : ℚ :=
  (if x.isNegative then -1 else 1) * x.scaled / unit

variable {x : Binary64}

theorem unit_pos : 0 < unit := by decide +kernel

theorem toRat_eq (hsign : x.isBelowZero = false) : x.toRat = x.scaled / unit := by
  have hplain : x.isNegative = false ∨ x.scaled = 0 := by
    cases x with
    | nan => exact .inl rfl
    | infinite negative => exact .inr rfl
    | finite negative m s h =>
        simp only [isBelowZero, Bool.and_eq_false_iff, decide_eq_false_iff_not, not_not] at hsign
        rcases hsign with rfl | rfl
        · exact .inl rfl
        · exact .inr (Nat.zero_mul _)
  unfold toRat
  rcases hplain with h | h
  · rw [h, if_neg Bool.false_ne_true, one_mul]
  · rw [h, Nat.cast_zero, mul_zero]

theorem isBelowZero_iff (hfinite : x.isFinite = true) : x.isBelowZero = true ↔ x.toRat < 0 := by
  have hunit : (0 : ℚ) < unit := by exact_mod_cast unit_pos
  cases hsign : x.isBelowZero with
  | false =>
      have hnonneg : (0 : ℚ) ≤ x.toRat := by
        rw [toRat_eq hsign]
        exact div_nonneg (Nat.cast_nonneg _) hunit.le
      simp [hnonneg]
  | true =>
      cases x with
      | nan => cases hfinite
      | infinite negative => cases hfinite
      | finite negative m s h =>
          simp only [isBelowZero, Bool.and_eq_true, decide_eq_true_eq] at hsign
          obtain ⟨rfl, hm⟩ := hsign
          have hm' : (0 : ℚ) < m := by exact_mod_cast Nat.pos_of_ne_zero hm
          have hscaled : (0 : ℚ) < (m * Nat.pow 2 s : Nat) := by
            exact_mod_cast Nat.mul_pos (Nat.pos_of_ne_zero hm) (Nat.pow_pos (by decide))
          simp only [true_iff]
          unfold toRat scaled isNegative
          rw [div_lt_iff₀ hunit, zero_mul]
          simp only [if_true]
          linarith

/-- A number in normal form is a multiple of `2 ^ e` where it has outgrown its digits. -/
theorem add_pow_le_of_lt {m s e : Nat} (hm : m < 2 ^ 53) (hlarge : 2 ^ 52 ≤ m ∨ s = 0)
    (h : m * 2 ^ s < 2 ^ 53 * 2 ^ e) : m * 2 ^ s + 2 ^ e ≤ 2 ^ 53 * 2 ^ e := by
  rcases Nat.lt_or_ge e s with hs | hs
  · -- In normal form the number would not be below.
    have hbig : 2 ^ 52 ≤ m := hlarge.resolve_right (by omega)
    have hpow : 2 ^ (e + 1) ≤ 2 ^ s := Nat.pow_le_pow_right (by decide) hs
    have hle : 2 ^ 52 * 2 ^ (e + 1) ≤ m * 2 ^ s := Nat.mul_le_mul hbig hpow
    rw [Nat.pow_succ] at hle
    omega
  · have hpow : 2 ^ s ≤ 2 ^ e := Nat.pow_le_pow_right (by decide) hs
    calc m * 2 ^ s + 2 ^ e ≤ m * 2 ^ e + 2 ^ e :=
          Nat.add_le_add_right (Nat.mul_le_mul_left m hpow) _
      _ = (m + 1) * 2 ^ e := (Nat.succ_mul m _).symm
      _ ≤ 2 ^ 53 * 2 ^ e := Nat.mul_le_mul_right _ hm

/-- Numbers as large as `2 ^ 64` are whole: one that is below is below by one at least. -/
theorem scaled_add_unit_le (h : x.scaled < 2 ^ 64 * unit) : x.scaled + unit ≤ 2 ^ 64 * unit := by
  obtain ⟨e, hlimit, hunit⟩ : ∃ e, 2 ^ 64 * unit = 2 ^ 53 * 2 ^ e ∧ unit ≤ 2 ^ e :=
    ⟨1085, by decide +kernel, by decide +kernel⟩
  rw [hlimit] at h ⊢
  generalize unit = u at hunit
  have hzero : 0 + u ≤ 2 ^ 53 * 2 ^ e := by
    rw [Nat.zero_add]
    exact hunit.trans (Nat.le_mul_of_pos_left _ (Nat.two_pow_pos 53))
  cases x with
  | nan => exact hzero
  | infinite => exact hzero
  | finite negative m s hnormal =>
      exact (Nat.add_le_add_left hunit _).trans (add_pow_le_of_lt hnormal.1 hnormal.2.2 h)

end Binary64

namespace Duration

variable {x : Binary64}

/-- A duration that is a number of seconds lies within half a nanosecond of it. -/
theorem ofSeconds?_near {d : Duration} (h : ofSeconds? x = some d) :
    |(d.nanos : ℚ) / nanosPerSecond - x.toRat| ≤ 1 / (2 * nanosPerSecond) := by
  unfold ofSeconds? at h
  dsimp only at h
  obtain ⟨hx, h⟩ := Option.ite_none_right_eq_some.mp h
  obtain ⟨-, h⟩ := Option.ite_none_right_eq_some.mp h
  obtain rfl := Option.some.inj h
  rw [Bool.and_eq_true, Bool.not_eq_true'] at hx
  have hround := abs_roundHalfEven_sub (x.scaled * nanosPerSecond) Binary64.unit_pos
  have hnanos : (0 : ℚ) < nanosPerSecond := by norm_num [nanosPerSecond]
  have hsplit : ∀ r u : ℚ, r / nanosPerSecond - x.scaled / u =
      (r - x.scaled * nanosPerSecond / u) / nanosPerSecond := by
    intro r u
    rw [sub_div, mul_div_right_comm, mul_div_cancel_right₀ _ hnanos.ne']
  have hhalf : 1 / (2 * nanosPerSecond) * (nanosPerSecond : ℚ) = 1 / 2 := by
    rw [div_mul_eq_mul_div, one_mul, mul_comm 2, ← div_div, div_self hnanos.ne']
  rw [Binary64.toRat_eq hx.2, hsplit, abs_div, abs_of_pos hnanos, div_le_iff₀ hnanos, hhalf]
  simpa only [Nat.cast_mul] using hround

/-- Of the numbers that are not negative, those below `2 ^ 64` are durations. -/
theorem ofSeconds?_eq_none_iff (hfinite : x.isFinite = true) (hsign : x.isBelowZero = false) :
    ofSeconds? x = none ↔ 2 ^ 64 ≤ x.toRat := by
  have hunit : (0 : ℚ) < Binary64.unit := by exact_mod_cast Binary64.unit_pos
  have hexact : (2 ^ 64 : ℚ) ≤ x.toRat ↔ 2 ^ 64 * Binary64.unit ≤ x.scaled := by
    rw [Binary64.toRat_eq hsign, le_div_iff₀ hunit]
    exact_mod_cast Iff.rfl
  have hnone : ofSeconds? x = none ↔
      limit ≤ roundHalfEven (x.scaled * nanosPerSecond) Binary64.unit := by
    simp [ofSeconds?, hfinite, hsign]
  obtain ⟨hupper, hlower⟩ := roundHalfEven_near (x.scaled * nanosPerSecond) Binary64.unit_pos
  have hwhole := Binary64.scaled_add_unit_le (x := x)
  have hpos := Binary64.unit_pos
  rw [hexact, hnone]
  have hlimit : limit = 2 ^ 64 * 1000000000 := rfl
  rw [hlimit]
  unfold nanosPerSecond at *
  generalize roundHalfEven _ _ = n at *
  generalize Binary64.unit = u at *
  constructor
  · intro hn
    by_contra hlt
    have hle : 2 ^ 64 * 1000000000 * u ≤ n * u := Nat.mul_le_mul_right u hn
    have := hwhole (by omega)
    omega
  · intro hx
    by_contra hlt
    have hle : (n + 1) * u ≤ 2 ^ 64 * 1000000000 * u := Nat.mul_le_mul_right u (by omega)
    rw [Nat.succ_mul] at hle
    omega

end Duration

end Conductor
