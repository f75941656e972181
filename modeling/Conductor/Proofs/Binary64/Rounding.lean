import Mathlib.Tactic.Ring
import Conductor.Binary64.Shortest
import Conductor.Proofs.Duration

/-!
# Rounded quotients and decimal numbers

What is nearest to a quotient depends on the quotient alone (`ofRatio_congr`), and a finite number
is nearest to itself (`ofRatio_scaled`). A decimal number is rounded as the quotient that it is,
also where its exponent decides at once (`ofDecimal_eq_ofRatio`).
-/

namespace Conductor

/-! ## Rounding a quotient -/

theorem roundHalfEven_mul_left {c : Nat} (hc : 0 < c) (n d : Nat) :
    roundHalfEven (c * n) (c * d) = roundHalfEven n d := by
  have hdiv : c * n / (c * d) = n / d := Nat.mul_div_mul_left n d hc
  have hmod : c * n % (c * d) = c * (n % d) := Nat.mul_mod_mul_left c n d
  have hlt : 2 * (c * (n % d)) < c * d ↔ 2 * (n % d) < d := by
    rw [Nat.mul_left_comm, Nat.mul_lt_mul_left hc]
  have heq : 2 * (c * (n % d)) = c * d ↔ 2 * (n % d) = d := by
    rw [Nat.mul_left_comm, Nat.mul_right_inj hc.ne']
  simp only [roundHalfEven, hdiv, hmod, hlt, heq]

/-- A whole quotient is not rounded. -/
theorem roundHalfEven_mul_self (k : Nat) {d : Nat} (hd : 0 < d) : roundHalfEven (k * d) d = k := by
  have hdiv : k * d / d = k := Nat.mul_div_cancel k hd
  have hmod : k * d % d = 0 := Nat.mul_mod_left k d
  rw [roundHalfEven, hdiv, hmod]
  exact if_pos hd

theorem roundHalfEven_eq_zero {n d : Nat} (h : 2 * n < d) : roundHalfEven n d = 0 := by
  have hdiv : n / d = 0 := Nat.div_eq_of_lt (by omega)
  have hmod : n % d = n := Nat.mod_eq_of_lt (by omega)
  rw [roundHalfEven, hdiv, hmod]
  exact if_pos h

namespace Binary64

variable {negative : Bool}

theorem ofRatio_mul_left {c : Nat} (hc : 0 < c) (num den : Nat) :
    ofRatio negative (c * num) (c * den) = ofRatio negative num den := by
  have hdiv : c * num * unit / (c * den) = num * unit / den := by
    rw [Nat.mul_assoc, Nat.mul_div_mul_left _ _ hc]
  have hround (k : Nat) :
      roundHalfEven (c * num * unit) (c * den * k) = roundHalfEven (num * unit) (den * k) := by
    rw [Nat.mul_assoc, Nat.mul_assoc, roundHalfEven_mul_left hc]
  simp only [ofRatio, hdiv, hround]

/-- What is nearest to a quotient does not depend on how the quotient is written. -/
theorem ofRatio_congr {a b c d : Nat} (hb : 0 < b) (hd : 0 < d) (h : a * d = c * b) :
    ofRatio negative a b = ofRatio negative c d := by
  rw [← ofRatio_mul_left hd a b, ← ofRatio_mul_left hb c d, Nat.mul_comm d a, h, Nat.mul_comm c b,
    Nat.mul_comm d b]

theorem ofParts_of_isNormal {m s : Nat} (h : IsNormal m s) :
    ofParts negative m s = .finite negative m s h := by
  have hm : m ≠ Nat.pow 2 53 := Nat.ne_of_lt h.1
  simp only [ofParts, hm, if_false]
  exact dif_pos h

theorem ofParts_eq_infinite {m s : Nat} (h : 2045 < s) :
    ofParts negative m s = .infinite negative := by
  have hnot : ∀ m' s', s ≤ s' → ¬ IsNormal m' s' := fun m' s' hs hn => by
    have := hn.2.1
    omega
  rw [ofParts]
  by_cases hm : m = Nat.pow 2 53
  · simp only [hm, if_true]
    exact dif_neg (hnot _ _ (Nat.le_succ s))
  · simp only [hm, if_false]
    exact dif_neg (hnot _ _ (Nat.le_refl s))

/-- The scale of a normal form is found again from the number it belongs to. -/
theorem scale_eq {m s : Nat} (h : IsNormal m s) :
    (if m * Nat.pow 2 s < Nat.pow 2 53 then 0 else (m * Nat.pow 2 s).log2 - 52) = s := by
  obtain ⟨hm, -, hlarge⟩ := h
  obtain rfl | hs := Nat.eq_zero_or_pos s
  · exact if_pos (by simpa using hm)
  · have hmin : 2 ^ 52 ≤ m := hlarge.resolve_right (Nat.ne_of_gt hs)
    have hmax : m < 2 ^ 53 := hm
    have hlow : 2 ^ (52 + s) ≤ m * 2 ^ s := by
      rw [pow_add]
      exact Nat.mul_le_mul_right _ hmin
    have hhigh : m * 2 ^ s < 2 ^ (52 + s + 1) := by
      rw [show 52 + s + 1 = 53 + s by omega, pow_add]
      exact Nat.mul_lt_mul_of_pos_right hmax (Nat.two_pow_pos s)
    have hnot : ¬ m * Nat.pow 2 s < Nat.pow 2 53 := by
      have : 2 ^ 53 ≤ 2 ^ (52 + s) := Nat.pow_le_pow_right (by decide) (by omega)
      exact Nat.not_lt.mpr (Nat.le_trans this hlow)
    have hlog : (m * Nat.pow 2 s).log2 = 52 + s := by
      apply (Nat.log2_eq_iff _).mpr ⟨hlow, hhigh⟩
      exact Nat.ne_of_gt (Nat.lt_of_lt_of_le (Nat.two_pow_pos _) hlow)
    rw [if_neg hnot, hlog]
    omega

/-- A finite number is nearest to itself. -/
theorem ofRatio_scaled {x : Binary64} (h : x.isFinite = true) :
    ofRatio x.isNegative x.scaled unit = x := by
  cases x with
  | nan => cases h
  | infinite n => cases h
  | finite n m s hn =>
      have hdiv : m * Nat.pow 2 s * unit / unit = m * Nat.pow 2 s :=
        Nat.mul_div_cancel _ unit_pos
      have hround : roundHalfEven (m * Nat.pow 2 s * unit) (unit * Nat.pow 2 s) = m := by
        rw [Nat.mul_assoc, Nat.mul_comm (Nat.pow 2 s)]
        exact roundHalfEven_mul_self m (Nat.mul_pos unit_pos (Nat.two_pow_pos s))
      show ofRatio n (m * Nat.pow 2 s) unit = _
      simp only [ofRatio, hdiv, scale_eq hn, hround]
      exact ofParts_of_isNormal hn

theorem ofRatio_eq_zero {num den : Nat} (h : 2 * (num * unit) < den) :
    ofRatio negative num den = zero negative := by
  have hdiv : num * unit / den = 0 := Nat.div_eq_of_lt (by omega)
  have hround : roundHalfEven (num * unit) (den * Nat.pow 2 0) = 0 := by
    rw [show den * Nat.pow 2 0 = den from Nat.mul_one den]
    exact roundHalfEven_eq_zero h
  have hpos : 0 < Nat.pow 2 53 := by decide
  simp only [ofRatio, hdiv, hpos, if_true, hround]
  exact ofParts_of_isNormal (by decide)

/-- The common denominator is a power of two; its exponent is kept out of the way of evaluation. -/
theorem exists_unit_eq : ∃ u, u = 1074 ∧ unit = 2 ^ u := by
  refine ⟨1074, rfl, ?_⟩
  unfold unit
  generalize 1074 = u
  rfl

theorem ofRatio_eq_infinite {num k : Nat} (hk : 1024 ≤ k) (h : 2 ^ k ≤ num) :
    ofRatio negative num 1 = .infinite negative := by
  obtain ⟨u, hu, hunit⟩ := exists_unit_eq
  have hlarge : 2 ^ (k + u) ≤ num * unit := by
    rw [hunit, pow_add]
    exact Nat.mul_le_mul_right _ h
  have hlog : k + u ≤ (num * unit).log2 := by
    apply (Nat.le_log2 _).mpr hlarge
    exact Nat.ne_of_gt (Nat.lt_of_lt_of_le (Nat.two_pow_pos _) hlarge)
  have hnot : ¬ num * unit < Nat.pow 2 53 := by
    have : 2 ^ 53 ≤ 2 ^ (k + u) := Nat.pow_le_pow_right (by decide) (by omega)
    exact Nat.not_lt.mpr (Nat.le_trans this hlarge)
  simp only [ofRatio, Nat.div_one, if_neg hnot]
  exact ofParts_eq_infinite (by omega)

/-! ## Decimal numbers -/

/-- A decimal number is the quotient of two whole numbers, rounded; where its exponent is far out,
this quotient gives zero or infinity. -/
theorem ofDecimal_eq_ofRatio (negative : Bool) (digits : Nat) (exponent : Int) :
    ofDecimal negative digits exponent =
      ofRatio negative (digits * 10 ^ exponent.toNat) (10 ^ (-exponent).toNat) := by
  have hpow (n : Nat) : 2 ^ (3 * n) ≤ 10 ^ n := by
    rw [pow_mul]
    exact Nat.pow_le_pow_left (by decide) n
  unfold ofDecimal
  split_ifs with hzero hlarge hsmall hsign
  · have hpos : 0 < 10 ^ (-exponent).toNat := Nat.pow_pos (by decide)
    rw [hzero, ofRatio_eq_zero]
    simp only [Nat.zero_mul, Nat.mul_zero, hpos]
  · have hnone : (-exponent).toNat = 0 := by omega
    rw [hnone, pow_zero, ofRatio_eq_infinite (k := 3 * exponent.toNat) (by omega)]
    calc 2 ^ (3 * exponent.toNat) ≤ 10 ^ exponent.toNat := hpow _
      _ ≤ digits * 10 ^ exponent.toNat := Nat.le_mul_of_pos_left _ (Nat.pos_of_ne_zero hzero)
  · have hnone : exponent.toNat = 0 := by omega
    obtain ⟨u, hu, hunit⟩ := exists_unit_eq
    have hdigits : digits < 2 ^ (digits.log2 + 1) := Nat.lt_log2_self
    rw [hnone, pow_zero, Nat.mul_one, ofRatio_eq_zero]
    calc 2 * (digits * unit) = digits * 2 ^ (u + 1) := by
          rw [hunit, pow_succ]
          ring
      _ < 2 ^ (digits.log2 + 1) * 2 ^ (u + 1) :=
          Nat.mul_lt_mul_of_pos_right hdigits (Nat.two_pow_pos _)
      _ = 2 ^ (digits.log2 + 1 + (u + 1)) := (pow_add _ _ _).symm
      _ ≤ 2 ^ (3 * (-exponent).toNat) := Nat.pow_le_pow_right (by decide) (by omega)
      _ ≤ 10 ^ (-exponent).toNat := hpow _
  · have hnone : (-exponent).toNat = 0 := by omega
    rw [hnone, pow_zero]
    rfl
  · have hnone : exponent.toNat = 0 := by omega
    rw [hnone, pow_zero, Nat.mul_one]
    rfl

/-- Zeros at the end of the digits belong to the exponent. -/
theorem ofDecimal_mul_pow (negative : Bool) (digits n : Nat) (exponent : Int) :
    ofDecimal negative (digits * 10 ^ n) exponent = ofDecimal negative digits (exponent + n) := by
  rw [ofDecimal_eq_ofRatio, ofDecimal_eq_ofRatio]
  apply ofRatio_congr (by positivity) (by positivity)
  have hexp : n + exponent.toNat + (-(exponent + n)).toNat =
      (exponent + n).toNat + (-exponent).toNat := by omega
  calc digits * 10 ^ n * 10 ^ exponent.toNat * 10 ^ (-(exponent + n)).toNat
      = digits * 10 ^ (n + exponent.toNat + (-(exponent + n)).toNat) := by
        rw [pow_add, pow_add]
        ring
    _ = digits * 10 ^ (exponent + n).toNat * 10 ^ (-exponent).toNat := by
        rw [hexp, pow_add]
        ring

end Binary64

end Conductor
