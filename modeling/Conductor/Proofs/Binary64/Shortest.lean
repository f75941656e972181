import Conductor.Proofs.Binary64.Rounding

/-!
# The shortest digits read back

The search for the shortest digits goes from grid to finer grid. Every finite number lies on some
decimal grid, since its denominator is a power of two, and the search reaches such a grid before it
ends; so the digits that are found are always those of the number (`ofDecimal_shortest`).
-/

namespace Conductor.Binary64

variable {x : Binary64}

/-- The digits read back as the number. -/
def ReadsBack (x : Binary64) (d : DecimalDigits) : Prop :=
  ofDecimal x.isNegative d.digits d.exponent = x

theorem ofDecimal_dropZeros (negative : Bool) (n d : Nat) (e : Int) :
    ofDecimal negative (DecimalDigits.dropZeros n d e).digits
      (DecimalDigits.dropZeros n d e).exponent = ofDecimal negative d e := by
  induction n generalizing d e with
  | zero => rfl
  | succ n ih =>
      rw [DecimalDigits.dropZeros]
      split
      · rename_i h
        have hd : d / 10 * 10 ^ 1 = d := by omega
        have hmove := ofDecimal_mul_pow negative (d / 10) 1 e
        rw [hd] at hmove
        exact (ih _ _).trans hmove.symm
      · rfl

theorem readsBack_of_onGrid? {k : Int} {d : DecimalDigits} (h : onGrid? x k = some d) :
    ReadsBack x d := by
  simp only [onGrid?] at h
  split at h
  · rename_i hlow
    obtain rfl := Option.some.inj h
    have hfits := (Bool.and_eq_true_iff.mp hlow).1
    exact (ofDecimal_dropZeros _ _ _ _).trans (of_decide_eq_true hfits)
  · split at h
    · rename_i hhigh
      obtain rfl := Option.some.inj h
      exact (ofDecimal_dropZeros _ _ _ _).trans (of_decide_eq_true hhigh)
    · cases h

/-! ## Grids that hold the number -/

/-- The unit of a grid is small enough to hold every number of this scale. -/
def IsFine (scale : Nat) (k : Int) : Prop :=
  k ≤ 0 ∧ k ≤ (scale : Int) - 1074

variable {negative : Bool} {m s : Nat} {h : IsNormal m s}

/-- On a fine grid a number is a whole number of units, and reads back as such. -/
theorem exists_inUnits_eq (negative : Bool) (h : IsNormal m s) {k : Int} (hk : IsFine s k) :
    ∃ low, inUnits (finite negative m s h).scaled unit k = (low * unit, unit) ∧
      ofDecimal negative low k = finite negative m s h := by
  obtain ⟨j, hj⟩ : ∃ j : Nat, k = -j := ⟨(-k).toNat, by have := hk.1; omega⟩
  obtain ⟨u, hu, hunit⟩ := exists_unit_eq
  have hfine : u ≤ s + j := by
    have := hk.2
    omega
  have hwhole : m * 2 ^ s * 10 ^ j = m * 5 ^ j * 2 ^ (s + j - u) * unit := by
    calc m * 2 ^ s * 10 ^ j = m * 5 ^ j * 2 ^ (s + j) := by
          rw [show 10 = 2 * 5 from rfl, mul_pow, pow_add]
          ring
      _ = m * 5 ^ j * 2 ^ (s + j - u) * unit := by
          rw [hunit, Nat.mul_assoc (m * 5 ^ j), ← pow_add, Nat.sub_add_cancel hfine]
  refine ⟨m * 5 ^ j * 2 ^ (s + j - u), ?_, ?_⟩
  · rw [← hwhole, inUnits]
    by_cases hzero : j = 0
    · subst hzero
      subst hj
      simp [scaled]
    · have hneg : ¬ k ≥ 0 := by omega
      rw [if_neg hneg, hj, neg_neg, Int.toNat_natCast]
      rfl
  · have hk' : k.toNat = 0 := by omega
    have hj' : (-k).toNat = j := by omega
    rw [ofDecimal_eq_ofRatio, hk', hj', pow_zero, Nat.mul_one]
    refine Eq.trans ?_ (ofRatio_scaled (x := finite negative m s h) rfl)
    apply ofRatio_congr (by positivity) unit_pos
    exact hwhole.symm

/-- The search succeeds if it may go on to a fine grid. -/
theorem readsBack_firstGrid {n : Nat} {k : Int} (hk : IsFine s (k - n)) :
    ReadsBack (finite negative m s h) (firstGrid (finite negative m s h) n k) := by
  induction n generalizing k with
  | zero =>
      have hk' : IsFine s k := by simpa using hk
      obtain ⟨low, hunits, hlow⟩ := exists_inUnits_eq negative h hk'
      have hdiv : low * unit / unit = low := Nat.mul_div_cancel _ unit_pos
      rw [ReadsBack, firstGrid, hunits]
      dsimp only
      rw [hdiv]
      exact hlow
  | succ n ih =>
      rw [firstGrid]
      cases hgrid : onGrid? (finite negative m s h) k with
      | some d => exact readsBack_of_onGrid? hgrid
      | none =>
          apply ih
          have hstep : k - 1 - (n : Int) = k - (n + 1 : Nat) := by omega
          rwa [hstep]

theorem decimalOrder_le (num den n : Nat) (k : Int) : decimalOrder num den n k ≤ k := by
  induction n generalizing k with
  | zero => exact Int.le_refl k
  | succ n ih =>
      have hrest := ih (k - 1)
      -- Whether the power fits does not matter here.
      have heither (fits : Prop) [Decidable fits] :
          (if fits then k else decimalOrder num den n (k - 1)) ≤ k := by
        split <;> omega
      exact heither _

theorem log2_scaled_le (negative : Bool) (h : IsNormal m s) :
    (finite negative m s h).scaled.log2 ≤ 52 + s := by
  have hm : m < 2 ^ 53 := h.1
  have hlt : m * 2 ^ s < 2 ^ (53 + s) := by
    rw [pow_add]
    exact Nat.mul_lt_mul_of_pos_right hm (Nat.two_pow_pos s)
  have hlog : (m * 2 ^ s).log2 < 53 + s := by
    by_cases hzero : m * 2 ^ s = 0
    · rw [hzero, Nat.log2_zero]
      omega
    · exact (Nat.log2_lt hzero).mpr hlt
  show (m * 2 ^ s).log2 ≤ 52 + s
  omega

/-- The shortest digits of a finite number read back as it. -/
theorem ofDecimal_shortest (hfinite : x.isFinite = true) :
    ofDecimal x.isNegative x.shortest.digits x.shortest.exponent = x := by
  cases x with
  | nan => cases hfinite
  | infinite n => cases hfinite
  | finite n m s h =>
      apply readsBack_firstGrid
      have hlog := log2_scaled_le n h
      have hs : s ≤ 2045 := h.2.1
      have hstart := decimalOrder_le (finite n m s h).scaled unit 700
        ((((finite n m s h).scaled.log2 : Int) - 1074 + 1) * 30103 / 100000 + 1)
      generalize decimalOrder _ _ _ _ = k at hstart ⊢
      generalize (finite n m s h).scaled.log2 = l at hlog hstart
      constructor <;> omega

end Conductor.Binary64
