import FormulaDesk.Decimal.Digits
import FormulaDesk.Proofs.Decimal.Binary

/-! # Rounding to a float

The arithmetic of floats rounds a mantissa with two residual bits, after it has shifted the mantissa
to the place of the result. Such a mantissa stands for a quotient of naturals (`extended`): a shift
doubles the denominator, and the rounding is `Decimal.roundDiv`. So a quotient that lies nearer to a
canonical number than to its neighbours is rounded to it (`roundWithAccuracy_eq`).
-/

namespace FormulaDesk.Decimal

open Float.Model (UnpackedFloat Format totalExponent)
open Float.Model.UnpackedFloat (Sign ExtendedMantissa Accuracy accuracyOfFraction
  roundWithAccuracy)
open Binary (Canonical)

variable {num den k m : Nat} {e : Int} {s : Sign}

/-! ## Residual bits -/

/-- A quotient as a mantissa with residual bits. -/
def extended (num den : Nat) : ExtendedMantissa :=
  .ofMantissaAndAccuracy (num / den) (accuracyOfFraction (num % den) den)

theorem extended_eq (hden : 0 < den) : extended num den =
    ⟨num / den, decide (den ≤ 2 * (num % den)),
      decide (num % den ≠ 0 ∧ 2 * (num % den) ≠ den)⟩ := by
  unfold extended accuracyOfFraction
  by_cases hexact : num % den = 0
  · simp [hexact, ExtendedMantissa.ofMantissaAndAccuracy, hden.ne']
  · rw [if_neg hexact]
    rcases lt_trichotomy (2 * (num % den)) den with h | h | h
    · simp [compare_lt_iff_lt.mpr h, ExtendedMantissa.ofMantissaAndAccuracy, hexact, h, h.ne]
    · simp [ExtendedMantissa.ofMantissaAndAccuracy, h]
    · simp [compare_gt_iff_gt.mpr h, ExtendedMantissa.ofMantissaAndAccuracy, hexact, h.le, h.ne']

theorem shiftRightOne_extended (hden : 0 < den) :
    (extended num den).shiftRightOne = extended num (den * 2) := by
  have hquotient : num / (den * 2) = num / den / 2 := (Nat.div_div_eq_div_mul ..).symm
  have hrest : num % (den * 2) = num % den + den * (num / den % 2) := Nat.mod_mul
  have hlt : num % den < den := Nat.mod_lt num hden
  rw [extended_eq hden, extended_eq (Nat.mul_pos hden Nat.two_pos), hquotient, hrest]
  simp only [ExtendedMantissa.shiftRightOne, ExtendedMantissa.mk.injEq, true_and]
  -- the lowest bit of the quotient tells on which side of a half the new rest lies
  rcases Nat.mod_two_eq_zero_or_one (num / den) with hbit | hbit <;> rw [hbit] <;>
    constructor <;> apply Bool.eq_iff_iff.mpr <;> simp <;> omega

theorem shiftRight_extended (hden : 0 < den) (k : Nat) :
    extended num den >>> k = extended num (den * 2 ^ k) := by
  induction k with
  | zero =>
    rw [pow_zero, mul_one]
    rfl
  | succ k ih =>
    have hstep : extended num den >>> (k + 1) = (extended num den >>> k).shiftRightOne := rfl
    rw [hstep, ih, shiftRightOne_extended (by positivity), mul_assoc, pow_succ]

/-- What the residual bits round to is the nearest natural number. -/
theorem roundedMantissa_extended (hden : 0 < den) :
    (extended num den).roundedMantissa = roundDiv num den := by
  have hlt : num % den < den := Nat.mod_lt num hden
  unfold extended accuracyOfFraction roundDiv
  by_cases hexact : num % den = 0
  · simp [hexact, ExtendedMantissa.ofMantissaAndAccuracy, ExtendedMantissa.roundedMantissa,
      ExtendedMantissa.accuracy, Accuracy.roundToNearestEven, hden]
  · rw [if_neg hexact]
    rcases lt_trichotomy (2 * (num % den)) den with h | h | h
    · rw [compare_lt_iff_lt.mpr h, if_pos h]
      rfl
    · rw [compare_eq_iff_eq.mpr h, if_neg h.not_lt, if_neg h.not_gt]
      show num / den + num / den % 2 = _
      split <;> omega
    · rw [compare_gt_iff_gt.mpr h, if_neg h.not_gt, if_pos h]
      rfl

/-! ## Nearness -/

/-- The quotient `num / den` lies at most a half away from `m`, and less than a half if `m` is
odd. -/
structure Nearest (num den m : Nat) : Prop where
  low : 2 * m * den ≤ 2 * num + den
  high : 2 * num ≤ (2 * m + 1) * den
  even : 2 * m * den = 2 * num + den ∨ 2 * num = (2 * m + 1) * den → m % 2 = 0

theorem Nearest.quotient_cases (h : Nearest num den m) (hden : 0 < den) :
    num / den = m ∨ num / den + 1 = m := by
  have hlow : m ≤ num / den + 1 := by
    by_contra! hgt
    have := h.low
    have := Nat.lt_div_mul_add (a := num) hden
    nlinarith
  have hhigh : num / den ≤ m := by
    by_contra! hgt
    have := h.high
    have := Nat.div_mul_le_self num den
    nlinarith
  omega

theorem Nearest.roundDiv_eq (h : Nearest num den m) (hden : 0 < den) : roundDiv num den = m := by
  have hdiv : num / den * den + num % den = num := Nat.div_add_mod' num den
  have hlow : 2 * (m * den) ≤ 2 * num + den := by linarith [h.low]
  have hhigh : 2 * num ≤ 2 * (m * den) + den := by linarith [h.high]
  have heven : 2 * (m * den) = 2 * num + den ∨ 2 * num = 2 * (m * den) + den → m % 2 = 0 := by
    rintro (heq | heq)
    · exact h.even (.inl (by linarith))
    · exact h.even (.inr (by linarith))
  unfold roundDiv
  dsimp only
  rcases h.quotient_cases hden with hquotient | hquotient
  · rw [hquotient] at hdiv ⊢
    split_ifs <;> omega
  · have hm : m * den = num / den * den + den := by rw [← hquotient]; ring
    split_ifs <;> omega

/-! ## Rounding -/

theorem targetExponent_eq (t : Int) :
    Format.binary64.targetExponent t = max (t - 53) (-1074) := rfl

/-- The last step of a rounding: a mantissa that became too long loses its lowest bits. -/
def trimmed (s : Sign) (m : Nat) (e : Int) : UnpackedFloat :=
  let k := (Format.binary64.targetExponent (totalExponent m e) - e).toNat
  if h : m / 2 ^ k = 0 then .zero s else .finite s (m / 2 ^ k) (e + k) (Nat.pos_of_ne_zero h)

theorem mantissa_shiftRight (num k : Nat) :
    (ExtendedMantissa.ofMantissaAndAccuracy num .exact >>> k).mantissa = num / 2 ^ k := by
  have hexact : ExtendedMantissa.ofMantissaAndAccuracy num .exact = extended num 1 := by
    simp [extended, accuracyOfFraction, Nat.mod_one]
  rw [hexact, shiftRight_extended Nat.one_pos, one_mul, extended_eq (by positivity)]

theorem roundWithAccuracy_eq_trimmed (hden : 0 < den)
    (hk : (Format.binary64.targetExponent (totalExponent (num / den) e) - e).toNat = k) :
    roundWithAccuracy Format.binary64 s (num / den) e (accuracyOfFraction (num % den) den) =
      trimmed s (roundDiv num (den * 2 ^ k)) (e + k) := by
  have hfirst : (ExtendedMantissa.ofMantissaAndAccuracy (num / den)
      (accuracyOfFraction (num % den) den) >>> k).roundedMantissa = roundDiv num (den * 2 ^ k) := by
    rw [← roundedMantissa_extended (by positivity), ← shiftRight_extended hden]
    rfl
  simp only [roundWithAccuracy, Float.Model.UnpackedFloat.shiftToTargetExponent,
    Float.Model.UnpackedFloat.shiftToExponent, hk, hfirst, mantissa_shiftRight, trimmed]

theorem trimmed_of_canonical (h : Canonical m e) : trimmed s m e = .finite s m e h.pos := by
  have hk : (Format.binary64.targetExponent (totalExponent m e) - e).toNat = 0 := by
    rw [targetExponent_eq, totalExponent]
    rcases h.normal with hlow | rfl
    · rw [Binary.log2_of_normal hlow h.small]
      have := h.lowest
      omega
    · have := (Nat.log2_lt h.pos.ne').mpr h.small
      omega
  simp only [trimmed, hk, pow_zero, Nat.div_one, dif_neg h.pos.ne']
  exact Binary.finite_congr rfl (by simp)

/-- A mantissa that was rounded up to the next power of two. -/
theorem trimmed_of_overflow (he : -1074 < e) :
    trimmed s (2 ^ 53) (e - 1) = .finite s (2 ^ 52) e (by positivity) := by
  have hk : (Format.binary64.targetExponent (totalExponent (2 ^ 53) (e - 1)) - (e - 1)).toNat
      = 1 := by
    rw [targetExponent_eq, totalExponent, Nat.log2_two_pow]
    omega
  simp only [trimmed, hk]
  exact Binary.finite_congr rfl (by simp)

/-- How near a quotient has to be to a canonical number to be rounded to it. Below a power of two
the neighbour is nearer, unless the power is the least exponent's. -/
structure Rounds (num den m : Nat) (e : Int) : Prop where
  nearest : Nearest num den m
  power : m = 2 ^ 52 → e ≠ -1074 → 4 * m * den ≤ 4 * num + den

/-- The length of the mantissa from which a rounding starts, where no bit below it is needed. -/
theorem log2_quotient (length : Nat) (hlow : 2 ^ length ≤ num / (den * 2 ^ k))
    (hhigh : num / (den * 2 ^ k) < 2 ^ (length + 1)) : (num / den).log2 = length + k := by
  rw [← Nat.div_div_eq_div_mul] at hlow hhigh
  have hle : 2 ^ (length + k) ≤ num / den := by
    rw [pow_add]
    exact (Nat.le_div_iff_mul_le (by positivity)).mp hlow
  have hlt : num / den < 2 ^ (length + k + 1) := by
    rw [show length + k + 1 = length + 1 + k by omega, pow_add]
    exact (Nat.div_lt_iff_lt_mul (by positivity)).mp hhigh
  exact (Nat.log2_eq_iff (by have := Nat.two_pow_pos (length + k); omega)).mpr ⟨hle, hlt⟩

theorem log2_quotient_le (length : Nat) (hhigh : num / (den * 2 ^ k) < 2 ^ (length + 1)) :
    (num / den).log2 ≤ length + k := by
  by_cases hzero : num / den = 0
  · rw [hzero]
    exact Nat.zero_le _
  · rw [← Nat.div_div_eq_div_mul, Nat.div_lt_iff_lt_mul (by positivity), ← pow_add] at hhigh
    have := (Nat.log2_lt hzero).mpr hhigh
    omega

/-- A quotient is rounded to the canonical number that it is near to, whatever exponent the rounding
starts from. -/
theorem roundWithAccuracy_eq (h : Canonical m e) (hden : 0 < den)
    (hround : Rounds num (den * 2 ^ k) m e) (s : Sign) :
    roundWithAccuracy Format.binary64 s (num / den) (e - k) (accuracyOfFraction (num % den) den) =
      .finite s m e h.pos := by
  have hscale : 0 < den * 2 ^ k := by positivity
  have hquotient := hround.nearest.quotient_cases hscale
  have hsmall := h.small
  have hlowest := h.lowest
  -- where the first shift goes to the exponent of the result, the rounding is done after it
  have hdirect (hk : (Format.binary64.targetExponent (totalExponent (num / den) (e - k))
      - (e - k)).toNat = k) : roundWithAccuracy Format.binary64 s (num / den) (e - k)
        (accuracyOfFraction (num % den) den) = .finite s m e h.pos := by
    rw [roundWithAccuracy_eq_trimmed hden hk, hround.nearest.roundDiv_eq hscale, sub_add_cancel,
      trimmed_of_canonical h]
  by_cases hnormal : 2 ^ 52 ≤ num / (den * 2 ^ k)
  · have hlog := log2_quotient 52 hnormal (by omega)
    apply hdirect
    rw [targetExponent_eq, totalExponent, hlog]
    omega
  by_cases hleast : e = -1074
  · have hlog : (num / den).log2 ≤ 52 + k := log2_quotient_le 52 (by omega)
    apply hdirect
    rw [targetExponent_eq, totalExponent]
    omega
  -- the result is a power of two and the quotient is below it, where mantissas are a bit shorter
  have hm : m = 2 ^ 52 := by
    have := h.normal.resolve_right hleast
    omega
  subst hm
  have hlog : (num / den).log2 = 51 + k := log2_quotient 51 (by omega) (by omega)
  cases k with
  | zero =>
    apply hdirect
    rw [targetExponent_eq, totalExponent, hlog]
    omega
  | succ k =>
    have hk : (Format.binary64.targetExponent (totalExponent (num / den) (e - (k + 1 : Nat)))
        - (e - (k + 1 : Nat))).toNat = k := by
      rw [targetExponent_eq, totalExponent, hlog]
      omega
    have hdouble : den * 2 ^ (k + 1) = 2 * (den * 2 ^ k) := by ring
    have hnear : Nearest num (den * 2 ^ k) (2 ^ 53) := by
      have hpower := hround.power rfl hleast
      have hbelow : num < 2 ^ 52 * (den * 2 ^ (k + 1)) :=
        (Nat.div_lt_iff_lt_mul hscale).mp (by omega)
      rw [hdouble] at hpower hbelow
      exact ⟨by omega, by omega, fun _ => by norm_num⟩
    rw [roundWithAccuracy_eq_trimmed hden hk, hnear.roundDiv_eq (by positivity)]
    have he : e - (k + 1 : Nat) + k = e - 1 := by
      push_cast
      ring
    rw [he, trimmed_of_overflow (by omega)]

end FormulaDesk.Decimal
