import FormulaDesk.Proofs.Decimal.Rounding

/-! # Reading a decimal as a float

A decimal that lies nearer to a float than to its neighbours (`RoundsTo`) is read as this float,
whatever its size and however it is scaled: the quick way for short decimals and the exact way for
all others end in the same rounding (`toFloat_eq`).
-/

namespace FormulaDesk.Decimal

open Float.Model (UnpackedFloat Format totalExponent)
open Float.Model.UnpackedFloat (Sign accuracyOfFraction roundWithAccuracy)
open Binary (Canonical signOf)

variable {m c : Nat} {e : Int} {v : ℚ} {s : Sign}

/-! ## Nearness of rationals -/

/-- The number lies nearer to `m · 2 ^ e` than to the neighbours of this float. -/
structure RoundsTo (v : ℚ) (m : Nat) (e : Int) : Prop where
  low : (2 * m - 1) * (2 : ℚ) ^ e ≤ 2 * v
  high : 2 * v ≤ (2 * m + 1) * (2 : ℚ) ^ e
  even : 2 * v = (2 * m - 1) * (2 : ℚ) ^ e ∨ 2 * v = (2 * m + 1) * (2 : ℚ) ^ e → m % 2 = 0
  power : m = 2 ^ 52 → e ≠ -1074 → (4 * m - 1) * (2 : ℚ) ^ e ≤ 4 * v

/-- A value with a double of its own rounds to it. -/
theorem RoundsTo.exact (m : Nat) (e : Int) : RoundsTo (m * (2 : ℚ) ^ e) m e := by
  have he : (0 : ℚ) < 2 ^ e := by positivity
  refine ⟨by linarith, by linarith, ?_, fun _ _ => by linarith⟩
  rintro (h | h) <;> linarith

/-- In units of the last place nearness is that of a quotient. -/
theorem RoundsTo.rounds {num den k : Nat} (h : RoundsTo v m e) (hden : 0 < den)
    (hv : v = num / den * (2 : ℚ) ^ (e - k)) : Rounds num (den * 2 ^ k) m e := by
  have he : (0 : ℚ) < 2 ^ e := by positivity
  have hd : (0 : ℚ) < ((den * 2 ^ k : Nat) : ℚ) := by positivity
  have hscaled : v = num / ((den * 2 ^ k : Nat) : ℚ) * 2 ^ e := by
    rw [hv, zpow_sub₀ two_ne_zero, zpow_natCast]
    push_cast
    field_simp
  -- every bound on `v` is one on the numerator, in units of the denominator
  have hlow (a b : ℚ) : a * 2 ^ e ≤ b * v ↔ a * (den * 2 ^ k : Nat) ≤ b * num := by
    rw [hscaled, ← mul_assoc, mul_le_mul_iff_of_pos_right he, ← mul_div_assoc, le_div_iff₀ hd]
  have hhigh (a b : ℚ) : b * v ≤ a * 2 ^ e ↔ b * num ≤ a * (den * 2 ^ k : Nat) := by
    rw [hscaled, ← mul_assoc, mul_le_mul_iff_of_pos_right he, ← mul_div_assoc, div_le_iff₀ hd]
  have hlow₂ := (hlow _ _).mp h.low
  have hhigh₂ := (hhigh _ _).mp h.high
  refine ⟨⟨?_, ?_, ?_⟩, ?_⟩
  · have : (2 * m * (den * 2 ^ k : Nat) : ℚ) ≤ 2 * num + (den * 2 ^ k : Nat) := by linarith
    exact_mod_cast this
  · exact_mod_cast hhigh₂
  · rintro (heq | heq)
    · have : (2 * m * (den * 2 ^ k : Nat) : ℚ) = 2 * num + (den * 2 ^ k : Nat) := by
        exact_mod_cast heq
      refine h.even (.inl (le_antisymm ((hhigh _ _).mpr ?_) h.low))
      linarith
    · have : (2 * num : ℚ) = (2 * m + 1) * (den * 2 ^ k : Nat) := by exact_mod_cast heq
      exact h.even (.inr (le_antisymm h.high ((hlow _ _).mpr this.ge)))
  · intro hm hleast
    have hpower := (hlow _ _).mp (h.power hm hleast)
    have : (4 * m * (den * 2 ^ k : Nat) : ℚ) ≤ 4 * num + (den * 2 ^ k : Nat) := by linarith
    exact_mod_cast this

/-! ## Bounds -/

/-- What rounds to a canonical double is positive. -/
theorem RoundsTo.pos (h : RoundsTo v m e) (hm : Canonical m e) : 0 < v := by
  have he : (0 : ℚ) < 2 ^ e := by positivity
  have hone : (1 : ℚ) ≤ m := by exact_mod_cast hm.pos
  nlinarith [h.low]

/-- What rounds to a double is below the top of the double's binade. -/
theorem RoundsTo.lt_pow (h : RoundsTo v m e) (hm : Canonical m e) : v < 2 ^ (53 + e) := by
  have he : (0 : ℚ) < 2 ^ e := by positivity
  have hsmall : (m : ℚ) + 1 ≤ 2 ^ 53 := by exact_mod_cast hm.small
  rw [zpow_add₀ two_ne_zero]
  norm_num at hsmall ⊢
  nlinarith [h.high]

/-- What rounds to a double is not below the least value of its exponent. -/
theorem RoundsTo.le_pow (h : RoundsTo v m e) (hm : Canonical m e) : 2 ^ (e - 1) ≤ v := by
  have he : (0 : ℚ) < 2 ^ e := by positivity
  have hone : (1 : ℚ) ≤ m := by exact_mod_cast hm.pos
  rw [zpow_sub_one₀ two_ne_zero]
  nlinarith [h.low]

/-- The logarithm bounds a number from below. -/
theorem two_pow_log2_le {n : Nat} (hn : 0 < n) : (2 : ℚ) ^ (n.log2 : Int) ≤ n := by
  rw [zpow_natCast]
  exact_mod_cast Nat.log2_self_le hn.ne'

/-- The logarithm bounds a number from above. -/
theorem lt_two_pow_log2 (n : Nat) : (n : ℚ) < 2 ^ ((n.log2 : Int) + 1) := by
  have h : n < 2 ^ (n.log2 + 1) := Nat.lt_log2_self
  exact_mod_cast h

/-! ## Products and quotients -/

variable {m₁ m₂ : Nat} {e₁ e₂ : Int} {s₁ s₂ : Sign} {h₁ : 0 < m₁} {h₂ : 0 < m₂}

/-- A product whose last bit does not lie above that of its result is rounded to it. -/
theorem mul_eq (hm : Canonical m e) (hle : e₁ + e₂ ≤ e)
    (hv : RoundsTo (m₁ * (2 : ℚ) ^ e₁ * (m₂ * (2 : ℚ) ^ e₂)) m e) :
    UnpackedFloat.mul Format.binary64 (.finite s₁ m₁ e₁ h₁) (.finite s₂ m₂ e₂ h₂) =
      .finite (s₁ * s₂) m e hm.pos := by
  obtain ⟨k, hk⟩ := Int.eq_ofNat_of_zero_le (sub_nonneg.mpr hle)
  have hstart : e₁ + e₂ = e - k := by omega
  have hscaled : m₁ * (2 : ℚ) ^ e₁ * (m₂ * (2 : ℚ) ^ e₂) =
      ((m₁ * m₂ : Nat) : ℚ) / (1 : Nat) * (2 : ℚ) ^ (e - k) := by
    rw [← hstart, zpow_add₀ two_ne_zero]
    push_cast
    ring
  have hround := roundWithAccuracy_eq hm Nat.one_pos (hv.rounds Nat.one_pos hscaled) (s₁ * s₂)
  rw [Nat.div_one, Nat.mod_one, ← hstart] at hround
  exact hround

/-- A quotient is computed with bits enough to be rounded to its result. -/
theorem div_eq (hm : Canonical m e)
    (hv : RoundsTo (m₁ * (2 : ℚ) ^ e₁ / (m₂ * (2 : ℚ) ^ e₂)) m e) :
    UnpackedFloat.div Format.binary64 (.finite s₁ m₁ e₁ h₁) (.finite s₂ m₂ e₂ h₂) =
      .finite (s₁ / s₂) m e hm.pos := by
  have hlowest := hm.lowest
  -- the quotient is at least the power of two that its lengths give, and below that of its result
  have hlength : (m₁.log2 : Int) + e₁ - (m₂.log2 + 1 + e₂) < 53 + e := by
    rw [← zpow_lt_zpow_iff_right₀ (one_lt_two : (1 : ℚ) < 2)]
    refine lt_of_le_of_lt ?_ (hv.lt_pow hm)
    have hnum := mul_le_mul_of_nonneg_right (two_pow_log2_le h₁) (by positivity : (0 : ℚ) ≤ 2 ^ e₁)
    have hden := mul_lt_mul_of_pos_right (lt_two_pow_log2 m₂) (by positivity : (0 : ℚ) < 2 ^ e₂)
    have hpos : (0 : ℚ) < m₂ := by exact_mod_cast h₂
    rw [zpow_sub₀ two_ne_zero, zpow_add₀ two_ne_zero, zpow_add₀ two_ne_zero]
    gcongr
  obtain ⟨start, hstart⟩ : ∃ start, min (e₁ - e₂)
      (Format.binary64.targetExponent (totalExponent m₁ e₁ - totalExponent m₂ e₂)) = start :=
    ⟨_, rfl⟩
  have hle : start ≤ e := by
    rw [← hstart, targetExponent_eq, totalExponent, totalExponent]
    omega
  have hbelow : start ≤ e₁ - e₂ := by
    rw [← hstart]
    exact min_le_left _ _
  obtain ⟨k, hk⟩ := Int.eq_ofNat_of_zero_le (sub_nonneg.mpr hle)
  obtain ⟨shift, hshift⟩ := Int.eq_ofNat_of_zero_le (sub_nonneg.mpr hbelow)
  have hdiv : UnpackedFloat.div Format.binary64 (.finite s₁ m₁ e₁ h₁) (.finite s₂ m₂ e₂ h₂) =
      roundWithAccuracy Format.binary64 (s₁ / s₂) (m₁ * 2 ^ shift / m₂) (e - k)
        (accuracyOfFraction (m₁ * 2 ^ shift % m₂) m₂) := by
    have hamount : (e₁ - e₂ - start).toNat = shift := by omega
    simp only [UnpackedFloat.div, Float.Model.UnpackedFloat.divCore, hstart, hamount,
      Nat.shiftLeft_eq]
    rw [show start = e - k by omega]
  have hscaled : m₁ * (2 : ℚ) ^ e₁ / (m₂ * (2 : ℚ) ^ e₂) =
      ((m₁ * 2 ^ shift : Nat) : ℚ) / m₂ * (2 : ℚ) ^ (e - k) := by
    have he₁ : e₁ = shift + (e - k) + e₂ := by omega
    rw [he₁, zpow_add₀ two_ne_zero, zpow_add₀ two_ne_zero, zpow_natCast]
    have hpos : (m₂ : ℚ) ≠ 0 := by exact_mod_cast h₂.ne'
    push_cast
    field_simp
  rw [hdiv]
  exact roundWithAccuracy_eq hm h₂ (hv.rounds h₂ hscaled) _

/-! ## Scaled numbers -/

/-- A power of two below the value bounds the exponent of its double from below. -/
theorem RoundsTo.exponent_lt (hv : RoundsTo v m e) (hm : Canonical m e) {t : Int}
    (ht : (2 : ℚ) ^ t ≤ v) : t < 53 + e :=
  (zpow_lt_zpow_iff_right₀ one_lt_two).mp (ht.trans_lt (hv.lt_pow hm))

/-- A power of two above the value bounds the exponent of its double from above. -/
theorem RoundsTo.lt_exponent (hv : RoundsTo v m e) (hm : Canonical m e) {t : Int}
    (ht : v < (2 : ℚ) ^ t) : e - 1 < t :=
  (zpow_lt_zpow_iff_right₀ one_lt_two).mp ((hv.le_pow hm).trans_lt ht)

/-- For exponents that are not negative, powers of ten are the larger ones. -/
theorem two_zpow_le_ten_zpow {t : Int} (ht : 0 ≤ t) : (2 : ℚ) ^ t ≤ 10 ^ t :=
  zpow_le_zpow_left₀ ht (by norm_num) (by norm_num)

/-- For exponents that are not positive, powers of two are the larger ones. -/
theorem ten_zpow_le_two_zpow {t : Int} (ht : t ≤ 0) : (10 : ℚ) ^ t ≤ 2 ^ t := by
  have h := two_zpow_le_ten_zpow (neg_nonneg.mpr ht)
  rw [zpow_neg, zpow_neg] at h
  exact (inv_le_inv₀ (by positivity) (by positivity)).mp h

/-- The exact way to read a decimal; the guards against huge powers do not apply to a decimal near a
float. -/
theorem ofScientific_eq {t : Int} (hm : Canonical m e) (hc : 0 < c)
    (hv : RoundsTo (c * (10 : ℚ) ^ t) m e) :
    UnpackedFloat.ofScientific Format.binary64 c t = .finite .positive m e hm.pos := by
  have hone : (1 : ℚ) ≤ c := by exact_mod_cast hc
  have hlowest := hm.lowest
  have hhighest := hm.highest
  rw [UnpackedFloat.ofScientific, dif_neg hc.ne']
  rcases le_or_gt 0 t with ht | ht
  · -- the number is at least `2 ^ t`, and a float near it is below `2 ^ (53 + e)`
    have hbound : t < 53 + e := by
      apply hv.exponent_lt hm
      calc (2 : ℚ) ^ t ≤ 10 ^ t := two_zpow_le_ten_zpow ht
        _ ≤ c * 10 ^ t := le_mul_of_one_le_left (by positivity) hone
    obtain ⟨n, rfl⟩ := Int.eq_ofNat_of_zero_le ht
    rw [if_neg (by norm_num; omega), if_neg (by norm_num; omega), if_pos ht]
    apply mul_eq hm
    · have : (0 : Int) < 53 + e := by
        apply hv.exponent_lt hm
        rw [zpow_zero]
        exact one_le_mul_of_one_le_of_one_le hone (one_le_zpow₀ (by norm_num) ht)
      show -53 + 0 ≤ e
      omega
    · have hscaled : ((c <<< 53 : Nat) : ℚ) * 2 ^ (-53 : Int) *
          (((10 ^ n : Nat) : ℚ) * 2 ^ (0 : Int)) = c * 10 ^ (n : Int) := by
        rw [Nat.shiftLeft_eq, zpow_natCast, zpow_neg]
        push_cast
        field_simp
      rw [← hscaled] at hv
      exact hv
  · -- the number is at most `c * 2 ^ t`, and a float near it has no less than the least exponent
    have hbound : -(1076 + c.log2 : Int) ≤ t := by
      have h : e - 1 < c.log2 + 1 + t := by
        apply hv.lt_exponent hm
        calc c * (10 : ℚ) ^ t ≤ c * 2 ^ t := by gcongr; exact ten_zpow_le_two_zpow ht.le
          _ < 2 ^ ((c.log2 : Int) + 1) * 2 ^ t := by gcongr; exact lt_two_pow_log2 c
          _ = 2 ^ ((c.log2 : Int) + 1 + t) := (zpow_add₀ two_ne_zero _ _).symm
      omega
    rw [if_neg (by norm_num; omega), if_neg (by norm_num; omega), if_neg ht.not_ge]
    apply div_eq hm
    have hscaled : (c : ℚ) * 2 ^ (0 : Int) / (((10 ^ (-t).toNat : Nat) : ℚ) * 2 ^ (0 : Int)) =
        c * 10 ^ t := by
      obtain ⟨n, hn⟩ := Int.eq_ofNat_of_zero_le (neg_nonneg.mpr ht.le)
      rw [show t = -(n : Int) by omega, neg_neg, Int.toNat_natCast, zpow_neg, zpow_natCast]
      push_cast
      field_simp
    rwa [hscaled]

/-! ## Short decimals -/

/-- Each entry of the table of powers of ten is the double of that power, exactly. -/
theorem powerOfTen_eq : ∀ (n : Nat) (hn : n < Float.exactlyRepresentablePowersOfTen.size),
    Binary.ofFloat Float.exactlyRepresentablePowersOfTen[n] =
      .finite false (10 ^ n * 2 ^ 52 / 2 ^ (10 ^ n).log2) ((10 ^ n).log2 - 52) ∧
    2 ^ (10 ^ n).log2 ∣ 10 ^ n * 2 ^ 52 := by
  decide +kernel

/-- The table of powers of ten is exact. -/
theorem unpack_powerOfTen (n : Nat) (hn : n < Float.exactlyRepresentablePowersOfTen.size) :
    ∃ m e, ∃ h : 0 < m,
      Float.exactlyRepresentablePowersOfTen[n].toModel.unpack = .finite .positive m e h ∧
        m * (2 : ℚ) ^ e = 10 ^ n ∧ e = (10 ^ n).log2 - 52 := by
  obtain ⟨hpower, q, hq⟩ := powerOfTen_eq n hn
  have hpos : 0 < 10 ^ n * 2 ^ 52 / 2 ^ (10 ^ n).log2 := by
    apply Nat.div_pos _ (by positivity)
    have hle : 2 ^ (10 ^ n).log2 ≤ 10 ^ n := Nat.log2_self_le (by positivity)
    exact hle.trans (Nat.le_mul_of_pos_right _ (by positivity))
  refine ⟨_, _, hpos, ?_, ?_, rfl⟩
  · rw [Binary.unpack_toModel, hpower, Binary.unpacked_of_pos hpos]
    rfl
  · rw [hq, Nat.mul_div_cancel_left _ (by positivity), zpow_sub₀ two_ne_zero, zpow_natCast]
    have hcast : ((10 : ℚ) ^ n) * 2 ^ 52 = 2 ^ (10 ^ n).log2 * q := by exact_mod_cast hq
    field_simp
    norm_num at hcast ⊢
    linarith

/-- A natural number with a mantissa's bits, shifted to have them all. -/
theorem canonical_shifted {k : Nat} (hc : 0 < c) (hk : c.log2 + k = 52) :
    Canonical (c * 2 ^ k) (c.log2 - 52) := by
  have hlow : 2 ^ 52 ≤ c * 2 ^ k := by
    rw [← hk, pow_add]
    exact Nat.mul_le_mul_right _ (Nat.log2_self_le hc.ne')
  have hhigh : c * 2 ^ k < 2 ^ 53 := by
    rw [show 53 = c.log2 + 1 + k by omega, pow_add]
    exact Nat.mul_lt_mul_of_pos_right Nat.lt_log2_self (by positivity)
  exact ⟨by positivity, hhigh, by omega, by omega, .inl hlow⟩

/-- A coefficient of at most 53 bits becomes a double without rounding. -/
theorem unpack_toFloat (hc : 0 < c) (hsmall : c < 2 ^ 53) : ∃ m, ∃ h : 0 < m,
    c.toUInt64.toFloat.toModel.unpack = .finite .positive m (c.log2 - 52) h ∧
      m * (2 : ℚ) ^ ((c.log2 : Int) - 52) = c := by
  have hlog : c.log2 ≤ 52 := Nat.lt_succ_iff.mp ((Nat.log2_lt hc.ne').mpr hsmall)
  -- the float has the bits of `c`, shifted up to the full length of a mantissa
  obtain ⟨k, hk⟩ : ∃ k, c.log2 + k = 52 := ⟨52 - c.log2, by omega⟩
  have hm := canonical_shifted hc hk
  have hvalue : ((c * 2 ^ k : Nat) : ℚ) * 2 ^ ((c.log2 : Int) - 52) = c := by
    rw [show (c.log2 : Int) - 52 = -(k : Int) by omega, zpow_neg, zpow_natCast]
    push_cast
    field_simp
  have hround : UnpackedFloat.ofNat Format.binary64 c = .finite .positive (c * 2 ^ k)
      (c.log2 - 52) hm.pos := by
    have hcompare : compare (c : Int) 0 = .gt := compare_gt_iff_gt.mpr (by exact_mod_cast hc)
    have hshift : (0 - Format.binary64.targetExponent (totalExponent c 0)).toNat = k := by
      rw [targetExponent_eq, totalExponent]
      omega
    have hexact : RoundsTo (((c * 2 ^ k : Nat) : ℚ) * 2 ^ ((c.log2 : Int) - 52)) (c * 2 ^ k)
        (c.log2 - 52) := .exact _ _
    have hunit : Rounds (c * 2 ^ k) (1 * 2 ^ 0) (c * 2 ^ k) (c.log2 - 52) :=
      hexact.rounds Nat.one_pos (by simp)
    have hrounded := roundWithAccuracy_eq hm Nat.one_pos hunit .positive
    rw [Nat.div_one, Nat.mod_one] at hrounded
    simp only [UnpackedFloat.ofNat, UnpackedFloat.ofInt, UnpackedFloat.normalize, hcompare,
      UnpackedFloat.round, UnpackedFloat.decreaseExponent, hshift, Nat.shiftLeft_eq,
      Int.toNat_natCast]
    rw [show (0 : Int) - k = c.log2 - 52 - (0 : Nat) by omega]
    exact hrounded
  have hmodel : c.toUInt64.toFloat.toModel =
      Float.Model.pack (UnpackedFloat.ofNat Format.binary64 c.toUInt64.toNat) := rfl
  have hword : c.toUInt64.toNat = c := by
    rw [UInt64.toNat_ofNat']
    exact Nat.mod_eq_of_lt (by omega)
  refine ⟨c * 2 ^ k, hm.pos, ?_, hvalue⟩
  rw [hmodel, hword, hround, Binary.unpack_pack_of_canonical hm]

/-- A product of two doubles is the double its exact value rounds to. -/
theorem unpack_mul {x y : Float} (hm : Canonical m e)
    (hx : x.toModel.unpack = .finite .positive m₁ e₁ h₁)
    (hy : y.toModel.unpack = .finite .positive m₂ e₂ h₂) (hle : e₁ + e₂ ≤ e)
    (hv : RoundsTo (m₁ * (2 : ℚ) ^ e₁ * (m₂ * (2 : ℚ) ^ e₂)) m e) :
    (x * y).toModel.unpack = .finite .positive m e hm.pos := by
  show (Float.Model.pack (UnpackedFloat.mul _ x.toModel.unpack y.toModel.unpack)).unpack = _
  rw [hx, hy, mul_eq hm hle hv]
  exact Binary.unpack_pack_of_canonical hm _

/-- A quotient of two doubles is the double its exact value rounds to. -/
theorem unpack_div {x y : Float} (hm : Canonical m e)
    (hx : x.toModel.unpack = .finite .positive m₁ e₁ h₁)
    (hy : y.toModel.unpack = .finite .positive m₂ e₂ h₂)
    (hv : RoundsTo (m₁ * (2 : ℚ) ^ e₁ / (m₂ * (2 : ℚ) ^ e₂)) m e) :
    (x / y).toModel.unpack = .finite .positive m e hm.pos := by
  show (Float.Model.pack (UnpackedFloat.div _ x.toModel.unpack y.toModel.unpack)).unpack = _
  rw [hx, hy, div_eq hm hv]
  exact Binary.unpack_pack_of_canonical hm _

/-- Whether it is read the quick or the exact way, a decimal near a float is read as this float. -/
theorem unpack_ofScientific (hm : Canonical m e) (hc : 0 < c) (below : Bool) (n : Nat)
    (hv : RoundsTo (c * (10 : ℚ) ^ (if below then -(n : Int) else n)) m e) :
    (Float.ofScientific c below n).toModel.unpack = .finite .positive m e hm.pos := by
  by_cases hquick : c < 2 ^ 53 ∧ n ≤ 22
  · obtain ⟨m₁, h₁, hfirst, hvalue₁⟩ := unpack_toFloat hc hquick.1
    obtain ⟨m₂, e₂, h₂, hsecond, hvalue₂, he₂⟩ := unpack_powerOfTen n (Nat.lt_succ_of_le hquick.2)
    rw [Float.ofScientific, dif_pos hquick]
    cases below with
    | true =>
      apply unpack_div hm hfirst hsecond
      rw [hvalue₁, hvalue₂]
      simpa [div_eq_mul_inv] using hv
    | false =>
      apply unpack_mul hm hfirst hsecond
      · -- both factors have all their bits, so their product has more than its result
        have hlength : (c.log2 : Int) + (10 ^ n).log2 < 53 + e := by
          apply hv.exponent_lt hm
          have hpower := two_pow_log2_le (show 0 < 10 ^ n by positivity)
          push_cast at hpower
          rw [zpow_add₀ two_ne_zero]
          simp only [Bool.false_eq_true, if_false, zpow_natCast]
          exact mul_le_mul (two_pow_log2_le hc) hpower (by positivity) (by positivity)
        omega
      · rw [hvalue₁, hvalue₂]
        simpa using hv
  · rw [Float.ofScientific, dif_neg hquick]
    have hexact := ofScientific_eq hm hc hv
    cases below <;> exact (congrArg Float.Model.unpack (congrArg Float.Model.pack hexact)).trans
      (Binary.unpack_pack_of_canonical hm _)

/-! ## Decimals -/

/-- The number that a decimal stands for. -/
def value (d : Decimal) : ℚ := d.coefficient * (10 : ℚ) ^ d.exponent

/-- A decimal that rounds to a canonical double has a figure that is not zero. -/
theorem RoundsTo.coefficient_pos {d : Decimal} (hv : RoundsTo d.value m e) (hm : Canonical m e) :
    0 < d.coefficient := by
  by_contra! hzero
  have hpos := hv.pos hm
  rw [value, Nat.le_zero.mp hzero] at hpos
  simp at hpos

theorem digitCount_pos (n : Nat) : 0 < digitCount n := Nat.length_toDigits_pos

/-- A number is below ten to its count of digits. -/
theorem lt_ten_pow_digitCount (n : Nat) : n < 10 ^ digitCount n :=
  (Nat.length_toDigits_le_iff (by decide) (digitCount_pos n)).mp le_rfl

/-- A number is at least ten to one less than its count of digits. -/
theorem ten_pow_le_of_digitCount {n : Nat} (hn : 0 < n) : 10 ^ (digitCount n - 1) ≤ n := by
  by_contra! hlt
  have hpos : 0 < digitCount n - 1 := by
    by_contra! hzero
    rw [Nat.le_zero.mp hzero, pow_zero] at hlt
    omega
  have hshorter : digitCount n ≤ digitCount n - 1 :=
    (Nat.length_toDigits_le_iff (by decide) hpos).mpr hlt
  omega

/-- The place of the leading digit bounds a decimal from both sides. -/
theorem value_bounds (d : Decimal) (hc : 0 < d.coefficient) :
    (10 : ℚ) ^ (digitCount d.coefficient + d.exponent - 1) ≤ d.value ∧
      d.value < 10 ^ (digitCount d.coefficient + d.exponent) := by
  have hpower : (0 : ℚ) < 10 ^ d.exponent := by positivity
  have hlow : (10 : ℚ) ^ (digitCount d.coefficient - 1) ≤ d.coefficient := by
    exact_mod_cast ten_pow_le_of_digitCount hc
  have hhigh : (d.coefficient : ℚ) < 10 ^ digitCount d.coefficient := by
    exact_mod_cast lt_ten_pow_digitCount d.coefficient
  have hcount := digitCount_pos d.coefficient
  constructor
  · rw [show (digitCount d.coefficient + d.exponent - 1 : Int) =
        ((digitCount d.coefficient - 1 : Nat) : Int) + d.exponent by omega,
      zpow_add₀ (by norm_num), zpow_natCast]
    exact mul_le_mul_of_nonneg_right hlow hpower.le
  · rw [zpow_add₀ (by norm_num), zpow_natCast]
    exact mul_lt_mul_of_pos_right hhigh hpower

/-- Negation turns the sign and nothing else. -/
theorem unpack_neg {x : Float} (hm : Canonical m e) (hx : x.toModel.unpack = .finite s m e hm.pos) :
    (-x).toModel.unpack = .finite (-s) m e hm.pos := by
  show (Float.Model.pack x.toModel.unpack.neg).unpack = _
  rw [hx]
  exact Binary.unpack_pack_of_canonical hm _

/-- No guard of the reading applies to a decimal near a float. -/
theorem unpack_toFloat_of_roundsTo (hm : Canonical m e) {d : Decimal} (hv : RoundsTo d.value m e)
    (negative : Bool) :
    (d.toFloat negative).toModel.unpack = .finite (signOf negative) m e hm.pos := by
  have hc := hv.coefficient_pos hm
  obtain ⟨hlow, hhigh⟩ := value_bounds d hc
  have hlowest := hm.lowest
  have hhighest := hm.highest
  generalize hsize : (digitCount d.coefficient + d.exponent : Int) = size at hlow hhigh
  -- sizes below -330 and above 310 are sizes of no float, so neither guard applies
  have hsmall : ¬ size < -330 := by
    intro hlt
    have hpower : (10 : ℚ) ^ size ≤ 10 ^ (-331 : Int) :=
      zpow_le_zpow_right₀ (by norm_num) (by omega)
    have htiny : e - 1 < -1075 := by
      apply hv.lt_exponent hm
      refine (hhigh.trans_le hpower).trans ?_
      have hnat : 2 ^ 1075 < 10 ^ 331 := by decide +kernel
      rw [zpow_neg, zpow_neg, inv_lt_inv₀ (by positivity) (by positivity)]
      exact_mod_cast hnat
    omega
  have hlarge : ¬ 310 < size := by
    intro hlt
    have hpower : (10 : ℚ) ^ (310 : Int) ≤ 10 ^ (size - 1) :=
      zpow_le_zpow_right₀ (by norm_num) (by omega)
    have hhuge : 1024 < 53 + e := by
      apply hv.exponent_lt hm
      refine le_trans ?_ (hpower.trans hlow)
      have hnat : 2 ^ 1024 ≤ 10 ^ 310 := by decide +kernel
      exact_mod_cast hnat
    omega
  have hmagnitude : (if 0 ≤ d.exponent then Float.ofScientific d.coefficient false d.exponent.toNat
      else Float.ofScientific d.coefficient true (-d.exponent).toNat).toModel.unpack =
        .finite .positive m e hm.pos := by
    split
    · rename_i hexponent
      apply unpack_ofScientific hm hc false
      show RoundsTo (d.coefficient * 10 ^ (d.exponent.toNat : Int)) m e
      rw [Int.toNat_of_nonneg hexponent]
      exact hv
    · rename_i hexponent
      apply unpack_ofScientific hm hc true
      show RoundsTo (d.coefficient * 10 ^ (-((-d.exponent).toNat : Int))) m e
      rw [Int.toNat_of_nonneg (by omega), neg_neg]
      exact hv
  have hguards : ¬ (d.coefficient = 0 ∨ size < -330) := by
    rintro (h | h)
    · omega
    · exact hsmall h
  unfold toFloat
  dsimp only
  rw [hsize, if_neg hguards, if_neg hlarge]
  cases negative with
  | true => exact unpack_neg hm hmagnitude
  | false => exact hmagnitude

/-- A decimal near a float is read as the float, with its sign. -/
theorem toFloat_eq {x : Float} {negative : Bool} (hx : Binary.ofFloat x = .finite negative m e)
    (hm : 0 < m) {d : Decimal} (hv : RoundsTo d.value m e) : d.toFloat negative = x := by
  have hcanonical := Binary.canonical_of_ofFloat hx hm
  apply Binary.eq_of_unpack
  rw [unpack_toFloat_of_roundsTo hcanonical hv, Binary.unpack_toModel, hx,
    Binary.unpacked_of_pos hm]

/-- A coefficient of zero reads as the zero of the sign it has. -/
theorem toFloat_zero_eq {x : Float} {negative : Bool}
    (hx : Binary.ofFloat x = .finite negative 0 e) {d : Decimal} (hd : d.coefficient = 0) :
    d.toFloat negative = x := by
  apply Binary.eq_of_unpack
  have hzero : d.toFloat negative = if negative then -0 else 0 := by
    simp [toFloat, hd]
  rw [hzero, Binary.unpack_toModel x, hx]
  cases negative <;> rfl

end FormulaDesk.Decimal
