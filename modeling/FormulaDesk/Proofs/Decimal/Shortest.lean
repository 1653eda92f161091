import FormulaDesk.Proofs.Decimal.Reading

/-! # The shortest decimal of a float

The search for the fewest digits stops at a decimal in the basin of the float, or at seventeen
digits, which are always enough: so what it finds reads back as the float (`shortest_roundsTo`).
-/

namespace FormulaDesk.Decimal

open Binary (Canonical)

variable {m num den c : Nat} {e u : Int}

/-! ## Powers of either sign -/

theorem cast_pow_toNat {b : Nat} {t : Int} (ht : 0 ≤ t) :
    ((b ^ t.toNat : Nat) : ℚ) = (b : ℚ) ^ t := by
  rw [Nat.cast_pow, ← zpow_natCast, Int.toNat_of_nonneg ht]

theorem cast_pow_neg_toNat {b : Nat} {t : Int} (ht : t ≤ 0) :
    ((b ^ (-t).toNat : Nat) : ℚ) = ((b : ℚ) ^ t)⁻¹ := by
  rw [cast_pow_toNat (neg_nonneg.mpr ht), zpow_neg]

/-- The magnitude of a float as a quotient. -/
theorem quotient_eq (m : Nat) (e : Int) : ∃ unit den, Binary.quotient m e = (m * unit, den) ∧
    0 < unit ∧ 0 < den ∧ (unit : ℚ) = 2 ^ e * den := by
  unfold Binary.quotient
  split
  · rename_i he
    refine ⟨2 ^ e.toNat, 1, rfl, by positivity, Nat.one_pos, ?_⟩
    rw [cast_pow_toNat he]
    simp
  · rename_i he
    refine ⟨1, 2 ^ (-e).toNat, by rw [mul_one]; rfl, Nat.one_pos, by positivity, ?_⟩
    rw [cast_pow_neg_toNat (by omega)]
    field_simp
    simp

/-! ## Basins -/

/-- The comparison of a decimal with the bounds of a basin, over its denominator. -/
theorem Basin.bounds_of_holds {b : Basin} (h : b.holds c u = true) :
    let v : ℚ := c * 10 ^ u * b.den
    b.low ≤ v ∧ v ≤ b.high ∧ (b.closed = false → b.low < v ∧ v < b.high) := by
  intro v
  -- the comparison is one of whole numbers, on the scale that makes the power of ten whole
  obtain ⟨value, scale, hscale, hvalue, hholds⟩ : ∃ value scale : Nat, 0 < scale ∧
      (value : ℚ) = v * scale ∧ b.holds c u =
        if b.closed then decide (b.low * scale ≤ value ∧ value ≤ b.high * scale)
        else decide (b.low * scale < value ∧ value < b.high * scale) := by
    by_cases hu : 0 ≤ u
    · refine ⟨c * 10 ^ u.toNat * b.den, 1, Nat.one_pos, ?_, by simp only [holds, if_pos hu]; rfl⟩
      rw [Nat.cast_mul, Nat.cast_mul, cast_pow_toNat hu]
      simp [v]
    · refine ⟨c * b.den, 10 ^ (-u).toNat, by positivity, ?_, by simp only [holds, if_neg hu]; rfl⟩
      rw [cast_pow_neg_toNat (by omega), Nat.cast_mul]
      simp only [v]
      push_cast
      field_simp
  have hpos : (0 : ℚ) < scale := by exact_mod_cast hscale
  have hle (low : Nat) : low * scale ≤ value ↔ low ≤ v := by
    rw [← Nat.cast_le (α := ℚ), hvalue, Nat.cast_mul, mul_le_mul_iff_of_pos_right hpos]
  have hge (high : Nat) : value ≤ high * scale ↔ v ≤ high := by
    rw [← Nat.cast_le (α := ℚ), hvalue, Nat.cast_mul, mul_le_mul_iff_of_pos_right hpos]
  rw [hholds] at h
  cases hclosed : b.closed with
  | true =>
    rw [hclosed, if_pos rfl, decide_eq_true_iff, hle, hge] at h
    exact ⟨h.1, h.2, fun hopen => by cases hopen⟩
  | false =>
    rw [hclosed, if_neg (by simp), decide_eq_true_iff, ← not_le, hge, ← not_le, hle, not_le,
      not_le] at h
    exact ⟨h.1.le, h.2.le, fun _ => h⟩

/-- How far the basin of a float reaches below it, in quarters of the gap above. -/
def below (m : Nat) (e : Int) : Nat := if m = 2 ^ 52 ∧ e ≠ -1074 then 1 else 2

theorem below_le (m : Nat) (e : Int) : below m e ≤ 2 := by
  unfold below
  split <;> decide

theorem basin_eq {unit : Nat} (hm : 0 < m) (hquotient : Binary.quotient m e = (m * unit, den)) :
    Basin.of m e = ⟨4 * (m * unit) - below m e * unit, 4 * (m * unit) + 2 * unit, 4 * den,
      m % 2 == 0⟩ := by
  have hhalf : 2 * (m * unit / m) / 2 = 1 * unit := by
    rw [Nat.mul_div_cancel_left _ Nat.two_pos, Nat.mul_div_cancel_left _ hm, one_mul]
  unfold Basin.of below
  rw [hquotient]
  dsimp only
  rw [hhalf, Nat.mul_div_cancel_left _ hm, ite_mul]
  rfl

theorem roundsTo_of_holds (hm : 0 < m) (h : (Basin.of m e).holds c u = true) :
    RoundsTo (c * (10 : ℚ) ^ u) m e := by
  obtain ⟨unit, den, hquotient, hunit, hden, hvalue⟩ := quotient_eq m e
  obtain ⟨hlow, hhigh, hopen⟩ := Basin.bounds_of_holds h
  rw [basin_eq hm hquotient] at hlow hhigh hopen
  dsimp only at hlow hhigh hopen
  generalize (c : ℚ) * 10 ^ u = v at hlow hhigh hopen ⊢
  have hd : (0 : ℚ) < den := by exact_mod_cast hden
  have hsmall : below m e * unit ≤ 4 * (m * unit) := by
    rw [← mul_assoc]
    apply Nat.mul_le_mul_right
    have := below_le m e
    omega
  -- the bounds in quarters of the last place: half a place above, half or a quarter below
  have hlowCast : ((4 * (m * unit) - below m e * unit : Nat) : ℚ) =
      (4 * m - below m e) * 2 ^ e * den := by
    rw [Nat.cast_sub hsmall]
    push_cast
    rw [hvalue]
    ring
  have hhighCast : ((4 * (m * unit) + 2 * unit : Nat) : ℚ) = (4 * m + 2) * 2 ^ e * den := by
    push_cast
    rw [hvalue]
    ring
  have hscale : v * ((4 * den : Nat) : ℚ) = 4 * v * den := by
    push_cast
    ring
  rw [hlowCast, hscale, mul_le_mul_iff_of_pos_right hd] at hlow
  rw [hhighCast, hscale, mul_le_mul_iff_of_pos_right hd] at hhigh
  rw [hlowCast, hhighCast, hscale, mul_lt_mul_iff_of_pos_right hd,
    mul_lt_mul_iff_of_pos_right hd] at hopen
  have he : (0 : ℚ) < 2 ^ e := by positivity
  have hbelow : (below m e : ℚ) ≤ 2 := by exact_mod_cast below_le m e
  have hedge : (below m e : ℚ) * 2 ^ e ≤ 2 * 2 ^ e := by gcongr
  refine ⟨by linarith, by linarith, ?_, ?_⟩
  · intro hbound
    by_contra hodd
    obtain ⟨hlt, hgt⟩ := hopen (by simpa using hodd)
    rcases hbound with hbound | hbound <;> linarith
  · intro hpower hleast
    have hone : below m e = 1 := if_pos ⟨hpower, hleast⟩
    rw [hone, Nat.cast_one] at hlow
    exact hlow

/-! ## Seventeen digits -/

theorem roundDiv_error (hden : 0 < den) :
    2 * num ≤ 2 * (roundDiv num den * den) + den ∧
      2 * (roundDiv num den * den) ≤ 2 * num + den := by
  have hdiv : num / den * den + num % den = num := Nat.div_add_mod' num den
  have hlt : num % den < den := Nat.mod_lt num hden
  have hnext : (num / den + 1) * den = num / den * den + den := by ring
  unfold roundDiv
  dsimp only
  split_ifs <;> omega

theorem roundTo_error (hden : 0 < den) (u : Int) :
    2 * ((num : ℚ) / den) ≤ 2 * (roundTo num den u * 10 ^ u) + 10 ^ u ∧
      2 * ((roundTo num den u : ℚ) * 10 ^ u) ≤ 2 * (num / den) + 10 ^ u := by
  have hpower : (0 : ℚ) < 10 ^ u := by positivity
  -- the power of ten goes into the denominator or the numerator, as its exponent is
  obtain ⟨n, d, hd, hround, hquotient⟩ : ∃ n d, 0 < d ∧ roundTo num den u = roundDiv n d ∧
      (num : ℚ) / den * d = n * 10 ^ u := by
    by_cases hu : 0 ≤ u
    · refine ⟨num, den * 10 ^ u.toNat, by positivity, if_pos hu, ?_⟩
      rw [Nat.cast_mul, cast_pow_toNat hu]
      field_simp
      simp
    · refine ⟨num * 10 ^ (-u).toNat, den, hden, if_neg hu, ?_⟩
      rw [Nat.cast_mul, cast_pow_neg_toNat (by omega)]
      field_simp
      simp
  have hd' : (0 : ℚ) < d := by exact_mod_cast hd
  obtain ⟨hlow, hhigh⟩ := @roundDiv_error n d hd
  rw [hround]
  have hlow' : (2 * n : ℚ) ≤ 2 * (roundDiv n d * d) + d := by exact_mod_cast hlow
  have hhigh' : (2 * (roundDiv n d * d) : ℚ) ≤ 2 * n + d := by exact_mod_cast hhigh
  constructor <;> apply le_of_mul_le_mul_right _ hd' <;> nlinarith

theorem scaledLt_iff {shift : Int} :
    scaledLt num shift den = true ↔ (num : ℚ) * 10 ^ shift < den := by
  unfold scaledLt
  split
  · rename_i hshift
    have hcast : ((10 ^ shift.toNat : Nat) : ℚ) = 10 ^ shift := cast_pow_toNat hshift
    rw [decide_eq_true_iff, ← hcast]
    exact_mod_cast Iff.rfl
  · rename_i hshift
    have hcast : ((10 ^ (-shift).toNat : Nat) : ℚ) = (10 ^ shift)⁻¹ :=
      cast_pow_neg_toNat (by omega)
    rw [decide_eq_true_iff, ← lt_div_iff₀ (by positivity), div_eq_mul_inv, ← hcast]
    exact_mod_cast Iff.rfl

/-- The place of the leading digit is found. -/
theorem ten_pow_le_of_magnitude (hnum : 0 < num) (hden : 0 < den) :
    (10 : ℚ) ^ (magnitude num den - 1) ≤ num / den := by
  have hd : (0 : ℚ) < den := by exact_mod_cast hden
  have hcount := digitCount_pos num
  unfold magnitude
  dsimp only
  split
  · have hlow : (10 : ℚ) ^ (digitCount num - 1) ≤ num := by
      exact_mod_cast ten_pow_le_of_digitCount hnum
    have hhigh : (den : ℚ) ≤ 10 ^ digitCount den := by
      exact_mod_cast (lt_ten_pow_digitCount den).le
    rw [show (digitCount num - digitCount den - 1 : Int) =
        ((digitCount num - 1 : Nat) : Int) - digitCount den by omega,
      zpow_sub₀ (by norm_num), zpow_natCast, zpow_natCast]
    gcongr
  · rename_i hlarge
    rw [scaledLt_iff, not_lt, zpow_neg, ← div_eq_mul_inv, le_div_iff₀ (by positivity)] at hlarge
    rw [add_sub_cancel_right, le_div_iff₀ hd]
    linarith

/-- A rounding to seventeen digits is nearer than half of the gap between floats. -/
theorem seventeen_roundsTo (hm : Canonical m e) (hden : 0 < den)
    (hvalue : (num : ℚ) / den = m * 2 ^ e) :
    RoundsTo (roundTo num den (magnitude num den - 17) *
      (10 : ℚ) ^ (magnitude num den - 17)) m e := by
  have he : (0 : ℚ) < 2 ^ e := by positivity
  have hone : (1 : ℚ) ≤ m := by exact_mod_cast hm.pos
  have hsmall : (m : ℚ) ≤ 2 ^ 53 := by exact_mod_cast hm.small.le
  have hnum : 0 < num := by
    by_contra! hzero
    rw [Nat.le_zero.mp hzero, Nat.cast_zero, zero_div] at hvalue
    have : (0 : ℚ) < m * 2 ^ e := by positivity
    linarith
  have hplace := ten_pow_le_of_magnitude hnum hden
  obtain ⟨hlow, hhigh⟩ := @roundTo_error num den hden (magnitude num den - 17)
  rw [show magnitude num den - 1 = magnitude num den - 17 + 16 by ring,
    zpow_add₀ (by norm_num), hvalue] at hplace
  rw [hvalue] at hlow hhigh
  generalize (10 : ℚ) ^ (magnitude num den - 17) = p at hplace hlow hhigh ⊢
  have hdigits : (10 : ℚ) ^ (16 : Int) = 10000000000000000 := by norm_num
  rw [hdigits] at hplace
  -- the value is at least `10 ^ 16 * p` and less than `2 ^ 53 * 2 ^ e`
  have hgap : p < 2 ^ e := by
    have hlarge : (m : ℚ) * 2 ^ e ≤ 9007199254740992 * 2 ^ e := by gcongr; linarith
    linarith
  refine ⟨by linarith, by linarith, ?_, ?_⟩
  · rintro (heq | heq) <;> linarith
  · intro hpower _
    have hhalf : 2 * p < 2 ^ e := by
      have hlarge : (m : ℚ) * 2 ^ e = 4503599627370496 * 2 ^ e := by rw [hpower]; norm_num
      linarith
    linarith

/-! ## The search -/

theorem shortestFrom_roundsTo {b : Basin} {size : Int} {budget : Nat}
    (hholds : ∀ c u, b.holds c u = true → RoundsTo (c * (10 : ℚ) ^ u) m e) {places : Nat}
    (hlast : RoundsTo (roundTo num den (size - (places + budget : Nat)) *
      (10 : ℚ) ^ (size - (places + budget : Nat))) m e) :
    RoundsTo (shortestFrom b num den size places budget).value m e := by
  induction budget generalizing places with
  | zero => exact hlast
  | succ budget ih =>
    unfold shortestFrom
    dsimp only
    split
    · rename_i hnear
      exact hholds _ _ hnear
    · -- the other neighbour, whichever it is
      generalize (if roundTo num den (size - places) = floorTo num den (size - places) then
        floorTo num den (size - places) + 1 else floorTo num den (size - places)) = far
      split
      · rename_i hfar
        exact hholds _ _ hfar
      · apply ih
        rw [show places + 1 + budget = places + (budget + 1) by omega]
        exact hlast

/-- The shortest decimal of a float reads back as the float. -/
theorem shortest_roundsTo (hm : Canonical m e) : RoundsTo (shortest m e).value m e := by
  obtain ⟨unit, den, hquotient, -, hden, hvalue⟩ := quotient_eq m e
  have hd : (den : ℚ) ≠ 0 := by exact_mod_cast hden.ne'
  have hmagnitude : ((m * unit : Nat) : ℚ) / den = m * 2 ^ e := by
    rw [Nat.cast_mul, hvalue]
    field_simp
  unfold shortest
  rw [if_neg hm.pos.ne', hquotient]
  apply shortestFrom_roundsTo fun c u h => roundsTo_of_holds hm.pos h
  exact seventeen_roundsTo hm hden hmagnitude

end FormulaDesk.Decimal
