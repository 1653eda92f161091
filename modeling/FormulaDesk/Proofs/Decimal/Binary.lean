import Mathlib
import FormulaDesk.Decimal.Binary

/-! # Floats and their exact numbers

A finite float that is not zero is a sign and a canonical pair of mantissa and exponent
(`Canonical`): the mantissa has all its bits unless the exponent is the least one. The float is
determined by them (`eq_of_unpack`), and each canonical pair comes back from the bits it is packed
into (`unpack_pack_of_canonical`). What the library knows of these bits is imported by its root
module alone, and so is the whole of it here.
-/

namespace FormulaDesk.Binary

open Float.Model (UnpackedFloat Format)
open Float.Model.UnpackedFloat (Sign packComponents unpackMantissa unpackExponent unpackSign
  unpackMantissa_packComponents unpackExponent_packComponents unpackSign_packComponents)

variable {negative : Bool} {m : Nat} {e : Int} {x y : Float}

def signOf (negative : Bool) : Sign := if negative then .negative else .positive

/-! ## Bits -/

/-- The low 52 bits are the mantissa. -/
theorem toNat_unpackMantissa (b : BitVec Format.binary64.numBits) :
    (unpackMantissa b).toNat = b.toNat % 2 ^ 52 := by
  rw [Float.Model.UnpackedFloat.unpackMantissa_def, BitVec.extractLsb'_toNat, Nat.shiftRight_zero]

/-- The next 11 bits are the exponent. -/
theorem toNat_unpackExponent (b : BitVec Format.binary64.numBits) :
    (unpackExponent b).toNat = b.toNat / 2 ^ 52 % 2 ^ 11 := by
  rw [Float.Model.UnpackedFloat.unpackExponent_def, BitVec.extractLsb'_toNat,
    Nat.shiftRight_eq_div_pow]

theorem topBit_lt (b : BitVec Format.binary64.numBits) : b.toNat / 2 ^ 63 < 2 := by
  have hlt : b.toNat < 2 ^ 64 := b.isLt
  omega

/-- The top bit is the sign. -/
theorem toNat_unpackSign (b : BitVec Format.binary64.numBits) :
    (unpackSign b).toNat = b.toNat / 2 ^ 63 := by
  rw [Float.Model.UnpackedFloat.unpackSign_def, BitVec.extractLsb'_toNat,
    Nat.shiftRight_eq_div_pow]
  exact Nat.mod_eq_of_lt (topBit_lt b)

/-- The sign of the model is the sign read off the top bit. -/
theorem sign_eq (b : BitVec Format.binary64.numBits) :
    Sign.ofBitVec (unpackSign b) = signOf (decide (b.toNat / 2 ^ 63 = 1)) := by
  have hb := topBit_lt b
  have hzero : unpackSign b = 0#1 ↔ ¬ b.toNat / 2 ^ 63 = 1 := by
    rw [← BitVec.toNat_inj, toNat_unpackSign]
    simp only [BitVec.toNat_ofNat]
    omega
  by_cases h : b.toNat / 2 ^ 63 = 1 <;> simp [Sign.ofBitVec, hzero, signOf]

/-- The view of a float that the arithmetic of floats works on. -/
def unpacked : Binary → UnpackedFloat
  | .nan => .notANumber
  | .infinite negative => .infinity (signOf negative)
  | .finite negative m e =>
    if h : m = 0 then .zero (signOf negative)
    else .finite (signOf negative) m e (Nat.pos_of_ne_zero h)

theorem finite_congr {s : Sign} {m m' : Nat} {e e' : Int} {h : 0 < m} {h' : 0 < m'} (hm : m = m')
    (he : e = e') : UnpackedFloat.finite s m e h = .finite s m' e' h' := by
  subst hm he
  rfl

/-- The model's unpacking of some bits is the binary form read off them. -/
theorem unpack_eq_unpacked (b : BitVec Format.binary64.numBits) :
    Float.Model.UnpackedFloat.unpack Format.binary64 b = (ofBits b.toNat).unpacked := by
  have hones : unpackExponent b = -1#_ ↔ b.toNat / 2 ^ 52 % 2 ^ 11 = 2047 := by
    rw [← BitVec.toNat_inj, toNat_unpackExponent]
    rfl
  have hzero : unpackExponent b = 0#_ ↔ b.toNat / 2 ^ 52 % 2 ^ 11 = 0 := by
    rw [← BitVec.toNat_inj, toNat_unpackExponent]
    rfl
  have hfraction : unpackMantissa b = 0#_ ↔ b.toNat % 2 ^ 52 = 0 := by
    rw [← BitVec.toNat_inj, toNat_unpackMantissa]
    rfl
  have hbits : ofBits b.toNat =
      if b.toNat / 2 ^ 52 % 2 ^ 11 = 2047 then
        if b.toNat % 2 ^ 52 = 0 then .infinite (decide (b.toNat / 2 ^ 63 = 1)) else .nan
      else if b.toNat / 2 ^ 52 % 2 ^ 11 = 0 then
        .finite (decide (b.toNat / 2 ^ 63 = 1)) (b.toNat % 2 ^ 52) (-1074)
      else .finite (decide (b.toNat / 2 ^ 63 = 1)) (b.toNat % 2 ^ 52 + 2 ^ 52)
        ((b.toNat / 2 ^ 52 % 2 ^ 11 : Nat) - 1075) := rfl
  rw [hbits, Float.Model.UnpackedFloat.unpack]
  dsimp only
  rw [sign_eq]
  -- the same three cases on both sides: no number, a subnormal one, a normal one
  by_cases hfield : b.toNat / 2 ^ 52 % 2 ^ 11 = 2047
  · rw [if_pos (hones.mpr hfield), if_pos hfield]
    by_cases hm : b.toNat % 2 ^ 52 = 0
    · rw [if_pos (hfraction.mpr hm), if_pos hm]
      rfl
    · rw [if_neg (hfraction.not.mpr hm), if_neg hm]
      rfl
  · rw [if_neg (hones.not.mpr hfield), if_neg hfield]
    by_cases hleast : b.toNat / 2 ^ 52 % 2 ^ 11 = 0
    · rw [if_pos (hzero.mpr hleast), if_pos hleast]
      by_cases hm : b.toNat % 2 ^ 52 = 0
      · rw [dif_pos (hfraction.mpr hm), unpacked, dif_pos hm]
      · rw [dif_neg (hfraction.not.mpr hm), unpacked, dif_neg hm]
        apply finite_congr
        · rw [toNat_unpackMantissa]
        · rw [toNat_unpackExponent, hleast]
          rfl
    · -- a normal number: the mantissa has its implicit bit
      have hm : b.toNat % 2 ^ 52 + 2 ^ 52 ≠ 0 := by omega
      rw [if_neg (hzero.not.mpr hleast), if_neg hleast, unpacked, dif_neg hm]
      apply finite_congr
      · rw [BitVec.toNat_append, ← Nat.shiftLeft_add_eq_or_of_lt (unpackMantissa b).isLt,
          toNat_unpackMantissa, add_comm]
        rfl
      · rw [toNat_unpackExponent]
        rfl

/-- A double of the model unpacks to its binary form. -/
theorem unpack_toModel (x : Float) : x.toModel.unpack = (ofFloat x).unpacked :=
  unpack_eq_unpacked x.toBits.toBitVec

/-- A float is determined by its exact number. -/
theorem eq_of_unpack (h : x.toModel.unpack = y.toModel.unpack) : x = y := by
  rw [← Float.toBits_inj, ← UInt64.toBitVec_inj]
  exact (Float.Model.UnpackedFloat.unpack_inj_of_valid x.toModel.valid y.toModel.valid).mp h

/-! ## Canonical numbers -/

/-- The mantissas and exponents of the floats that are finite and not zero. -/
structure Canonical (m : Nat) (e : Int) : Prop where
  pos : 0 < m
  small : m < 2 ^ 53
  lowest : -1074 ≤ e
  highest : e ≤ 971
  normal : 2 ^ 52 ≤ m ∨ e = -1074

/-- The binary form of a double is canonical. -/
theorem canonical_of_ofFloat (h : ofFloat x = .finite negative m e) (hm : 0 < m) :
    Canonical m e := by
  have hbits : x.toBits.toNat < 2 ^ 64 := x.toBits.toBitVec.isLt
  unfold ofFloat ofBits at h
  simp only [Nat.pow_eq] at h
  split at h
  · split at h <;> cases h
  · split at h
    · cases h
      exact ⟨hm, by omega, le_rfl, by decide, .inr rfl⟩
    · cases h
      constructor <;> omega

/-- A mantissa with its top bit set has 53 bits. -/
theorem log2_of_normal (hlow : 2 ^ 52 ≤ m) (hsmall : m < 2 ^ 53) : m.log2 = 52 :=
  (Nat.log2_eq_iff (by omega)).mpr ⟨hlow, hsmall⟩

/-- A mantissa below the top bit has fewer than 53 bits. -/
theorem log2_of_subnormal (hsmall : m < 2 ^ 52) : m.log2 < 52 := by
  by_cases hm : m = 0
  · subst hm
    decide
  · exact (Nat.log2_lt hm).mpr hsmall

/-- Packing a normal canonical form is putting its bits together. -/
theorem pack_normal (h : Canonical m e) (hlow : 2 ^ 52 ≤ m) (s : Sign) :
    UnpackedFloat.pack Format.binary64 (.finite s m e h.pos) =
      packComponents Format.binary64 s (BitVec.ofNat 11 (e + 1075).toNat) (BitVec.ofNat 52 m) := by
  have hlowest := h.lowest
  have hhighest := h.highest
  have hbiased : (e + Format.binary64.exponentBias +
      Format.binary64.mantissaBitsWithoutImplicit).toNat = (e + 1075).toNat := by
    rw [add_assoc]
    rfl
  rw [UnpackedFloat.pack]
  dsimp only
  rw [hbiased, if_neg (by omega), log2_of_normal hlow h.small]
  exact if_pos rfl

/-- Packing a subnormal canonical form is putting its bits together under exponent zero. -/
theorem pack_subnormal (h : Canonical m (-1074)) (hsmall : m < 2 ^ 52) (s : Sign) :
    UnpackedFloat.pack Format.binary64 (.finite s m (-1074) h.pos) =
      packComponents Format.binary64 s 0 (BitVec.ofNat 52 m) := by
  have hlog := log2_of_subnormal hsmall
  have hbits : m.log2 + 1 ≠ Format.binary64.mantissaBits := by
    show m.log2 + 1 ≠ 53
    omega
  rw [UnpackedFloat.pack]
  dsimp only
  rw [if_neg (by decide), if_neg hbits]
  rfl

/-- A canonical number comes back from its bits. -/
theorem unpack_pack_of_canonical (h : Canonical m e) (s : Sign) :
    (Float.Model.pack (.finite s m e h.pos)).unpack = .finite s m e h.pos := by
  show UnpackedFloat.unpack Format.binary64 (UnpackedFloat.pack Format.binary64 _) = _
  have hlowest := h.lowest
  have hhighest := h.highest
  have hsmall := h.small
  -- a mantissa with all its bits has its first one left out, any other has the least exponent
  by_cases hlow : 2 ^ 52 ≤ m
  · rw [pack_normal h hlow, UnpackedFloat.unpack]
    simp only [unpackMantissa_packComponents, unpackExponent_packComponents,
      unpackSign_packComponents, Float.Model.UnpackedFloat.Sign.ofBitVec_toBitVec]
    have hexponent : (BitVec.ofNat 11 (e + 1075).toNat).toNat = (e + 1075).toNat := by
      rw [BitVec.toNat_ofNat, Nat.mod_eq_of_lt (by omega)]
    have hones : BitVec.ofNat 11 (e + 1075).toNat ≠ -1#_ := by
      rw [Ne, ← BitVec.toNat_inj, hexponent]
      show (e + 1075).toNat ≠ 2047
      omega
    have hzero : BitVec.ofNat 11 (e + 1075).toNat ≠ 0#_ := by
      rw [Ne, ← BitVec.toNat_inj, hexponent]
      show (e + 1075).toNat ≠ 0
      omega
    rw [if_neg hones, if_neg hzero]
    apply finite_congr
    · rw [BitVec.toNat_append, ← Nat.shiftLeft_add_eq_or_of_lt (BitVec.isLt _), BitVec.toNat_ofNat]
      show 2 ^ 52 + m % 2 ^ 52 = m
      omega
    · rw [hexponent]
      show ((e + 1075).toNat : Int) - 1075 = e
      omega
  · obtain rfl := h.normal.resolve_left hlow
    rw [pack_subnormal h (by omega), UnpackedFloat.unpack]
    simp only [unpackMantissa_packComponents, unpackExponent_packComponents,
      unpackSign_packComponents, Float.Model.UnpackedFloat.Sign.ofBitVec_toBitVec]
    have hmantissa : (BitVec.ofNat 52 m).toNat = m := by
      rw [BitVec.toNat_ofNat, Nat.mod_eq_of_lt (by omega)]
    have hzero : BitVec.ofNat 52 m ≠ 0#_ := by
      rw [Ne, ← BitVec.toNat_inj, hmantissa]
      exact h.pos.ne'
    rw [if_neg (by decide), if_pos (show (0 : BitVec 11) = 0#11 from rfl), dif_neg hzero]
    exact finite_congr hmantissa rfl

/-- A binary form with a positive mantissa unpacks to itself. -/
theorem unpacked_of_pos (hm : 0 < m) :
    (finite negative m e).unpacked = .finite (signOf negative) m e hm := by
  rw [unpacked, dif_neg hm.ne']

end FormulaDesk.Binary
