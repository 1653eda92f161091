import FormulaDesk.Decimal.Layout
import FormulaDesk.Decimal.Numeral
import Mathlib.Algebra.Group.Int.Defs
import Mathlib.Algebra.Group.Nat.Defs
import Mathlib.Data.List.Basic
import Mathlib.Data.List.TakeWhile

/-! # Digit runs

What a run of decimal digits is worth, and what zeros before and behind it do to that. The digits
that are written for a number are a run that is worth the number and does not begin with a zero.
-/

namespace FormulaDesk

namespace Numeral

variable {ds : List Char} {n : Nat}

/-- Nothing but decimal digits. -/
def IsRun (ds : List Char) : Prop := ∀ c ∈ ds, Text.isAsciiDigit c = true

/-- A run as it stands before a point: some digits, of which the first is a zero only if it stands
alone. -/
structure IsWhole (ds : List Char) : Prop where
  run : IsRun ds
  ne_nil : ds ≠ []
  lead : ds = ['0'] ∨ ds.head? ≠ some '0'

/-- The digits of a number from its leading one on. -/
structure IsSignificant (ds : List Char) : Prop where
  run : IsRun ds
  ne_nil : ds ≠ []
  lead : ds.head? ≠ some '0'

/-- Figures without a leading zero are a whole number. -/
theorem IsSignificant.isWhole (h : IsSignificant ds) : IsWhole ds :=
  ⟨h.run, h.ne_nil, .inr h.lead⟩

/-- Two runs of digits are one. -/
theorem IsRun.append {es : List Char} (hds : IsRun ds) (hes : IsRun es) : IsRun (ds ++ es) := by
  intro c hc
  rcases List.mem_append.mp hc with hc | hc
  · exact hds c hc
  · exact hes c hc

/-- Zeros are a run of digits. -/
theorem IsRun.zeros (k : Nat) : IsRun (List.replicate k '0') := by
  intro c hc
  rw [List.eq_of_mem_replicate hc]
  rfl

theorem IsRun.of_append_left {es : List Char} (h : IsRun (ds ++ es)) : IsRun ds :=
  fun c hc => h c (List.mem_append_left es hc)

theorem IsRun.of_append_right {es : List Char} (h : IsRun (ds ++ es)) : IsRun es :=
  fun c hc => h c (List.mem_append_right ds hc)

/-- Figures stay without a leading zero when digits follow. -/
theorem IsSignificant.append (h : IsSignificant ds) {es : List Char} (hes : IsRun es) :
    IsSignificant (ds ++ es) := by
  refine ⟨h.run.append hes, List.append_ne_nil_of_left_ne_nil h.ne_nil _, ?_⟩
  rw [List.head?_append_of_ne_nil _ h.ne_nil]
  exact h.lead

/-- The first figures of a number have no leading zero either. -/
theorem IsSignificant.of_append {es : List Char} (h : IsSignificant (ds ++ es)) (hne : ds ≠ []) :
    IsSignificant ds := by
  refine ⟨h.run.of_append_left, hne, ?_⟩
  have hlead := h.lead
  rwa [List.head?_append_of_ne_nil _ hne] at hlead

/-- The digits of a number are digits. -/
theorem IsRun.toDigits (n : Nat) : IsRun (Nat.toDigits 10 n) := by
  intro c hc
  have hdigit := Nat.isDigit_of_mem_toDigits (by decide) (by decide) hc
  simpa [Text.isAsciiDigit, Char.isDigit, Char.le_def] using hdigit

/-- A positive number does not begin with a zero. -/
theorem head_toDigits (hn : 0 < n) : (Nat.toDigits 10 n).head? ≠ some '0' := by
  induction n using Nat.strongRecOn with
  | ind n ih =>
    rcases Nat.lt_or_ge n 10 with hlt | hge
    · rw [Nat.toDigits_of_lt_base hlt]
      have hdigits : ∀ d : Fin 10, 0 < d.val → some (Nat.digitChar d) ≠ some '0' := by decide
      exact hdigits ⟨n, hlt⟩ hn
    · rw [Nat.toDigits_of_base_le (by decide) hge,
        List.head?_append_of_ne_nil _ Nat.toDigits_ne_nil]
      exact ih (n / 10) (by omega) (by omega)

/-- The digits of a positive number have no leading zero. -/
theorem IsSignificant.toDigits (hn : 0 < n) : IsSignificant (Nat.toDigits 10 n) :=
  ⟨.toDigits n, Nat.toDigits_ne_nil, head_toDigits hn⟩

/-- The digits of a number are a whole number as it is written. -/
theorem IsWhole.toDigits (n : Nat) : IsWhole (Nat.toDigits 10 n) := by
  rcases Nat.eq_zero_or_pos n with rfl | hn
  · exact ⟨.toDigits 0, Nat.toDigits_ne_nil, .inl rfl⟩
  · exact (IsSignificant.toDigits hn).isWhole

/-- A power of ten has one digit more than its exponent says. -/
theorem lt_length_toDigits_pow {k : Nat} (hk : 0 < k) :
    k < (Nat.toDigits 10 (10 ^ k : Int).natAbs).length := by
  rw [Int.natAbs_pow]
  by_contra! hle
  exact lt_irrefl _ ((Nat.length_toDigits_le_iff (by decide) hk).mp hle)

/-! ## Values -/

/-- Reading the digits of a number gives the number. -/
theorem digitsValue_toDigits (n : Nat) : digitsValue (Nat.toDigits 10 n) = n :=
  Nat.ofDigitChars_ten_toDigits

/-- Zeros behind some digits multiply by a power of ten. -/
theorem digitsValue_append_zeros (ds : List Char) (k : Nat) :
    digitsValue (ds ++ List.replicate k '0') = 10 ^ k * digitsValue ds :=
  (Nat.ofDigitChars_append 0).trans Nat.ofDigitChars_replicate_zero

/-- Zeros in front of some digits change nothing. -/
theorem digitsValue_zeros_append (k : Nat) (ds : List Char) :
    digitsValue (List.replicate k '0' ++ ds) = digitsValue ds := by
  have hzeros : Nat.ofDigitChars 10 (List.replicate k '0') 0 = 0 :=
    Nat.ofDigitChars_replicate_zero
  show Nat.ofDigitChars 10 (List.replicate k '0' ++ ds) 0 = _
  rw [Nat.ofDigitChars_append, hzeros]
  rfl

end Numeral

namespace NumberStyle

open Numeral

/-- Only zeros are trimmed from a run that is worth something. -/
theorem trimZeros_append {ds : List Char} (hpos : 0 < digitsValue ds) :
    ∃ k, ds = trimZeros ds ++ List.replicate k '0' := by
  obtain ⟨k, hk⟩ : ∃ k, ds.reverse.takeWhile (· == '0') = List.replicate k '0' :=
    ⟨_, List.eq_replicate_of_mem fun c hc => by simpa using List.mem_takeWhile_imp hc⟩
  have hsplit : ds = (ds.reverse.dropWhile (· == '0')).reverse ++ List.replicate k '0' := by
    have h := congrArg List.reverse (List.takeWhile_append_dropWhile (p := (· == '0'))
      (l := ds.reverse))
    rw [hk, List.reverse_append, List.reverse_replicate, List.reverse_reverse] at h
    exact h.symm
  refine ⟨k, ?_⟩
  unfold trimZeros
  split
  · rename_i hnone
    rw [hsplit, hnone, digitsValue_append_zeros] at hpos
    exact absurd hpos (by simp [digitsValue])
  · rename_i hkept
    exact hsplit

/-- What is trimmed from the digits of a number is a power of ten. -/
theorem trimZeros_toDigits {n : Nat} (hn : 0 < n) : ∃ k,
    IsSignificant (trimZeros (Nat.toDigits 10 n)) ∧
      n = 10 ^ k * digitsValue (trimZeros (Nat.toDigits 10 n)) ∧
      (Nat.toDigits 10 n).length = (trimZeros (Nat.toDigits 10 n)).length + k := by
  have hvalue := digitsValue_toDigits n
  have hdigits := IsSignificant.toDigits hn
  obtain ⟨k, hk⟩ := trimZeros_append (hvalue.symm ▸ hn)
  generalize trimZeros (Nat.toDigits 10 n) = kept at hk ⊢
  rw [hk] at hvalue hdigits ⊢
  rw [digitsValue_append_zeros] at hvalue
  have hne : kept ≠ [] := by
    rintro rfl
    simp [digitsValue] at hvalue
    omega
  exact ⟨k, hdigits.of_append hne, hvalue.symm, by simp⟩

end NumberStyle

end FormulaDesk
