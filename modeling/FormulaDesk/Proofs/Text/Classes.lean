import FormulaDesk.Text.CharClass
import Mathlib.Data.List.Basic

/-! # Character classes that exclude each other

The classes are tables of ranges. Two tables with no range in common have no character in common,
which is how `isBlank`, `isLetter` and the digit classes are told apart.
-/

namespace FormulaDesk.Text

theorem covers_eq_true {ranges : List (Nat × Nat)} {n : Nat} (h : covers ranges n = true) :
    ∃ r ∈ ranges, r.1 ≤ n ∧ n ≤ r.2 := by
  induction ranges with
  | nil => simp [covers] at h
  | cons r rest ih =>
    obtain ⟨low, high⟩ := r
    rw [covers] at h
    split_ifs at h with hlow hhigh
    · exact ⟨(low, high), by simp, by simpa using hlow, hhigh⟩
    · obtain ⟨s, hs, hn⟩ := ih h
      exact ⟨s, by simp [hs], hn⟩

/-! The tables are ascending, so the search stops at the first range that is not below. -/

section

variable {low high n : Nat} {rest : List (Nat × Nat)}

theorem covers_cons_self (hlow : low ≤ n) (hhigh : n ≤ high) :
    covers ((low, high) :: rest) n = true := by
  rw [covers, if_neg (Nat.not_lt.mpr hlow), if_pos hhigh]

theorem covers_cons_below (h : n < low) : covers ((low, high) :: rest) n = false := by
  rw [covers, if_pos h]

theorem covers_cons_above (h : low ≤ high ∧ high < n) :
    covers ((low, high) :: rest) n = covers rest n := by
  rw [covers, if_neg (by omega), if_neg (by omega)]

end

/-- No range of the one table meets a range of the other. -/
def apart (ranges others : List (Nat × Nat)) : Bool :=
  ranges.all fun r => others.all fun s => r.2 < s.1 || s.2 < r.1

theorem covers_eq_false_of_apart {ranges others : List (Nat × Nat)} {n : Nat}
    (hapart : apart ranges others = true) (h : covers ranges n = true) :
    covers others n = false := by
  by_contra hcontra
  obtain ⟨r, hr, hlow, hhigh⟩ := covers_eq_true h
  obtain ⟨s, hs, hlow', hhigh'⟩ := covers_eq_true (by simpa using hcontra)
  have hrs := List.all_eq_true.mp (List.all_eq_true.mp hapart r hr) s hs
  simp only [Bool.or_eq_true, decide_eq_true_eq] at hrs
  omega

/-- White space is in no class of a word. -/
theorem isAlphanumeric_eq_false_of_isBlank {c : Char} (h : isBlank c = true) :
    isAlphanumeric c = false := by
  have hletter : isLetter c = false := covers_eq_false_of_apart (by decide +kernel) h
  have hdecimal : isDecimal c = false := covers_eq_false_of_apart (by decide +kernel) h
  have hdigit : covers digitMarkRanges c.toNat = false :=
    covers_eq_false_of_apart (by decide +kernel) h
  have hnumeric : covers numericMarkRanges c.toNat = false :=
    covers_eq_false_of_apart (by decide +kernel) h
  simp [isAlphanumeric, isDigit, hletter, hdecimal, hdigit, hnumeric]

/-! ## White space -/

theorem stripBlank_eq_self {cs : List Char} (h : ∀ c ∈ cs, isBlank c = false) :
    stripBlank cs = cs := by
  have hdrop : ∀ ds : List Char, (∀ c ∈ ds, isBlank c = false) →
      ds.dropWhile isBlank = ds := by
    intro ds hds
    cases ds with
    | nil => rfl
    | cons d ds => rw [List.dropWhile_cons_of_neg (by simp [hds d])]
  rw [stripBlank, hdrop cs h, hdrop _ (by simpa using h), List.reverse_reverse]

/-! ## ASCII -/

theorem toNat_of_isAsciiLetter {c : Char} (h : isAsciiLetter c = true) :
    65 ≤ c.toNat ∧ c.toNat ≤ 90 ∨ 97 ≤ c.toNat ∧ c.toNat ≤ 122 := by
  simp only [isAsciiLetter, Bool.or_eq_true, Bool.and_eq_true, decide_eq_true_eq, Char.le_def,
    UInt32.le_iff_toNat_le] at h
  have hval : c.toNat = c.val.toNat := rfl
  have ha : 'a'.val.toNat = 97 := rfl
  have hz : 'z'.val.toNat = 122 := rfl
  have hA : 'A'.val.toNat = 65 := rfl
  have hZ : 'Z'.val.toNat = 90 := rfl
  omega

theorem toNat_of_isAsciiDigit {c : Char} (h : isAsciiDigit c = true) :
    48 ≤ c.toNat ∧ c.toNat ≤ 57 := by
  simp only [isAsciiDigit, Bool.and_eq_true, decide_eq_true_eq, Char.le_def,
    UInt32.le_iff_toNat_le] at h
  have hval : c.toNat = c.val.toNat := rfl
  have h0 : '0'.val.toNat = 48 := rfl
  have h9 : '9'.val.toNat = 57 := rfl
  omega

/-- An ASCII letter is a letter, and neither a digit nor white space. -/
theorem classes_of_isAsciiLetter {c : Char} (h : isAsciiLetter c = true) :
    isLetter c = true ∧ isDigit c = false ∧ isBlank c = false := by
  have hn := toNat_of_isAsciiLetter h
  have hletter : isLetter c = true := by
    unfold isLetter letterRanges
    rcases hn with ⟨hlow, hhigh⟩ | ⟨hlow, hhigh⟩
    · exact covers_cons_self hlow hhigh
    · rw [covers_cons_above (by omega)]
      exact covers_cons_self hlow hhigh
  have hdecimal : isDecimal c = false := by
    unfold isDecimal decimalRanges
    rw [covers_cons_above (by omega)]
    exact covers_cons_below (by omega)
  have hdigit : covers digitMarkRanges c.toNat = false := covers_cons_below (by omega)
  have hblank : isBlank c = false := by
    unfold isBlank blankRanges
    rw [covers_cons_above (by omega), covers_cons_above (by omega)]
    exact covers_cons_below (by omega)
  exact ⟨hletter, by rw [isDigit, hdecimal, hdigit, Bool.or_false], hblank⟩

/-- An ASCII digit is a decimal digit, and neither a letter nor white space. -/
theorem classes_of_isAsciiDigit {c : Char} (h : isAsciiDigit c = true) :
    isDecimal c = true ∧ isLetter c = false ∧ isBlank c = false := by
  obtain ⟨hlow, hhigh⟩ := toNat_of_isAsciiDigit h
  have hblank : isBlank c = false := by
    unfold isBlank blankRanges
    rw [covers_cons_above (by omega), covers_cons_above (by omega)]
    exact covers_cons_below (by omega)
  exact ⟨covers_cons_self hlow hhigh, covers_cons_below (by omega), hblank⟩

end FormulaDesk.Text
