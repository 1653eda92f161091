import FormulaDesk.Json.Printer
import FormulaDesk.Json.Reader
import FormulaDesk.Proofs.Decimal.Digits
import FormulaDesk.Proofs.Decimal.Shortest

/-! # Numbers read back

A finite float that is written in the exchange notation is read as the same float, bit for bit
(`ofString?_float`); so is a whole number, as long as it has no more digits than the reader accepts
(`ofString?_int`).
-/

namespace FormulaDesk.Json

open Numeral

variable {ds tail whole : List Char} {negative : Bool}

/-! ## Runs of digits -/

/-- What comes after a run does not go on with it. -/
def Stops (tail : List Char) : Prop := ∀ c ∈ tail.head?, Text.isAsciiDigit c = false

theorem stops_nil : Stops [] := by
  rintro c ⟨⟩

/-- A run of digits is taken whole when something else stands behind it. -/
theorem takeWhile_run (hds : IsRun ds) (htail : Stops tail) :
    (ds ++ tail).takeWhile Text.isAsciiDigit = ds := by
  rw [List.takeWhile_append_of_pos hds]
  cases tail with
  | nil => simp
  | cons c cs => simp [htail c rfl]

/-- Behind a run of digits reading goes on with what is no digit. -/
theorem dropWhile_run (hds : IsRun ds) (htail : Stops tail) :
    (ds ++ tail).dropWhile Text.isAsciiDigit = tail := by
  rw [List.dropWhile_append_of_pos hds]
  cases tail with
  | nil => simp
  | cons c cs => simp [htail c rfl]

theorem takeWhile_all (hds : IsRun ds) : ds.takeWhile Text.isAsciiDigit = ds := by
  simpa using takeWhile_run hds stops_nil

theorem dropWhile_all (hds : IsRun ds) : ds.dropWhile Text.isAsciiDigit = [] := by
  simpa using dropWhile_run hds stops_nil

/-- A point with digits behind it is read as the decimal places. -/
theorem readFraction_point (hds : IsRun ds) (hne : ds ≠ []) (htail : Stops tail) :
    readFraction ('.' :: ds ++ tail) = some (ds, tail) := by
  simp [readFraction, takeWhile_run hds htail, dropWhile_run hds htail, hne]

/-- Sign and magnitude give the whole number back. -/
theorem applySign_natAbs (p : Int) : applySign (decide (p < 0)) p.natAbs = p := by
  by_cases hp : p < 0
  · rw [decide_eq_true hp, applySign, if_pos rfl]
    omega
  · rw [decide_eq_false hp, applySign, if_neg Bool.false_ne_true]
    omega

/-- A written power is read as the exponent it was written for. -/
theorem readPower_power (p : Int) : readPower (NumberStyle.power p) = some (p, []) := by
  -- an exponent of one digit is padded with a zero, which changes nothing of its value
  obtain ⟨ds, hds, hne, hvalue, htext⟩ : ∃ ds, IsRun ds ∧ ds ≠ [] ∧ digitsValue ds = p.natAbs ∧
      NumberStyle.power p = 'e' :: (if p < 0 then '-' else '+') :: ds := by
    refine ⟨_, ?_, ?_, ?_, rfl⟩
    · split
      · exact (IsRun.zeros 1).append (.toDigits _)
      · exact .toDigits _
    · split
      · exact List.cons_ne_nil _ _
      · exact Nat.toDigits_ne_nil
    · split
      · exact (digitsValue_zeros_append 1 _).trans (digitsValue_toDigits _)
      · exact digitsValue_toDigits _
  have hsign : splitSign ((if p < 0 then '-' else '+') :: ds) = (decide (p < 0), ds) := by
    split <;> simp_all [splitSign]
  rw [htext, readPower, hsign]
  simp [takeWhile_all hds, dropWhile_all hds, hne, hvalue, applySign_natAbs]

/-! ## Parts of a number -/

/-- The reader keeps the whole run before a point. -/
theorem kept_eq {c : Char} {cs : List Char} (h : IsWhole (c :: cs)) :
    (if c == '0' then ['0'] else c :: cs) = c :: cs := by
  rcases h.lead with h | h
  · rw [h, ite_self]
  · rw [if_neg (by simpa using h)]

/-- The characters are read, to their end, as a decimal that is worth the value. -/
def ReadsAs (cs : List Char) (v : ℚ) : Prop :=
  ∀ negative, ∃ d : Decimal, d.value = v ∧
    readNumber negative cs = some (.float (d.toFloat negative), [])

/-- A decimal is read part by part: whole digits, places, power. The condition says that one of the
last two is there, since without them the text is a whole number. -/
theorem readsAs_of_parts (hwhole : IsWhole whole) (htail : Stops tail)
    {fraction after : List Char} {p : Int}
    (hfraction : (readFraction tail).getD ([], tail) = (fraction, after))
    (hpower : (readPower after).getD (0, after) = (p, []))
    (hsome : (readFraction tail).isSome = true ∨ (readPower after).isSome = true) :
    ReadsAs (whole ++ tail) (digitsValue (whole ++ fraction) * 10 ^ (p - fraction.length)) := by
  refine fun negative => ⟨⟨digitsValue (whole ++ fraction), p - fraction.length⟩, rfl, ?_⟩
  unfold readNumber
  rw [takeWhile_run hwhole.run htail]
  obtain ⟨c, cs, rfl⟩ := List.exists_cons_of_ne_nil hwhole.ne_nil
  simp only [kept_eq hwhole, List.drop_left, hfraction, hpower, Bool.or_eq_true, hsome, if_true]

/-- A bare run is a whole number, unless it is too long. -/
theorem readNumber_whole (hwhole : IsWhole whole) : readNumber negative whole =
    if maxDigits < whole.length then none
    else some (.int (applySign negative (digitsValue whole)), []) := by
  unfold readNumber
  rw [takeWhile_all hwhole.run]
  obtain ⟨c, cs, rfl⟩ := List.exists_cons_of_ne_nil hwhole.ne_nil
  simp only [kept_eq hwhole, List.drop_length]
  rfl

/-! ## Layouts -/

variable {fraction kept : List Char}

/-- A point ends a run of digits. -/
theorem stops_point (cs : List Char) : Stops ('.' :: cs) := by
  rintro c ⟨⟩
  rfl

/-- A power ends a run of digits. -/
theorem stops_power (p : Int) : Stops (NumberStyle.power p) := by
  rintro c ⟨⟩
  rfl

/-- Digits with a point read as those digits, shifted by the places. -/
theorem readsAs_point (hwhole : IsWhole whole) (hfraction : IsRun fraction) (hne : fraction ≠ []) :
    ReadsAs (whole ++ '.' :: fraction)
      (digitsValue (whole ++ fraction) * 10 ^ (-(fraction.length : Int))) := by
  have hpoint : readFraction ('.' :: fraction) = some (fraction, []) := by
    simpa using readFraction_point hfraction hne stops_nil
  have hsplit : (readFraction ('.' :: fraction)).getD ([], '.' :: fraction) = (fraction, []) := by
    rw [hpoint]
    rfl
  have h := readsAs_of_parts hwhole (stops_point fraction) hsplit rfl (.inl (by rw [hpoint]; rfl))
  rwa [zero_sub] at h

/-- Digits with a power read as those digits, shifted by the power. -/
theorem readsAs_power (hwhole : IsWhole whole) (p : Int) :
    ReadsAs (whole ++ NumberStyle.power p) (digitsValue whole * 10 ^ p) := by
  have hfraction : (readFraction (NumberStyle.power p)).getD ([], NumberStyle.power p) =
      ([], NumberStyle.power p) := rfl
  have hpower := readPower_power p
  have h := readsAs_of_parts hwhole (stops_power p) hfraction (by rw [hpower]; rfl)
    (.inr (by rw [hpower]; rfl))
  rwa [List.append_nil, List.length_nil, Nat.cast_zero, sub_zero] at h

/-- Digits with a point and a power read as those digits, shifted by both. -/
theorem readsAs_point_power (hwhole : IsWhole whole) (hfraction : IsRun fraction)
    (hne : fraction ≠ []) (p : Int) :
    ReadsAs (whole ++ '.' :: fraction ++ NumberStyle.power p)
      (digitsValue (whole ++ fraction) * 10 ^ (p - fraction.length)) := by
  have hpoint : readFraction ('.' :: (fraction ++ NumberStyle.power p)) =
      some (fraction, NumberStyle.power p) := readFraction_point hfraction hne (stops_power p)
  have hsplit : (readFraction ('.' :: (fraction ++ NumberStyle.power p))).getD
      ([], '.' :: (fraction ++ NumberStyle.power p)) = (fraction, NumberStyle.power p) := by
    rw [hpoint]
    rfl
  have hpower := readPower_power p
  rw [List.append_assoc]
  exact readsAs_of_parts hwhole (stops_point _) hsplit (by rw [hpower]; rfl)
    (.inr (by rw [hpower]; rfl))

/-- The point before all digits, with zeros up to the first. -/
theorem readsAs_before (hkept : IsSignificant kept) (n : Nat) :
    ReadsAs ('0' :: '.' :: List.replicate n '0' ++ kept)
      (digitsValue kept * 10 ^ (-(n : Int) - kept.length)) := by
  have h := readsAs_point (.toDigits 0) ((IsRun.zeros n).append hkept.run)
    (List.append_ne_nil_of_right_ne_nil _ hkept.ne_nil)
  have hvalue : digitsValue (Nat.toDigits 10 0 ++ (List.replicate n '0' ++ kept)) =
      digitsValue kept := by
    rw [← List.append_assoc, show Nat.toDigits 10 0 = List.replicate 1 '0' from rfl,
      ← List.replicate_add, digitsValue_zeros_append]
  have hexponent : -((List.replicate n '0' ++ kept).length : Int) = -(n : Int) - kept.length := by
    rw [List.length_append, List.length_replicate]
    push_cast
    ring
  rw [hvalue, hexponent] at h
  exact h

/-- The point behind all digits, with zeros up to it and one after it. -/
theorem readsAs_behind (hkept : IsSignificant kept) (n : Nat) :
    ReadsAs (kept ++ List.replicate n '0' ++ ['.', '0'])
      (digitsValue kept * 10 ^ (n : Int)) := by
  have h := readsAs_point (hkept.append (.zeros n)).isWhole (IsRun.zeros 1) (List.cons_ne_nil _ _)
  have hvalue : (digitsValue (kept ++ List.replicate n '0' ++ List.replicate 1 '0') : ℚ) *
      10 ^ (-((List.replicate 1 '0').length : Int)) = digitsValue kept * 10 ^ (n : Int) := by
    rw [digitsValue_append_zeros, digitsValue_append_zeros, zpow_natCast, List.length_replicate]
    push_cast
    norm_num
    ring
  rw [hvalue] at h
  exact h

/-- The point between the digits. -/
theorem readsAs_between (hkept : IsSignificant kept) {n : Nat} (hpos : 0 < n)
    (hlen : n < kept.length) :
    ReadsAs (kept.take n ++ '.' :: kept.drop n)
      (digitsValue kept * 10 ^ ((n : Int) - kept.length)) := by
  have hsplit := List.take_append_drop n kept
  have hdigits : IsSignificant (kept.take n ++ kept.drop n) := hsplit.symm ▸ hkept
  have hne : kept.take n ≠ [] := by
    rw [Ne, List.take_eq_nil_iff, not_or]
    exact ⟨hpos.ne', hkept.ne_nil⟩
  have h := readsAs_point (hdigits.of_append hne).isWhole hdigits.run.of_append_right
    (by simpa using hlen)
  rw [hsplit, List.length_drop, Nat.cast_sub hlen.le, neg_sub] at h
  exact h

/-- The positional spelling of some figures reads as those figures at their leading place. -/
theorem readsAs_positional {style : NumberStyle} (hpoint : style.keepsPoint = true)
    (hkept : IsSignificant kept) (leading : Int) :
    ReadsAs (style.positional kept leading)
      (digitsValue kept * 10 ^ (leading + 1 - kept.length)) := by
  unfold NumberStyle.positional
  -- the point stands before the digits, behind them or between them
  by_cases hneg : leading < 0
  · have h := readsAs_before hkept (-leading - 1).toNat
    rw [show -(((-leading - 1).toNat : Nat) : Int) = leading + 1 by omega] at h
    rw [if_pos hneg]
    exact h
  · obtain ⟨n, rfl⟩ := Int.eq_ofNat_of_zero_le (not_lt.mp hneg)
    rw [if_neg hneg, Int.toNat_natCast]
    dsimp only
    by_cases hlen : kept.length ≤ n + 1
    · have h := readsAs_behind hkept (n + 1 - kept.length)
      rw [Nat.cast_sub hlen, Nat.cast_succ] at h
      rw [if_pos hlen, if_pos hpoint]
      exact h
    · have h := readsAs_between hkept n.succ_pos (not_le.mp hlen)
      rw [Nat.cast_succ] at h
      rw [if_neg hlen]
      exact h

/-- The scientific spelling of some figures reads as those figures at their leading place. -/
theorem readsAs_scientific (hkept : IsSignificant kept) (leading : Int) :
    ReadsAs (NumberStyle.scientific kept leading)
      (digitsValue kept * 10 ^ (leading + 1 - kept.length)) := by
  obtain ⟨c, cs, rfl⟩ := List.exists_cons_of_ne_nil hkept.ne_nil
  have hfirst : IsSignificant [c] :=
    IsSignificant.of_append (show IsSignificant ([c] ++ cs) from hkept) (List.cons_ne_nil _ _)
  -- a single digit has no point behind it
  cases cs with
  | nil =>
    have h := readsAs_power hfirst.isWhole leading
    rw [show leading + 1 - ([c].length : Int) = leading from add_sub_cancel_right leading 1]
    exact h
  | cons c' cs =>
    have hrest : IsRun (c' :: cs) := fun d hd => hkept.run d (List.mem_cons_of_mem c hd)
    have h := readsAs_point_power hfirst.isWhole hrest (List.cons_ne_nil _ _) leading
    rw [show leading + 1 - ((c :: c' :: cs).length : Int) = leading - (c' :: cs).length by
      rw [List.length_cons]; push_cast; ring]
    exact h

/-- A style that keeps the point writes a decimal so that it is read as one of the same value. -/
theorem readsAs_magnitude {style : NumberStyle} (hpoint : style.keepsPoint = true) {d : Decimal}
    (hd : 0 < d.coefficient) : ReadsAs (style.magnitude d) d.value := by
  obtain ⟨k, hkept, hvalue, hlength⟩ := NumberStyle.trimZeros_toDigits hd
  unfold NumberStyle.magnitude
  simp only [if_neg hd.ne', hlength]
  generalize NumberStyle.trimZeros (Nat.toDigits 10 d.coefficient) = kept at hkept hvalue ⊢
  -- the zeros that are trimmed move into the exponent
  have hsame : d.value = digitsValue kept *
      10 ^ (((kept.length + k : Nat) : Int) + d.exponent - 1 + 1 - kept.length) := by
    have hexponent : ((kept.length + k : Nat) : Int) + d.exponent - 1 + 1 - kept.length =
        k + d.exponent := by
      push_cast
      ring
    rw [hexponent, zpow_add₀ (by norm_num), zpow_natCast, Decimal.value, hvalue]
    push_cast
    ring
  rw [hsame]
  split
  · exact readsAs_positional hpoint hkept _
  · exact readsAs_scientific hkept _

/-! ## Whole texts -/

/-- A digit is another character than one that is no digit. -/
theorem ne_of_isAsciiDigit {c d : Char} (hc : Text.isAsciiDigit c = true)
    (hd : Text.isAsciiDigit d = false) : c ≠ d := by
  rintro rfl
  rw [hc] at hd
  cases hd

/-- No word has a digit among its first two characters. -/
theorem readWord_eq_none {cs : List Char} (hcs : (cs.take 2).any Text.isAsciiDigit = true) :
    readWord cs = none := by
  have hwords : readWord.words.all (fun entry => decide (2 ≤ entry.1.toList.length) &&
      !(entry.1.toList.take 2).any Text.isAsciiDigit) = true := by decide +kernel
  refine List.findSome?_eq_none_iff.mpr fun entry hentry => ?_
  have hword := List.all_eq_true.mp hwords entry hentry
  rw [Bool.and_eq_true, decide_eq_true_eq, Bool.not_eq_true'] at hword
  have hmiss : ¬ entry.1.toList.isPrefixOf cs = true := by
    intro hprefix
    obtain ⟨rest, rfl⟩ := List.isPrefixOf_iff_prefix.mp hprefix
    rw [List.take_append_of_le_length hword.1, hword.2] at hcs
    cases hcs
  dsimp only
  rw [dropWord?, if_neg hmiss, Option.map_none]

/-- The text of a number, signed or not, is read as a number and not as anything else. -/
theorem readValue_signed {c : Char} {cs : List Char} (hc : Text.isAsciiDigit c = true)
    (fuel : Nat) :
    readValue (fuel + 1) (if negative then '-' :: c :: cs else c :: cs) =
      readNumber negative (c :: cs) := by
  cases negative with
  | true =>
    have hword : readWord ('-' :: c :: cs) = none := readWord_eq_none (by simp [hc])
    simp [readValue, hword]
  | false =>
    have hword : readWord (c :: cs) = none := readWord_eq_none (by simp [hc])
    have hquote : c ≠ '"' := ne_of_isAsciiDigit hc rfl
    have hbracket : c ≠ '[' := ne_of_isAsciiDigit hc rfl
    have hbrace : c ≠ '\x7b' := ne_of_isAsciiDigit hc rfl
    have hminus : c ≠ '-' := ne_of_isAsciiDigit hc rfl
    simp [readValue, hword, hminus]

/-- A text that begins with a digit, behind a sign or not, is what the number reader says. -/
theorem ofString?_signed (hds : ds.head?.any Text.isAsciiDigit = true) :
    ofString? (NumberStyle.signed negative ds) = (readNumber negative ds).bind fun found =>
      if (skipSpace found.2).isEmpty then some found.1 else none := by
  obtain ⟨c, cs, rfl⟩ : ∃ c cs, ds = c :: cs := by
    cases ds with
    | nil => cases hds
    | cons c cs => exact ⟨c, cs, rfl⟩
  have hc : Text.isAsciiDigit c = true := hds
  -- neither a sign nor a digit is white space
  have hspace : skipSpace (if negative then '-' :: c :: cs else c :: cs) =
      if negative then '-' :: c :: cs else c :: cs := by
    cases negative with
    | true => rfl
    | false =>
      have hfirst : isSpace c = false := by
        simp only [isSpace, Bool.or_eq_false_iff, beq_eq_false_iff_ne]
        exact ⟨⟨⟨ne_of_isAsciiDigit hc rfl, ne_of_isAsciiDigit hc rfl⟩,
          ne_of_isAsciiDigit hc rfl⟩, ne_of_isAsciiDigit hc rfl⟩
      simp [skipSpace, hfirst]
  rw [ofString?, NumberStyle.signed, String.toList_ofList, ofChars?, hspace, readValue_signed hc]
  rfl

/-- Every number begins with a digit. -/
theorem head_of_readNumber {found : Json × List Char} (h : readNumber negative ds = some found) :
    ds.head?.any Text.isAsciiDigit = true := by
  cases ds with
  | nil => cases h
  | cons c cs =>
    by_contra hc
    have hc : Text.isAsciiDigit c = false := by simpa using hc
    simp [readNumber, hc] at h

/-- The shortest text of a double is read back as that double. -/
theorem readNumber_shortest {x : Float} {m : Nat} {e : Int}
    (hx : Binary.ofFloat x = .finite negative m e) :
    readNumber negative (NumberStyle.magnitude ⟨16, true⟩ (Decimal.shortest m e)) =
      some (.float x, []) := by
  rcases Nat.eq_zero_or_pos m with rfl | hm
  · -- zero has no leading digit, and is written with a point all the same
    have hlayout : NumberStyle.magnitude ⟨16, true⟩ (Decimal.shortest 0 e) =
        Nat.toDigits 10 0 ++ '.' :: List.replicate 1 '0' := by
      rw [show Decimal.shortest 0 e = ⟨0, 0⟩ from if_pos rfl]
      decide
    obtain ⟨d, hd, hread⟩ :=
      readsAs_point (.toDigits 0) (IsRun.zeros 1) (List.cons_ne_nil _ _) negative
    have hpower : (10 : ℚ) ^ d.exponent ≠ 0 := zpow_ne_zero _ (by norm_num)
    have hzero : d.coefficient = 0 := by simpa [Decimal.value, digitsValue, hpower] using hd
    rw [hlayout, hread, Decimal.toFloat_zero_eq hx hzero]
  · have hcanonical := Binary.canonical_of_ofFloat hx hm
    have hrounds := Decimal.shortest_roundsTo hcanonical
    have hpoint : NumberStyle.keepsPoint ⟨16, true⟩ = true := rfl
    obtain ⟨d, hvalue, hread⟩ :=
      readsAs_magnitude hpoint (hrounds.coefficient_pos hcanonical) negative
    rw [hread, Decimal.toFloat_eq hx hm (hvalue ▸ hrounds)]

/-- A finite float is written so that it is read back, bit for bit. -/
theorem ofString?_float {x : Float} (hx : (Binary.ofFloat x).isFinite = true) (layout : Layout) :
    ofString? ((Json.float x).render layout) = some (.float x) := by
  obtain ⟨negative, m, e, hfinite⟩ : ∃ negative m e, Binary.ofFloat x = .finite negative m e := by
    cases h : Binary.ofFloat x with
    | finite negative m e => exact ⟨negative, m, e, rfl⟩
    | nan => simp [h, Binary.isFinite] at hx
    | infinite negative => simp [h, Binary.isFinite] at hx
  have htext : (Json.float x).render layout = NumberStyle.signed negative
      (NumberStyle.magnitude ⟨16, true⟩ (Decimal.shortest m e)) := by
    rw [render, renderAt, floatToken, hfinite]
    dsimp only
    rw [floatText, hfinite]
    rfl
  have hread := readNumber_shortest hfinite
  rw [htext, ofString?_signed (head_of_readNumber hread), hread]
  rfl

/-- A whole number is read back unless it has too many digits; then it is no value at all. -/
theorem ofString?_int (n : Int) (layout : Layout) :
    ofString? ((Json.int n).render layout) =
      if maxDigits < (Nat.toDigits 10 n.natAbs).length then none else some (.int n) := by
  have htext : (Json.int n).render layout =
      NumberStyle.signed (decide (n < 0)) (Nat.toDigits 10 n.natAbs) := by
    rw [render, renderAt, Int.toString_eq_repr, Int.repr_eq_if]
    by_cases hn : n < 0
    · rw [if_neg (not_le.mpr hn), show (-n).toNat = n.natAbs by omega, decide_eq_true hn]
      exact String.toList_inj.mp (by simp [NumberStyle.signed])
    · rw [if_pos (not_lt.mp hn), show n.toNat = n.natAbs by omega, decide_eq_false hn]
      exact String.toList_inj.mp (by simp [NumberStyle.signed])
  have hwhole := IsWhole.toDigits n.natAbs
  have hhead : (Nat.toDigits 10 n.natAbs).head?.any Text.isAsciiDigit = true := by
    obtain ⟨c, cs, hcons⟩ := List.exists_cons_of_ne_nil hwhole.ne_nil
    rw [hcons]
    exact hwhole.run c (hcons ▸ List.mem_cons_self)
  rw [htext, ofString?_signed hhead, readNumber_whole hwhole]
  split
  · rfl
  · rw [digitsValue_toDigits, applySign_natAbs]
    rfl

end FormulaDesk.Json
