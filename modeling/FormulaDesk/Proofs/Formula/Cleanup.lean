import FormulaDesk.Proofs.Dialect.Settled
import FormulaDesk.Proofs.Formula.Printing

/-! # The evaluable text of a formula

The clean-up takes the blank out of a printed formula and leaves the rest as it is, so a conversion
gives the text of the formula without gaps.
-/

namespace FormulaDesk

open Markup Dialect

namespace Formula

theorem callName_facts (fn : Fn) : fn.callName.toList.all Text.isWord = true ∧
    Unsplit fn.callName.toList := by
  cases fn <;> decide

theorem settled_inParens {s : String} (h : Settled s.toList) : Settled (inParens s).toList := by
  simpa [inParens] using h.parens

theorem settled_inParensIf {s : String} (needed : Bool) (h : Settled s.toList) :
    Settled (inParensIf needed s).toList := by
  cases needed with
  | true => exact settled_inParens h
  | false => exact h

theorem settled_call {f s : String} (hword : f.toList.all Text.isWord = true)
    (hsplit : Unsplit f.toList) (h : Settled s.toList) : Settled (f ++ inParens s).toList := by
  simpa [inParens] using h.call (List.all_eq_true.mp hword) hsplit

theorem settled_callOf (fn : Fn) {s : String} (h : Settled s.toList) :
    Settled (callOf fn s).toList := by
  obtain ⟨hword, hsplit⟩ := callName_facts fn
  have hcall : Settled (fn.callName ++ inParens s).toList :=
    settled_call hword hsplit h
  unfold callOf
  split
  -- a slash follows the digit, so no star is put behind it
  · have hone : Settled ['1'] := .figures (List.all_eq_true.mp (by decide))
    have hquotient := hone.around_mark (c := '/') rfl hcall
    exact settled_inParens (by simpa using hquotient)
  · exact hcall

/-- The clean-up passes leave the text of a formula alone. -/
theorem settled (a : Formula) : Settled (a.text "").toList := by
  induction a with
  | numeral n =>
    refine .figures fun c hc => ?_
    simpa [isFigure] using n.mem_text hc
  | var v => simpa [text] using Settled.letter v.isLetter
  | euler =>
    -- the point stands between two words, so neither `math.e` nor `e` is split or called
    have hmath : Settled "math".toList :=
      .word (List.all_eq_true.mp (by decide)) (by decide) (by decide)
    have he : Settled "e".toList := .word (List.all_eq_true.mp (by decide)) (by decide) (by decide)
    exact hmath.around_mark (c := '.') rfl he
  | pi => exact .word (List.all_eq_true.mp (by decide)) (by decide) (by decide)
  | sum a b iha ihb =>
    simpa [text] using (settled_inParensIf a.isCompound iha).around_mark (c := '+') rfl
      (settled_inParensIf b.isCompound ihb)
  | difference a b iha ihb =>
    simpa [text] using (settled_inParensIf a.isCompound iha).around_mark (c := '-') rfl
      (settled_inParensIf b.isCompound ihb)
  | negation a ih =>
    simpa [text] using (settled_inParensIf a.isCompound ih).after_mark (c := '-') rfl
  | product dotted a b iha ihb =>
    simpa [text] using (settled_inParensIf a.isCompound iha).around_mark (c := '*') rfl
      (settled_inParensIf b.isCompound ihb)
  | quotient a b iha ihb =>
    simpa [text] using (settled_inParensIf a.isCompound iha).around_mark (c := '/') rfl
      (settled_inParensIf (b.isCompound || b.isFraction) ihb)
  | fraction a b iha ihb =>
    simpa [text] using (settled_inParens iha).around_mark (c := '/') rfl (settled_inParens ihb)
  | power a b iha ihb =>
    have hexponent := settled_inParens ihb
    rw [text]
    split
    · exact settled_call (by decide) (by decide) ihb
    -- the second star of the two belongs to the exponent
    · have hbase := settled_inParensIf (a.isCompound || a.isPower || a.isFraction) iha
      simpa using hbase.around_mark (c := '*') rfl (hexponent.after_mark (c := '*') rfl)
  | sqrt a ih => exact settled_call (by decide) (by decide) ih
  | root index a ihindex ih =>
    have hone : Settled ['1'] := .figures (List.all_eq_true.mp (by decide))
    have hindex := hone.around_mark (c := '/') rfl
      (settled_inParensIf (!index.isSimpleIndex) ihindex)
    have harguments := ih.around_mark (c := ',') rfl hindex
    have hcall := harguments.call (w := "pow".toList) (List.all_eq_true.mp (by decide)) (by decide)
    simpa [text] using hcall
  | abs a ih =>
    have hcall := ih.call (w := "abs".toList) (List.all_eq_true.mp (by decide)) (by decide)
    simpa [text] using hcall
  | apply fn a ih => exact settled_callOf fn ih

/-! ## Blanks -/

theorem squeezes_inParensIf {s t : String} (h : Squeezes s t) (needed : Bool) :
    Squeezes (inParensIf needed s) (inParensIf needed t) := by
  cases needed with
  | true => exact h.inParens
  | false => exact h

theorem squeezes_callOf {s t : String} (h : Squeezes s t) (fn : Fn) :
    Squeezes (callOf fn s) (callOf fn t) := by
  have hname : Squeezes fn.callName fn.callName := squeezes_self (by cases fn <;> decide)
  have hcall := hname.append h.inParens
  unfold Formula.callOf
  split
  · have hone : Squeezes "1/" "1/" := squeezes_self (by decide)
    simpa [String.append_assoc] using (hone.append hcall).inParens
  · exact hcall

theorem squeezes_numeral (n : Numeral) : Squeezes n.text n.text := by
  refine squeezes_self (List.any_eq_false.mpr fun c hc => ?_)
  rw [Bool.not_eq_true]
  rcases n.mem_text hc with hdigit | rfl
  · exact (Text.classes_of_isAsciiDigit hdigit).2.2
  · decide

/-- The gap between arguments is all that the text has of blanks. -/
theorem squeezes_text (a : Formula) : Squeezes (a.text " ") (a.text "") := by
  induction a with
  | numeral n => exact squeezes_numeral n
  | var v =>
    refine squeezes_self (List.any_eq_false.mpr fun c hc => ?_)
    rw [Bool.not_eq_true]
    have hc : c = v.char := by simpa [text] using hc
    exact hc ▸ (Text.classes_of_isAsciiLetter v.isLetter).2.2
  | euler =>
    have he : Squeezes "math.e" "math.e" := squeezes_self (by decide)
    exact he
  | pi =>
    have hpi : Squeezes "pi" "pi" := squeezes_self (by decide)
    exact hpi
  | sum a b iha ihb =>
    exact ((squeezes_inParensIf iha _).append (squeezes_self (by decide))).append
      (squeezes_inParensIf ihb _)
  | difference a b iha ihb =>
    exact ((squeezes_inParensIf iha _).append (squeezes_self (by decide))).append
      (squeezes_inParensIf ihb _)
  | negation a ih => exact (squeezes_self (by decide)).append (squeezes_inParensIf ih _)
  | product dotted a b iha ihb =>
    exact ((squeezes_inParensIf iha _).append (squeezes_self (by decide))).append
      (squeezes_inParensIf ihb _)
  | quotient a b iha ihb =>
    exact ((squeezes_inParensIf iha _).append (squeezes_self (by decide))).append
      (squeezes_inParensIf ihb _)
  | fraction a b iha ihb =>
    exact (iha.inParens.append (squeezes_self (by decide))).append ihb.inParens
  | power a b iha ihb =>
    rw [text, text]
    split
    · exact (squeezes_self (by decide)).append ihb.inParens
    · exact ((squeezes_inParensIf iha _).append (squeezes_self (by decide))).append ihb.inParens
  | sqrt a ih => exact (squeezes_self (by decide)).append ih.inParens
  | root index a ihindex ih =>
    -- the one place where the two texts differ
    have hcomma : Squeezes ("," ++ " ") ("," ++ "") := rfl
    have hpow : Squeezes "pow(" "pow(" := squeezes_self (by decide)
    exact ((((hpow.append ih).append hcomma).append (squeezes_self (by decide))).append
      (squeezes_inParensIf ihindex _)).append (squeezes_self (by decide))
  | abs a ih =>
    exact ((squeezes_self (by decide)).append ih).append (squeezes_self (by decide))
  | apply fn a ih => exact squeezes_callOf ih fn

/-! ## Conversion -/

/-- The conversion of a formula is its text. -/
theorem convert_markup {a : Formula} (h : WithinLimit a.markup) :
    evaluable.convert a.markup = a.text "" := by
  have hprint : evaluable.print a.nodes = a.text " " := a.prints
  apply convert_eq_of_tidy
  rw [ofMarkup_markup h, hprint, a.squeezes_text.tidy_eq a.settled]

end Formula

end FormulaDesk
