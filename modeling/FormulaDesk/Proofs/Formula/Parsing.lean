import FormulaDesk.Proofs.Formula.Printing

/-! # What the text of a formula is parsed as

The expression that the text of a formula is. A fraction is a quotient without parentheses around
it: what stands before it in a product goes to its numerator.
-/

namespace FormulaDesk.Formula

open Markup Dialect Arithmetic

/-! ## Expressions -/

/-- A call of a function, of its divisor for a reciprocal. -/
def callExpr (fn : Fn) (argument : Expr) : Expr :=
  if fn.isReciprocal then .div (.number ['1'] []) (.call fn.callName argument)
  else .call fn.callName argument

/-- The expression that the text of a formula is parsed as. -/
def expr : Formula → Expr
  | .numeral n => .number n.whole n.places
  | .var v => .name (String.singleton v.char)
  | .euler => .name "math.e"
  | .pi => .name "pi"
  | .sum a b => .add a.expr b.expr
  | .difference a b => .sub a.expr b.expr
  | .negation (.fraction p q) => .div (.neg p.expr) q.expr
  | .negation a => .neg a.expr
  | .product _ a (.fraction p q) => .div (.mul a.expr p.expr) q.expr
  | .product _ a b => .mul a.expr b.expr
  | .quotient a b => .div a.expr b.expr
  | .fraction a b => .div a.expr b.expr
  | .power .euler b => .call "exp" b.expr
  | .power a b => .pow a.expr b.expr
  | .sqrt a => .call "sqrt" a.expr
  | .root index a => .call₂ "pow" a.expr (.div (.number ['1'] []) index.expr)
  | .abs a => .call "abs" a.expr
  | .apply fn a => callExpr fn a.expr

/-- A negation means the negative of its operand, a fraction apart, whose sign goes into its
numerator. -/
theorem expr_negation {a : Formula} (h : a.isFraction = false) :
    (negation a).expr = .neg a.expr := by
  cases a <;> simp_all [expr, isFraction]

/-- A product means the product of its factors, unless the second one is a fraction, which the text
divides by last. -/
theorem expr_product {dotted : Bool} {a b : Formula} (h : b.isFraction = false) :
    (product dotted a b).expr = .mul a.expr b.expr := by
  cases b <;> simp_all [expr, isFraction]

/-- A power means the power of its base, unless the base is the constant, whose power is the
exponential. -/
theorem expr_power {a b : Formula} (h : a.isEuler = false) :
    (power a b).expr = .pow a.expr b.expr := by
  cases a <;> simp_all [expr, isEuler]

/-- A formula that counts as a fraction is one. -/
theorem eq_fraction {a : Formula} (h : a.isFraction = true) : ∃ p q, a = .fraction p q := by
  cases a <;> simp_all [isFraction]

/-- A formula that counts as the constant is the constant. -/
theorem eq_euler {a : Formula} (h : a.isEuler = true) : a = .euler := by
  cases a <;> simp_all [isEuler]

/-! ## Parsing -/

/-- How the text is parsed, by what it may be a piece of without parentheses. -/
structure Parses (a : Formula) : Prop where
  sum : IsSum (a.text "").toList a.expr
  product : a.isCompound = false → IsProduct (a.text "").toList a.expr
  factor : a.isCompound = false → a.isFraction = false → IsFactor (a.text "").toList a.expr
  operand : a.isCompound = false → a.isFraction = false → a.isPower = false →
    IsOperand (a.text "").toList a.expr
  parts : ∀ p q, a = .fraction p q →
    IsSum (p.text "").toList p.expr ∧ IsSum (q.text "").toList q.expr

/-- A text that is an operand is read at every level of the grammar. -/
theorem Parses.of_operand {a : Formula} (h : IsOperand (a.text "").toList a.expr)
    (hfraction : a.isFraction = false) : a.Parses where
  sum := h.isFactor.isProduct.isSum
  product _ := h.isFactor.isProduct
  factor _ _ := h.isFactor
  operand _ _ _ := h
  parts p q hpq := by simp [hpq, isFraction] at hfraction

/-- A power is read at every level where no parentheses are needed. -/
theorem Parses.of_factor {a : Formula} (h : IsFactor (a.text "").toList a.expr)
    (hpower : a.isPower = true) : a.Parses where
  sum := h.isProduct.isSum
  product _ := h.isProduct
  factor _ _ := h
  operand _ _ hno := by simp [hpower] at hno
  parts p q hpq := by simp [hpq, isPower] at hpower

/-- A sum is read where a sum may stand. -/
theorem Parses.of_compound {a : Formula} (h : IsSum (a.text "").toList a.expr)
    (hcompound : a.isCompound = true) : a.Parses where
  sum := h
  product hno := by simp [hcompound] at hno
  factor hno := by simp [hcompound] at hno
  operand hno := by simp [hcompound] at hno
  parts p q hpq := by simp [hpq, isCompound] at hcompound

/-- Parentheses make an operand of a sum. -/
theorem isOperand_inParens {s : String} {e : Expr} (h : IsSum s.toList e) :
    IsOperand (inParens s).toList e := by
  simpa [inParens] using h.parens

/-- Parentheses around what is compound make a factor of a product. -/
theorem Parses.wrapped_product {a : Formula} (h : a.Parses) :
    IsProduct (inParensIf a.isCompound (a.text "")).toList a.expr := by
  cases hcompound : a.isCompound with
  | true => exact (isOperand_inParens h.sum).isFactor.isProduct
  | false => exact h.product hcompound

/-- Parentheses around what is compound or a fraction make a factor of a power. -/
theorem Parses.wrapped_factor {a : Formula} {needed : Bool} (h : a.Parses)
    (hneeded : a.isCompound = true ∨ a.isFraction = true → needed = true) :
    IsFactor (inParensIf needed (a.text "")).toList a.expr := by
  cases needed with
  | true => exact (isOperand_inParens h.sum).isFactor
  | false =>
    simp only [Bool.false_eq_true, imp_false, not_or, Bool.not_eq_true] at hneeded
    exact h.factor hneeded.1 hneeded.2

/-- Parentheses around whatever is no operand make an operand. -/
theorem Parses.wrapped_operand {a : Formula} (h : a.Parses) :
    IsOperand (inParensIf (a.isCompound || a.isPower || a.isFraction) (a.text "")).toList
      a.expr := by
  cases hneeded : a.isCompound || a.isPower || a.isFraction with
  | true => exact isOperand_inParens h.sum
  | false =>
    simp only [Bool.or_eq_false_iff] at hneeded
    exact h.operand hneeded.1.1 hneeded.2 hneeded.1.2

/-- A letter with name characters behind it is a name. -/
theorem isName_of {f : String} (hstarts : f.toList.head?.any Text.isAsciiLetter = true)
    (hgoesOn : f.toList.all isNameChar = true) : IsName f.toList := by
  refine ⟨?_, List.all_eq_true.mp hgoesOn⟩
  cases hf : f.toList with
  | nil => simp [hf] at hstarts
  | cons c cs => exact ⟨c, cs, rfl, by simpa [hf] using hstarts⟩

/-- Every function is called by a name. -/
theorem isName_callName (fn : Fn) : IsName fn.callName.toList := by
  cases fn <;> exact isName_of (by decide) (by decide)

/-- A call is an operand. -/
theorem isOperand_call {f s : String} {e : Expr} (hf : IsName f.toList) (h : IsSum s.toList e) :
    IsOperand (f ++ inParens s).toList (.call f e) := by
  simpa [inParens] using hf.call h

/-- The `1` of a reciprocal is an operand. -/
theorem isOperand_one : IsOperand ['1'] (.number ['1'] []) :=
  IsWhole.isOperand ⟨by decide, List.all_eq_true.mp (by decide), by decide⟩

/-- The text of a function's call is an operand, and means the call or its reciprocal. -/
theorem isOperand_callOf {s : String} {e : Expr} (fn : Fn) (h : IsSum s.toList e) :
    IsOperand (callOf fn s).toList (callExpr fn e) := by
  have hcall := isOperand_call (isName_callName fn) h
  unfold callOf callExpr
  split
  · have hquotient := isOperand_one.isFactor.isProduct.over hcall.isFactor
    exact isOperand_inParens (by simpa using hquotient.isSum)
  · exact hcall

/-- A numeral is an operand. -/
theorem isOperand_numeral (n : Numeral) : IsOperand n.text.toList (.number n.whole n.places) := by
  obtain ⟨whole, places, hwhole, hplaces⟩ := n
  cases places with
  | nil => simpa [Numeral.text] using hwhole.isOperand
  | cons p places => simpa [Numeral.text] using hwhole.isOperand_places hplaces

/-- The text of a formula is parsed as its expression. -/
theorem parses (a : Formula) : a.Parses := by
  induction a with
  | numeral n => exact .of_operand (isOperand_numeral n) rfl
  | var v =>
    have hname : IsName [v.char] := by
      refine ⟨⟨v.char, [], rfl, v.isLetter⟩, ?_⟩
      simp [isNameChar, v.isLetter]
    refine .of_operand ?_ rfl
    simpa [text, expr] using hname.isOperand
  | euler => exact .of_operand (isName_of (f := "math.e") (by decide) (by decide)).isOperand rfl
  | pi => exact .of_operand (isName_of (f := "pi") (by decide) (by decide)).isOperand rfl
  | sum a b iha ihb =>
    have hsum := iha.wrapped_product.isSum.plus ihb.wrapped_product
    exact .of_compound (by simpa [text, expr] using hsum) rfl
  | difference a b iha ihb =>
    have hdifference := iha.wrapped_product.isSum.minus ihb.wrapped_product
    exact .of_compound (by simpa [text, expr] using hdifference) rfl
  | negation a ih =>
    refine .of_compound ?_ rfl
    cases hfraction : a.isFraction with
    | true =>
      obtain ⟨p, q, rfl⟩ := eq_fraction hfraction
      -- the sign takes the numerator only
      obtain ⟨hp, hq⟩ := ih.parts p q rfl
      have hneg := (isOperand_inParens hp).isFactor.neg
      have hquotient := hneg.isProduct.over (isOperand_inParens hq).isFactor
      simpa [text, expr, isCompound, inParensIf] using hquotient.isSum
    | false =>
      have hfactor : IsFactor (inParensIf a.isCompound (a.text "")).toList a.expr :=
        ih.wrapped_factor (by simp [hfraction])
      rw [expr_negation hfraction]
      simpa [text] using hfactor.neg.isProduct.isSum
  | product dotted a b iha ihb =>
    refine .of_compound ?_ rfl
    cases hfraction : b.isFraction with
    | true =>
      obtain ⟨p, q, rfl⟩ := eq_fraction hfraction
      -- the factor before the fraction is multiplied with its numerator first
      obtain ⟨hp, hq⟩ := ihb.parts p q rfl
      have hproduct := iha.wrapped_product.times (isOperand_inParens hp).isFactor
      have hquotient := hproduct.over (isOperand_inParens hq).isFactor
      simpa [text, expr, isCompound, inParensIf] using hquotient.isSum
    | false =>
      have hfactor : IsFactor (inParensIf b.isCompound (b.text "")).toList b.expr :=
        ihb.wrapped_factor (by simp [hfraction])
      rw [expr_product hfraction]
      simpa [text] using (iha.wrapped_product.times hfactor).isSum
  | quotient a b iha ihb =>
    have hfactor : IsFactor (inParensIf (b.isCompound || b.isFraction) (b.text "")).toList b.expr :=
      ihb.wrapped_factor (by simp)
    have hquotient := iha.wrapped_product.over hfactor
    exact .of_compound (by simpa [text, expr] using hquotient.isSum) rfl
  | fraction a b iha ihb =>
    have ha := (isOperand_inParens iha.sum).isFactor.isProduct
    have hquotient := ha.over (isOperand_inParens ihb.sum).isFactor
    have hproduct : IsProduct ((fraction a b).text "").toList (fraction a b).expr := by
      simpa [text, expr] using hquotient
    exact {
      sum := hproduct.isSum
      product := fun _ => hproduct
      factor := fun _ hno => by simp [isFraction] at hno
      operand := fun _ hno => by simp [isFraction] at hno
      parts := fun p q hpq => by
        obtain ⟨rfl, rfl⟩ := fraction.inj hpq
        exact ⟨iha.sum, ihb.sum⟩ }
  | power a b iha ihb =>
    refine .of_factor ?_ rfl
    cases heuler : a.isEuler with
    | true =>
      obtain rfl := eq_euler heuler
      have hexp : IsName "exp".toList := isName_of (by decide) (by decide)
      simpa [text, expr, isEuler] using (isOperand_call hexp ihb.sum).isFactor
    | false =>
      rw [expr_power heuler]
      simpa [text, heuler, inParens] using iha.wrapped_operand.raised ihb.sum
  | sqrt a ih => exact .of_operand (isOperand_call (isName_of (by decide) (by decide)) ih.sum) rfl
  | root index a ihindex ih =>
    have hindex : IsFactor (inParensIf (!index.isSimpleIndex) (index.text "")).toList index.expr :=
      ihindex.wrapped_factor (by cases index <;> simp [isCompound, isFraction, isSimpleIndex])
    have hquotient := isOperand_one.isFactor.isProduct.over hindex
    have hpow : IsName "pow".toList := isName_of (by decide) (by decide)
    refine .of_operand ?_ rfl
    simpa [text, expr] using hpow.call₂ ih.sum hquotient.isSum
  | abs a ih =>
    refine .of_operand ?_ rfl
    have habs := isOperand_call (isName_of (f := "abs") (by decide) (by decide)) ih.sum
    simpa [text, expr, inParens] using habs
  | apply fn a ih => exact .of_operand (isOperand_callOf fn ih.sum) rfl

/-- The text a formula prints as is read as the expression the formula stands for. -/
theorem ofString?_text (a : Formula) : Expr.ofString? (a.text "") = some a.expr := by
  simpa using a.parses.sum.ofString?

end FormulaDesk.Formula
