import FormulaDesk.Proofs.Formula.Cleanup
import FormulaDesk.Proofs.Formula.Parsing
import Mathlib.Analysis.SpecialFunctions.Log.Base
import Mathlib.Analysis.SpecialFunctions.Trigonometric.Arctan
import Mathlib.Analysis.SpecialFunctions.Trigonometric.Inverse

/-! # Conversion preserves the meaning of formulas

The text of a formula means what the formula means, over every field and with every choice of
functions. The real functions are one such choice.
-/

namespace FormulaDesk.Formula

open Markup Arithmetic

variable {K : Type*} [Field K] [DecidableEq K] (m : Meaning K)

/-! ## Leaves -/

omit [Field K] [DecidableEq K] in
theorem named_singleton (c : Char) : m.named (String.singleton c) = some (m.var c) := by
  have hne : ∀ s : String, s.toList.length ≠ 1 → String.singleton c ≠ s := by
    rintro s hs rfl
    simp at hs
  unfold Meaning.named
  split
  · next h => exact absurd h (hne _ (by decide))
  · next h => exact absurd h (hne _ (by decide))
  · simp

omit [DecidableEq K] in
theorem decimal_one : decimal ['1'] [] = (1 : K) := by
  have hdigits : Nat.ofDigitChars 10 ['1'] 0 = 1 := by decide
  simp [decimal, hdigits]

/-! ## Operators -/

/-- A sign before a fraction is that of its numerator. -/
theorem value_neg_div (p q : Expr) :
    (Expr.div (.neg p) q).value m = (Expr.neg (.div p q)).value m := by
  simp only [Expr.value]
  cases p.value m with
  | none => rfl
  | some x =>
    cases q.value m with
    | none => rfl
    | some y => exact quotient?_neg x y

/-- A factor before a fraction is one of its numerator. -/
theorem value_mul_div (a p q : Expr) :
    (Expr.div (.mul a p) q).value m = (Expr.mul a (.div p q)).value m := by
  simp only [Expr.value]
  cases a.value m with
  | none => rfl
  | some w =>
    cases p.value m with
    | none => rfl
    | some x =>
      cases q.value m with
      | none => rfl
      | some y => exact quotient?_mul w x y

/-- The name that a function is called by means what the function does, or what it divides one
by. -/
theorem applied_eq_called (fn : Fn) (x : K) :
    applied m fn x = if fn.isReciprocal then do quotient? 1 (← m.called fn.callName x)
      else m.called fn.callName x := by
  cases fn <;> rfl

theorem value_callExpr (fn : Fn) (e : Expr) :
    (callExpr fn e).value m = e.value m >>= applied m fn := by
  have happlied : applied m fn = fun x => if fn.isReciprocal then
      do quotient? 1 (← m.called fn.callName x) else m.called fn.callName x :=
    funext (applied_eq_called m fn)
  rw [happlied, callExpr]
  cases fn.isReciprocal with
  | true =>
    rw [if_pos rfl, Expr.value, Expr.value, Expr.value, decimal_one]
    cases e.value m <;> rfl
  | false =>
    rw [if_neg Bool.false_ne_true, Expr.value]
    rfl

theorem value_expr (a : Formula) : a.expr.value m = a.value m := by
  induction a with
  | numeral n => rfl
  | var v => exact named_singleton m v.char
  | euler => rfl
  | pi => rfl
  | sum a b iha ihb => rw [expr, Expr.value, iha, ihb, value]
  | difference a b iha ihb => rw [expr, Expr.value, iha, ihb, value]
  | negation a ih =>
    cases hfraction : a.isFraction with
    | true =>
      obtain ⟨p, q, rfl⟩ := eq_fraction hfraction
      -- the text says `(-p) / q`
      rw [expr, value_neg_div, value, ← ih, expr]
      rfl
    | false =>
      rw [expr_negation hfraction, Expr.value, ih]
      rfl
  | product dotted a b iha ihb =>
    cases hfraction : b.isFraction with
    | true =>
      obtain ⟨p, q, rfl⟩ := eq_fraction hfraction
      -- the text says `(a * p) / q`
      rw [expr, value_mul_div, value, ← iha, ← ihb, expr]
      rfl
    | false =>
      rw [expr_product hfraction, Expr.value, iha, ihb]
      rfl
  | quotient a b iha ihb => rw [expr, Expr.value, iha, ihb, value]
  | fraction a b iha ihb => rw [expr, Expr.value, iha, ihb, value]
  | power a b iha ihb =>
    cases heuler : a.isEuler with
    | true =>
      obtain rfl := eq_euler heuler
      rw [expr, Expr.value, ihb, value, value]
      exact congrArg (b.value m >>= ·) (funext m.exp_eq)
    | false =>
      rw [expr_power heuler, Expr.value, iha, ihb]
      rfl
  | sqrt a ih =>
    rw [expr, Expr.value, ih]
    rfl
  | root index a ihindex ih =>
    simp only [expr, Expr.value, value, ih, ihindex, decimal_one, if_true]
    cases a.value m with
    | none => rfl
    | some x => cases index.value m <;> rfl
  | abs a ih =>
    rw [expr, Expr.value, ih]
    rfl
  | apply fn a ih => rw [expr, value_callExpr, ih, value]

/-! ## Preservation -/

/-- The evaluable text of a formula is an expression that means what the formula means. -/
theorem evaluableOf_preserves_meaning {a : Formula} (h : WithinLimit a.markup) :
    ∃ e, Expr.ofString? (Conversion.evaluableOf a.markup).value = some e ∧
      ∀ {K : Type*} [Field K] [DecidableEq K] (m : Meaning K), e.value m = a.value m := by
  refine ⟨a.expr, ?_, fun m => a.value_expr m⟩
  rw [Dialect.evaluableOf_value, convert_markup h, ofString?_text]

open Classical in
/-- The real functions, each where it is defined, for given values of the variables. -/
noncomputable def realMeaning (var : Char → ℝ) : Meaning ℝ where
  e := Real.exp 1
  pi := Real.pi
  var := var
  pow x y :=
    if 0 < x ∨ (x = 0 ∧ 0 ≤ y) ∨ (x < 0 ∧ ∃ n : ℤ, y = n) then some (x ^ y) else none
  sqrt x := if 0 ≤ x then some (Real.sqrt x) else none
  abs x := some |x|
  sin x := some (Real.sin x)
  cos x := some (Real.cos x)
  tan x := if Real.cos x = 0 then none else some (Real.tan x)
  sinh x := some (Real.sinh x)
  cosh x := some (Real.cosh x)
  tanh x := some (Real.tanh x)
  asin x := if |x| ≤ 1 then some (Real.arcsin x) else none
  acos x := if |x| ≤ 1 then some (Real.arccos x) else none
  atan x := some (Real.arctan x)
  exp x := some (Real.exp x)
  ln x := if 0 < x then some (Real.log x) else none
  log10 x := if 0 < x then some (Real.logb 10 x) else none
  exp_eq x := by simp [Real.exp_pos, Real.exp_one_rpow]

/-- A product of a fraction with a sign before it and a power of a reciprocal to a root. -/
def mixed : Formula :=
  .product true (.negation (.fraction .pi (.var .x)))
    (.power (.apply .csc (.var .x)) (.root (.var .x) .euler))

/-- Read over the reals, the example keeps its value for every value of the variables. -/
theorem evaluableOf_preserves_meaning_mixed : WithinLimit mixed.markup ∧
    ∃ e, Expr.ofString? (Conversion.evaluableOf mixed.markup).value = some e ∧
      ∀ var, e.value (realMeaning var) = mixed.value (realMeaning var) := by
  have hlimit : WithinLimit mixed.markup := withinLimit_of_length (by decide)
  obtain ⟨e, hparse, hvalue⟩ := evaluableOf_preserves_meaning hlimit
  exact ⟨hlimit, e, hparse, fun var => hvalue (realMeaning var)⟩

end FormulaDesk.Formula
