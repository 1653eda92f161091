import FormulaDesk.Proofs.Arithmetic.Grammar
import Mathlib.Algebra.Field.Basic
import Mathlib.Algebra.Group.Nat.Defs

/-! # What an expression means

The value of an expression over a field in which the constants and functions are given. A quotient
by zero has no value, and a function need not have one everywhere. Nothing is asked of the functions
but that the exponential is the power of the constant `e`.
-/

namespace FormulaDesk.Arithmetic

/-- The constants, variables and functions over a field. -/
structure Meaning (K : Type*) where
  e : K
  pi : K
  var : Char → K
  pow : K → K → Option K
  sqrt : K → Option K
  abs : K → Option K
  sin : K → Option K
  cos : K → Option K
  tan : K → Option K
  sinh : K → Option K
  cosh : K → Option K
  tanh : K → Option K
  asin : K → Option K
  acos : K → Option K
  atan : K → Option K
  exp : K → Option K
  ln : K → Option K
  log10 : K → Option K
  exp_eq : ∀ x, exp x = pow e x

variable {K : Type*} [Field K] [DecidableEq K]

/-- The quotient, unless it is by zero. -/
def quotient? (x y : K) : Option K := if y = 0 then none else some (x / y)

/-- The value of a decimal with these digits before and behind the point. -/
def decimal (whole places : List Char) : K :=
  (Nat.ofDigitChars 10 (whole ++ places) 0 : K) / (10 ^ places.length : Nat)

namespace Meaning

variable (m : Meaning K)

/-- The names of constants, and of variables of one letter. -/
def named (s : String) : Option K :=
  match s with
  | "pi" => some m.pi
  | "math.e" => some m.e
  | s =>
    match s.toList with
    | [c] => some (m.var c)
    | _ => none

/-- The calls of one argument. -/
def called (f : String) (x : K) : Option K :=
  match f with
  | "sin" => m.sin x
  | "cos" => m.cos x
  | "tan" => m.tan x
  | "asin" => m.asin x
  | "acos" => m.acos x
  | "atan" => m.atan x
  | "sinh" => m.sinh x
  | "cosh" => m.cosh x
  | "tanh" => m.tanh x
  | "sqrt" => m.sqrt x
  | "log" => m.ln x
  | "log10" => m.log10 x
  | "exp" => m.exp x
  | "abs" => m.abs x
  | _ => none

end Meaning

/-- The value of an expression, if it has one. -/
def Expr.value (m : Meaning K) : Expr → Option K
  | .number whole places => some (decimal whole places)
  | .name s => m.named s
  | .call f a => do m.called f (← a.value m)
  | .call₂ f a b => do
    let x ← a.value m
    let y ← b.value m
    if f = "pow" then m.pow x y else none
  | .neg a => do return -(← a.value m)
  | .add a b => do return (← a.value m) + (← b.value m)
  | .sub a b => do return (← a.value m) - (← b.value m)
  | .mul a b => do return (← a.value m) * (← b.value m)
  | .div a b => do quotient? (← a.value m) (← b.value m)
  | .pow a b => do m.pow (← a.value m) (← b.value m)

/-! ## Quotients -/

/-- The sign of a quotient is that of what is divided. -/
theorem quotient?_neg (x y : K) : quotient? (-x) y = do return -(← quotient? x y) := by
  unfold quotient?
  split_ifs
  · rfl
  · simp [neg_div]

/-- A factor of a quotient is a factor of what is divided. -/
theorem quotient?_mul (w x y : K) : quotient? (w * x) y = do return w * (← quotient? x y) := by
  unfold quotient?
  split_ifs
  · rfl
  · simp [mul_div_assoc]

end FormulaDesk.Arithmetic
