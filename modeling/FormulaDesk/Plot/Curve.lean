import FormulaDesk.Expression.Check

/-!
# Curves

An expression at evenly spaced points. The grid goes in equal steps from one end to the other and
ends there exactly. Where an expression has no real value there is `nan`; a constant gives the same
value everywhere.
-/

namespace FormulaDesk.Plot

open Expression (Engine Parsed Samples)
open Symbolic (ComplexFloat)

/-- The points that are drawn if nobody says how many. -/
def usualPoints : Int := 400

/-! ## The grid -/

/-- One point of a grid of so many steps. Steps too small to tell apart count as parts of the
whole. -/
def gridPoint (start delta : Float) (steps : Float) (i : Nat) : Float :=
  let step := delta / steps
  if step == 0 then Float.ofNat i / steps * delta + start else Float.ofNat i * step + start

/-- Points from one end to the other. -/
def grid (start stop : Float) (points : Nat) : List Float :=
  let delta := stop - start
  match points with
  | 0 => []
  | 1 => [0 * delta + start]
  | points =>
    (List.range (points - 1)).map (gridPoint start delta (Float.ofNat (points - 1))) ++ [stop]

/-! ## Values -/

/-- The largest imaginary part that still counts as none. -/
def imaginaryTolerance : Float := 1e-12

/-- The real value of a sample. -/
def realValue (z : ComplexFloat) : Float :=
  if imaginaryTolerance < z.im.abs || !(Binary.ofFloat z.re).isFinite then 0 / 0 else z.re

/-- The real values of an expression along a grid. -/
def valuesOn (p : Parsed) (xs : List Float) : Except Failure (List Float) :=
  match p.along xs with
  | .error failure => .error failure
  | .ok (.constant z) => .ok (xs.map fun _ => realValue z)
  | .ok (.each zs) => .ok (zs.map realValue)

structure Curve where
  xs : List Float
  ys : List Float
deriving Inhabited

/-- Whole numbers and truth values as counts. -/
def count? : Json → Option Int
  | .int n => some n
  | .bool b => some (if b then 1 else 0)
  | _ => none

/-- A number as an end of the grid. -/
def end? : Json → Option Float
  | .int n => some ((Decimal.floatOfInt? n).getD (if n < 0 then -1 / 0 else 1 / 0))
  | .float x => some x
  | .bool b => some (if b then 1 else 0)
  | _ => none

/-- A grid from values that may not fit. -/
def gridOf (start stop points : Json) : Except ValueFault (List Float) :=
  match count? points with
  | none => .error (.notWhole points.kind)
  | some n =>
    if n < 0 then .error (.negativeSamples n)
    else match end? start, end? stop with
      | some a, some b => .ok (grid a b n.toNat)
      | _, _ => .error (.noDifference stop.kind start.kind)

namespace Curve

/-- An expression along a grid. -/
def sample (engine : Engine) (expression : String) (start stop points : Json) :
    Except Failure Curve :=
  match Expression.check engine expression with
  | .error refusal => .error (refusal.failure expression)
  | .ok p =>
    match gridOf start stop points with
    | .error fault => .error (.value fault)
    | .ok xs => (valuesOn p xs).map fun ys => ⟨xs, ys⟩

end Curve

end FormulaDesk.Plot
