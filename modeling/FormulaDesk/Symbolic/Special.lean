import FormulaDesk.Symbolic.ComplexFloat

/-!
# Special functions on floats

The gamma function by nine terms of a partial-fraction series, reflected for arguments below one
half, and the error function by its series near zero and a continued fraction further out. Both are
good to about twelve digits.
-/

namespace FormulaDesk.Symbolic.Special

open ComplexFloat (pi)

/-! ## Gamma -/

/-- The coefficients of the series after the first, which is nearly one. -/
def gammaSeries : List Float :=
  [676.5203681218851, -1259.1392167224028, 771.32342877765313, -176.61502916214059,
    12.507343278686905, -0.13857109526572012, 9.9843695780195716e-6, 1.5056327351493116e-7]

/-- The series at a point of at least one half, less one. -/
def gammaSum (z : Float) : Float :=
  gammaSeries.zipIdx.foldl (fun acc p => acc + p.1 / (z + Float.ofNat (p.2 + 1)))
    0.99999999999980993

/-- Gamma from one half on. -/
def gammaUpper (x : Float) : Float :=
  let z := x - 1
  let t := z + 7.5
  Float.sqrt (2 * pi) * Float.pow t (z + 0.5) * Float.exp (-t) * gammaSum z

def gamma (x : Float) : Float :=
  if x < 0.5 then pi / (Float.sin (pi * x) * gammaUpper (1 - x)) else gammaUpper x

/-- The logarithm of the size of gamma. -/
def logGammaUpper (x : Float) : Float :=
  let z := x - 1
  let t := z + 7.5
  0.5 * Float.log (2 * pi) + (z + 0.5) * Float.log t - t + Float.log (gammaSum z)

def logGamma (x : Float) : Float :=
  if x < 0.5 then
    Float.log (pi / (Float.sin (pi * x)).abs) - logGammaUpper (1 - x)
  else logGammaUpper x

/-! ## Error function -/

/-- Where the series gives way to the continued fraction. -/
def erfSplit : Float := 2

/-- The error function near zero: all terms of the series have one sign. -/
def erfNear (x : Float) : Float :=
  let (total, _) := (List.range 80).foldl
    (fun (acc : Float × Float) k =>
      let term := acc.2 * 2 * x * x / Float.ofNat (2 * k + 3)
      (acc.1 + term, term)) (x, x)
  2 / Float.sqrt pi * Float.exp (-(x * x)) * total

/-- What the error function lacks to one, far to the right. -/
def erfcFar (x : Float) : Float :=
  let tail := (List.range 200).foldr
    (fun k acc => x + Float.ofNat (k + 1) / 2 / acc) x
  Float.exp (-(x * x)) / (Float.sqrt pi * tail)

def erf (x : Float) : Float :=
  if x.isNaN then x
  else if x.abs < erfSplit then erfNear x
  else if 0 < x then 1 - erfcFar x
  else erfcFar (-x) - 1

/-- One less the error function. -/
def erfc (x : Float) : Float :=
  if x.isNaN then x
  else if x.abs < erfSplit then 1 - erfNear x
  else if 0 < x then erfcFar x
  else 2 - erfcFar (-x)

end FormulaDesk.Symbolic.Special
