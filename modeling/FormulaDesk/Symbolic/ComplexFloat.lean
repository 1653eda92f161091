/-!
# ComplexFloat floats

Pairs of floats with the elementary functions on their principal branches. They approximate
constants and evaluate expressions that leave the real line.
-/

namespace FormulaDesk.Symbolic

structure ComplexFloat where
  re : Float
  im : Float
deriving Inhabited, Repr

namespace ComplexFloat

def pi : Float := 3.141592653589793

def ofReal (x : Float) : ComplexFloat := ⟨x, 0⟩

def imag : ComplexFloat := ⟨0, 1⟩

def add (z w : ComplexFloat) : ComplexFloat := ⟨z.re + w.re, z.im + w.im⟩

def sub (z w : ComplexFloat) : ComplexFloat := ⟨z.re - w.re, z.im - w.im⟩

def neg (z : ComplexFloat) : ComplexFloat := ⟨-z.re, -z.im⟩

def mul (z w : ComplexFloat) : ComplexFloat := ⟨z.re * w.re - z.im * w.im, z.re * w.im + z.im * w.re⟩

def scale (x : Float) (z : ComplexFloat) : ComplexFloat := ⟨x * z.re, x * z.im⟩

/-- The distance from zero, without overflow on the way. -/
def abs (z : ComplexFloat) : Float :=
  let a := z.re.abs
  let b := z.im.abs
  let high := if a < b then b else a
  let low := if a < b then a else b
  if high == 0 || high.isInf then high
  else
    let r := low / high
    high * Float.sqrt (1 + r * r)

def arg (z : ComplexFloat) : Float := Float.atan2 z.im z.re

def div (z w : ComplexFloat) : ComplexFloat :=
  if w.im.abs ≤ w.re.abs then
    let r := w.im / w.re
    let d := w.re + w.im * r
    ⟨(z.re + z.im * r) / d, (z.im - z.re * r) / d⟩
  else
    let r := w.re / w.im
    let d := w.re * r + w.im
    ⟨(z.re * r + z.im) / d, (z.im * r - z.re) / d⟩

def exp (z : ComplexFloat) : ComplexFloat :=
  let m := Float.exp z.re
  if z.im == 0 then ⟨m, 0⟩ else ⟨m * Float.cos z.im, m * Float.sin z.im⟩

def log (z : ComplexFloat) : ComplexFloat := ⟨Float.log z.abs, z.arg⟩

def sqrt (z : ComplexFloat) : ComplexFloat :=
  if z.re == 0 && z.im == 0 then ⟨0, 0⟩
  else
    let m := Float.sqrt ((z.re.abs + z.abs) / 2)
    if 0 ≤ z.re then ⟨m, z.im / (2 * m)⟩
    else ⟨z.im.abs / (2 * m), if z.im < 0 then -m else m⟩

def isZero (z : ComplexFloat) : Bool := z.re == 0 && z.im == 0

def powNat (z : ComplexFloat) : Nat → ComplexFloat
  | 0 => ⟨1, 0⟩
  | n + 1 => z.mul (powNat z n)

/-- A power: by repeated products for a small whole exponent, else by the logarithm. -/
def pow (z w : ComplexFloat) : ComplexFloat :=
  if w.isZero then ⟨1, 0⟩
  else if z.isZero then (if 0 < w.re then ⟨0, 0⟩ else ⟨0 / 0, 0 / 0⟩)
  else
    let n := w.re.abs.toUInt64.toNat
    if w.im == 0 && n < 100 && Float.ofNat n == w.re.abs then
      let p := z.powNat n
      if w.re < 0 then (ofReal 1).div p else p
    else (w.mul z.log).exp

def sinh (z : ComplexFloat) : ComplexFloat :=
  ⟨Float.sinh z.re * Float.cos z.im, Float.cosh z.re * Float.sin z.im⟩

def cosh (z : ComplexFloat) : ComplexFloat :=
  ⟨Float.cosh z.re * Float.cos z.im, Float.sinh z.re * Float.sin z.im⟩

def tanh (z : ComplexFloat) : ComplexFloat := z.sinh.div z.cosh

/-- Multiplication by the imaginary unit. -/
def turn (z : ComplexFloat) : ComplexFloat := ⟨-z.im, z.re⟩

def turnBack (z : ComplexFloat) : ComplexFloat := ⟨z.im, -z.re⟩

def sin (z : ComplexFloat) : ComplexFloat := z.turn.sinh.turnBack

def cos (z : ComplexFloat) : ComplexFloat := z.turn.cosh

def tan (z : ComplexFloat) : ComplexFloat := z.sin.div z.cos

def one : ComplexFloat := ⟨1, 0⟩

def asinh (z : ComplexFloat) : ComplexFloat := (z.add ((z.mul z).add one).sqrt).log

def acosh (z : ComplexFloat) : ComplexFloat := (z.add ((z.add one).sqrt.mul (z.sub one).sqrt)).log

def atanh (z : ComplexFloat) : ComplexFloat := scale 0.5 ((one.add z).log.sub (one.sub z).log)

def asin (z : ComplexFloat) : ComplexFloat := z.turn.asinh.turnBack

def acos (z : ComplexFloat) : ComplexFloat := (ofReal (pi / 2)).sub z.asin

def atan (z : ComplexFloat) : ComplexFloat := z.turn.atanh.turnBack

/-- The functions by name. -/
def function? (name : String) : Option (ComplexFloat → ComplexFloat) :=
  match name with
  | "sin" => some sin
  | "cos" => some cos
  | "tan" => some tan
  | "asin" => some asin
  | "acos" => some acos
  | "atan" => some atan
  | "sinh" => some sinh
  | "cosh" => some cosh
  | "tanh" => some tanh
  | "asinh" => some asinh
  | "acosh" => some acosh
  | "atanh" => some atanh
  | "log" => some log
  | "exp" => some exp
  | "abs" => some fun z => ofReal z.abs
  | _ => none

end ComplexFloat

end FormulaDesk.Symbolic
