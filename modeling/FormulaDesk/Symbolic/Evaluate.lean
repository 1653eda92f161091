import FormulaDesk.Symbolic.Function
import FormulaDesk.Symbolic.Special
import FormulaDesk.Failure

/-!
# Terms at a point

The value of a term in floats, given the value of its variable. Arithmetic stays on the real line,
where an undefined step gives `nan`, unless a constant leaves it; from there on it is complex. A
statement is one or zero. A few functions take one number at a time: they have a value at a constant
but none along a grid.
-/

namespace FormulaDesk.Symbolic

/-- A value at a point. -/
inductive Sample where
  | real (x : Float)
  | complex (z : ComplexFloat)
deriving Inhabited, Repr

namespace Sample

def toComplex : Sample → ComplexFloat
  | .real x => .ofReal x
  | .complex z => z

def nan : Float := 0 / 0

/-- Applies a real function where both values are real, else a complex one. -/
def lift₂ (f : Float → Float → Float) (g : ComplexFloat → ComplexFloat → ComplexFloat) (s t : Sample) : Sample :=
  match s, t with
  | .real x, .real y => .real (f x y)
  | s, t => .complex (g s.toComplex t.toComplex)

def lift (f : Float → Float) (g : ComplexFloat → ComplexFloat) : Sample → Sample
  | .real x => .real (f x)
  | .complex z => .complex (g z)

def add : Sample → Sample → Sample := lift₂ (· + ·) ComplexFloat.add

def mul : Sample → Sample → Sample := lift₂ (· * ·) ComplexFloat.mul

def div : Sample → Sample → Sample := lift₂ (· / ·) ComplexFloat.div

def pow : Sample → Sample → Sample := lift₂ Float.pow ComplexFloat.pow

def one : Sample := .real 1

def inverse (s : Sample) : Sample := div one s

def sqrt : Sample → Sample := lift Float.sqrt ComplexFloat.sqrt

def exp : Sample → Sample := lift Float.exp ComplexFloat.exp

def log : Sample → Sample := lift Float.log ComplexFloat.log

def isTrue : Sample → Bool
  | .real x => x != 0
  | .complex z => z.re != 0 || z.im != 0

def ofBool (b : Bool) : Sample := .real (if b then 1 else 0)

/-- The remainder of floats, exact, with the sign of the divisor. -/
def floatMod (x y : Float) : Float :=
  match Amount.ofFloat? x, Amount.ofFloat? y with
  | some a, some b =>
    match a.value?, b.value? with
    | some p, some q => if q = 0 then nan else Amount.ratToFloat (p - q * (p / q).floor)
    | _, _ => nan
  | some _, none =>
    if y.isNaN then nan else if x == 0 || (x < 0) = (y < 0) then x else y
  | _, _ => nan

/-- Zero on the left, one on the right, and a given value between. -/
def floatStep (middle x : Float) : Float :=
  if x < 0 then 0 else if 0 < x then 1 else if x == 0 then middle else x

/-- The inverse hyperbolic cotangent by logarithms. -/
def acoth (s : Sample) : Sample :=
  let r := inverse s
  let sum := log (add one r)
  let difference := log (add one (mul (.real (-1)) r))
  mul (.real 0.5) (add sum (mul (.real (-1)) difference))

/-- The inverse hyperbolic cosecant by logarithms. -/
def acsch (s : Sample) : Sample :=
  let r := inverse s
  log (add r (sqrt (add (mul r r) one)))

/-- The inverse hyperbolic secant by logarithms. -/
def asech (s : Sample) : Sample :=
  let r := inverse s
  log (add r (mul (sqrt (add r (.real (-1)))) (sqrt (add r one))))

def floatSign (x : Float) : Float := if 0 < x then 1 else if x < 0 then -1 else x

/-- The functions of one argument. -/
def function? (name : String) : Option (Sample → Sample) :=
  match name with
  | "sin" => some (lift Float.sin ComplexFloat.sin)
  | "cos" => some (lift Float.cos ComplexFloat.cos)
  | "tan" => some (lift Float.tan ComplexFloat.tan)
  | "asin" => some (lift Float.asin ComplexFloat.asin)
  | "acos" => some (lift Float.acos ComplexFloat.acos)
  | "atan" => some (lift Float.atan ComplexFloat.atan)
  | "sinh" => some (lift Float.sinh ComplexFloat.sinh)
  | "cosh" => some (lift Float.cosh ComplexFloat.cosh)
  | "tanh" => some (lift Float.tanh ComplexFloat.tanh)
  | "asinh" => some (lift Float.asinh ComplexFloat.asinh)
  | "acosh" => some (lift Float.acosh ComplexFloat.acosh)
  | "atanh" => some (lift Float.atanh ComplexFloat.atanh)
  | "sec" => some fun s => inverse (lift Float.cos ComplexFloat.cos s)
  | "csc" => some fun s => inverse (lift Float.sin ComplexFloat.sin s)
  | "cot" => some fun s => inverse (lift Float.tan ComplexFloat.tan s)
  | "asec" => some fun s => lift Float.acos ComplexFloat.acos (inverse s)
  | "acsc" => some fun s => lift Float.asin ComplexFloat.asin (inverse s)
  | "acot" => some fun s => lift Float.atan ComplexFloat.atan (inverse s)
  | "sech" => some fun s => inverse (lift Float.cosh ComplexFloat.cosh s)
  | "csch" => some fun s => inverse (lift Float.sinh ComplexFloat.sinh s)
  | "coth" => some fun s => inverse (lift Float.tanh ComplexFloat.tanh s)
  | "acoth" => some acoth
  | "acsch" => some acsch
  | "asech" => some asech
  | "log" => some log
  | "erf" => some (lift Special.erf id)
  | "erfc" => some (lift Special.erfc id)
  | "gamma" => some (lift Special.gamma id)
  | "loggamma" => some (lift Special.logGamma id)
  | "Heaviside" => some (lift (floatStep 0.5) id)
  | "floor" => some (lift Float.floor id)
  | "ceiling" => some (lift Float.ceil id)
  | "frac" => some (lift (fun x => x - x.floor) id)
  | "sign" => some (lift floatSign id)
  | "sinc" => some fun s => match s with
    | .real x => .real (if x == 0 then 1 else Float.sin x / x)
    | .complex z => .complex (z.sin.div z)
  | "abs" => some fun s => match s with
    | .real x => .real x.abs
    | .complex z => .real z.abs
  | "re" => some fun s => .real s.toComplex.re
  | "im" => some fun s => .real s.toComplex.im
  | "arg" => some fun s => .real s.toComplex.arg
  | "conjugate" => some (lift id fun z => ⟨z.re, -z.im⟩)
  | _ => none

def realOf (s : Sample) : Float := s.toComplex.re

/-- The functions of two arguments. -/
def function₂? (name : String) : Option (Sample → Sample → Sample) :=
  match name with
  | "Mod" => some fun s t => .real (floatMod s.realOf t.realOf)
  | "atan2" => some fun s t => .real (Float.atan2 s.realOf t.realOf)
  | "Heaviside" => some fun s t => .real (floatStep t.realOf s.realOf)
  | "binomial" => some fun s t =>
    .real (Special.gamma (s.realOf + 1)
      / (Special.gamma (t.realOf + 1) * Special.gamma (s.realOf - t.realOf + 1)))
  | "beta" => some fun s t =>
    .real (Special.gamma s.realOf * Special.gamma t.realOf
      / Special.gamma (s.realOf + t.realOf))
  | _ => none

/-- The fault of a function that takes one number at a time where its arguments run along a grid. -/
def gridFault? (name : String) : Option ValueFault :=
  if name = "factorial" then some .needsOneCount
  else if ["erf", "erfc", "gamma", "loggamma", "binomial", "beta", "catalan",
    "factorial2"].contains name then some .needsOneNumber
  else none

/-- The largest or smallest of some values. -/
def extreme (greatest : Bool) : List Sample → Sample
  | [] => .real nan
  | s :: rest => rest.foldl (fun best t =>
      let x := best.realOf
      let y := t.realOf
      if x.isNaN || y.isNaN then .real nan
      else if (if greatest then x < y else y < x) then t else best) s

/-- A function by name. -/
def apply (name : String) (args : List Sample) : Except ValueFault Sample :=
  match args with
  | [s] =>
    match function? name with
    | some f => .ok (f s)
    | none =>
      if name = "Max" ∨ name = "Min" then .ok s
      else if name = "factorial" then .error (.notWhole .float)
      else .error (.undefinedName name)
  | [s, t] =>
    match function₂? name with
    | some f => .ok (f s t)
    | none => many [s, t]
  | args => many args
where
  many (args : List Sample) : Except ValueFault Sample :=
    if name = "Max" then .ok (extreme true args)
    else if name = "Min" then .ok (extreme false args)
    else .error (.undefinedName name)

/-- A comparison; `nan` compares with nothing. -/
def relate (r : Relation) (s t : Sample) : Bool :=
  let x := s.realOf
  let y := t.realOf
  match r with
  | .lt => x < y
  | .le => x ≤ y
  | .gt => y < x
  | .ge => y ≤ x

end Sample

namespace Constant

def value : Constant → Float
  | .pi => ComplexFloat.pi
  | .euler => 2.718281828459045
  | .goldenRatio => 1.618033988749895
  | .eulerGamma => 0.5772156649015329
  | .catalan => 0.915965594177219
  | .tribonacci => 1.8392867552141612

end Constant

namespace Term

/-- The whole numbers from here on are too long to be written. -/
def writableBound : Nat := Nat.pow 10 Numeral.maxDigits

/-- An amount as a float; a whole number has to be in range, and short enough to be written. -/
def amountSample (a : Amount) : Except ValueFault Sample :=
  match a with
  | .exact q =>
    if writableBound ≤ q.num.natAbs ∨ writableBound ≤ q.den then .error .tooLongToWrite
    else
    let x := Amount.ratToFloat q
    if x.isInf then .error (if q.den = 1 then .tooLargeForFloat else .quotientTooLarge)
    else .ok (.real x)
  | .rounded q _ => .ok (.real (Amount.ratToFloat q))
  | .infinite negative => .ok (.real (if negative then -1 / 0 else 1 / 0))
  | _ => .ok (.real Sample.nan)

/-- A power from the values of its base and exponent. A root of a negative number leaves the real
line, while a power of a value stays on it. -/
def powerSample (base exponent : Term) (b e : Sample) : Sample :=
  match base, exponent with
  | .const .euler, _ => e.exp
  | .num a, .num f =>
    if isImaginary (.power base exponent) then .complex ComplexFloat.imag
    else if a.isNegative && f.intValue?.isNone then
      .complex (ComplexFloat.pow b.toComplex e.toComplex)
    else b.pow e
  | _, .num f =>
    match f.value? with
    | some q => if q = 1 / 2 then b.sqrt else if q = -1 / 2 then b.sqrt.inverse else b.pow e
    | none => b.pow e
  | _, _ => b.pow e

mutual

/-- The value of a term where its variable has the value `x`. -/
def sampleAt (x : Float) : Term → Except ValueFault Sample
  | .num a => amountSample a
  | .const c => .ok (.real c.value)
  | .var _ => .ok (.real x)
  | .sum k parts => do
    let value ← sampleParts x parts
    if k.isZero then return value
    let constant ← amountSample k
    return value.add constant
  | .product c factors => do
    let value ← sampleFactors x factors
    if c = .one then return value
    let factor ← amountSample c
    return factor.mul value
  | .power b e => do
    let base ← sampleAt x b
    let exponent ← sampleAt x e
    return powerSample b e base exponent
  | .call name args => do
    let values ← sampleList x args
    -- the arguments are worked out first, so a fault in them goes before that of the function
    match Sample.gridFault? name, args.all isConstant with
    | some fault, false => .error fault
    | _, _ => Sample.apply name values
  | .unknown name _ => .error (.undefinedName name)
  | .truth b => .ok (.ofBool b)
  | .relation r s t => do
    let left ← sampleAt x s
    let right ← sampleAt x t
    return .ofBool (Sample.relate r left right)
  | .logic c args => do
    let values := (← sampleList x args).map Sample.isTrue
    return .ofBool (match c with
      | .all => values.all id
      | .any => values.any id
      | .odd => (values.filter id).length % 2 = 1
      | .negated => !values.any id)

def sampleList (x : Float) : List Term → Except ValueFault (List Sample)
  | [] => .ok []
  | t :: rest => do
    let value ← sampleAt x t
    return value :: (← sampleList x rest)

/-- The sum of parts with their coefficients. -/
def sampleParts (x : Float) : List (Term × Amount) → Except ValueFault Sample
  | [] => .ok (.real 0)
  | (t, c) :: rest => do
    let value ← sampleAt x t
    let factor ← amountSample c
    let scaled := if c = .one then value else factor.mul value
    match rest with
    | [] => return scaled
    | rest => return scaled.add (← sampleParts x rest)

/-- The product of factors. -/
def sampleFactors (x : Float) : List Term → Except ValueFault Sample
  | [] => .ok Sample.one
  | t :: rest => do
    let value ← sampleAt x t
    match rest with
    | [] => return value
    | rest => return value.mul (← sampleFactors x rest)

end

/-- The value of a term without variables. -/
def constantValue? (t : Term) : Option ComplexFloat :=
  if t.isConstant then (sampleAt 0 t).toOption.map Sample.toComplex else none

end Term

end FormulaDesk.Symbolic
