import FormulaDesk.Decimal.Binary

/-!
# Decimal digits of a float

Two ways from an exact binary number to decimal digits: the fewest digits that read back as the
same float, and a given number of significant digits. Both work in exact natural arithmetic.
-/

namespace FormulaDesk

/-- The number `coefficient · 10 ^ exponent`. -/
structure Decimal where
  coefficient : Nat
  exponent : Int
deriving Repr, DecidableEq, Inhabited

namespace Decimal

/-- `num / den` to the nearest natural number; a half goes to the even neighbour. -/
def roundDiv (num den : Nat) : Nat :=
  let quotient := num / den
  let rest := num % den
  if 2 * rest < den then quotient
  else if den < 2 * rest then quotient + 1
  else if quotient % 2 = 0 then quotient
  else quotient + 1

def digitCount (n : Nat) : Nat := (Nat.toDigits 10 n).length

/-- `num · 10 ^ shift < den`, for a shift of either sign. -/
def scaledLt (num : Nat) (shift : Int) (den : Nat) : Bool :=
  if 0 ≤ shift then decide (num * Nat.pow 10 shift.toNat < den)
  else decide (num < den * Nat.pow 10 (-shift).toNat)

/-- The number of digits before the point of `num / den`: the least `k` with
`num / den < 10 ^ k`. -/
def magnitude (num den : Nat) : Int :=
  -- the digit counts give the size up to one
  let guess : Int := (digitCount num : Int) - digitCount den
  if scaledLt num (-guess) den then guess else guess + 1

/-- `num / den` in units of `10 ^ unit`, rounded to the nearest. -/
def roundTo (num den : Nat) (unit : Int) : Nat :=
  if 0 ≤ unit then roundDiv num (den * Nat.pow 10 unit.toNat)
  else roundDiv (num * Nat.pow 10 (-unit).toNat) den

/-- `num / den` in units of `10 ^ unit`, rounded down. -/
def floorTo (num den : Nat) (unit : Int) : Nat :=
  if 0 ≤ unit then num / (den * Nat.pow 10 unit.toNat)
  else num * Nat.pow 10 (-unit).toNat / den

/-- The magnitude `mantissa · 2 ^ exponent` to the given number of significant digits. -/
def significant (places mantissa : Nat) (exponent : Int) : Decimal :=
  if mantissa = 0 then ⟨0, 0⟩ else
  let (num, den) := Binary.quotient mantissa exponent
  let unit := magnitude num den - places
  ⟨roundTo num den unit, unit⟩

/-- The reals that round to one float, as bounds over a common denominator. The bounds belong to
it exactly when the mantissa is even. -/
structure Basin where
  low : Nat
  high : Nat
  den : Nat
  closed : Bool
deriving Repr

/-- The gap below a power of two is half of the gap above it. -/
def Basin.of (mantissa : Nat) (exponent : Int) : Basin :=
  let (num, den) := Binary.quotient mantissa exponent
  let half := 2 * (num / mantissa)
  let below := if mantissa = Nat.pow 2 52 ∧ exponent ≠ -1074 then half / 2 else half
  ⟨4 * num - below, 4 * num + half, 4 * den, mantissa % 2 == 0⟩

/-- Whether `coefficient · 10 ^ unit` rounds to the float of the basin. -/
def Basin.holds (b : Basin) (coefficient : Nat) (unit : Int) : Bool :=
  let (value, scale) :=
    if 0 ≤ unit then (coefficient * Nat.pow 10 unit.toNat * b.den, 1)
    else (coefficient * b.den, Nat.pow 10 (-unit).toNat)
  if b.closed then decide (b.low * scale ≤ value ∧ value ≤ b.high * scale)
  else decide (b.low * scale < value ∧ value < b.high * scale)

/-- The first grid, of those with `places` to `places + budget` digits, on which a neighbour of the
value reads back as the value; of two such neighbours the nearer. -/
def shortestFrom (b : Basin) (num den : Nat) (size : Int) : Nat → Nat → Decimal
  | places, 0 => ⟨roundTo num den (size - places), size - places⟩
  | places, budget + 1 =>
    let unit := size - places
    let below := floorTo num den unit
    let near := roundTo num den unit
    let far := if near = below then below + 1 else below
    if b.holds near unit then ⟨near, unit⟩
    else if b.holds far unit then ⟨far, unit⟩
    else shortestFrom b num den size (places + 1) budget

/-- The shortest decimal that reads back as `mantissa · 2 ^ exponent`. -/
def shortest (mantissa : Nat) (exponent : Int) : Decimal :=
  if mantissa = 0 then ⟨0, 0⟩ else
  let (num, den) := Binary.quotient mantissa exponent
  shortestFrom (.of mantissa exponent) num den (magnitude num den) 1 16

/-- The nearest float, infinite where the decimal is too large. -/
def toFloat (negative : Bool) (d : Decimal) : Float :=
  let size : Int := digitCount d.coefficient + d.exponent
  let magnitude : Float :=
    -- far outside the range of floats no power of ten is worked out
    if d.coefficient = 0 ∨ size < -330 then 0
    else if 310 < size then 1 / 0
    else if 0 ≤ d.exponent then Float.ofScientific d.coefficient false d.exponent.toNat
    else Float.ofScientific d.coefficient true (-d.exponent).toNat
  if negative then -magnitude else magnitude

/-- The nearest float to an integer, none where it is too large. -/
def floatOfInt? (n : Int) : Option Float :=
  let x := toFloat (decide (n < 0)) ⟨n.natAbs, 0⟩
  if (Binary.ofFloat x).isFinite then some x else none

end Decimal

end FormulaDesk
