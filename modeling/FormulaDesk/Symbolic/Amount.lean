import FormulaDesk.Decimal.Binary
import FormulaDesk.Decimal.Digits

/-!
# Amounts

The numbers of the local algebra. An exact amount is a rational number; a rounded one comes from a
decimal and keeps its number of binary digits through every step, with no bound on its power of two;
where two of them meet the greater precision wins. Besides there are the two infinities, an infinity
of unknown direction, and what has no value at all.
-/

namespace FormulaDesk.Symbolic

/-- A rational number to so many binary digits, to the nearest; a half goes to the even
neighbour. -/
def roundBinary (bits : Nat) (q : Rat) : Rat :=
  if q.num = 0 then 0 else
  let num := q.num.natAbs
  -- the lengths of both parts give the power of two up to one
  let near : Int := (num.log2 : Int) - q.den.log2
  let scale := if num * Nat.pow 2 (-near).toNat < q.den * Nat.pow 2 near.toNat then near else near + 1
  let shift : Int := bits - scale
  let rounded : Rat :=
    if 0 ≤ shift then
      mkRat (Decimal.roundDiv (num * Nat.pow 2 shift.toNat) q.den) (Nat.pow 2 shift.toNat)
    else
      ((Decimal.roundDiv num (q.den * Nat.pow 2 (-shift).toNat)
        * Nat.pow 2 (-shift).toNat : Nat) : Rat)
  if q.num < 0 then -rounded else rounded

inductive Amount where
  | exact (q : Rat)
  /-- A number known to so many binary digits. -/
  | rounded (q : Rat) (bits : Nat)
  | infinite (negative : Bool)
  /-- An infinity whose direction is unknown. -/
  | unsigned
  /-- No value. -/
  | undefined
deriving DecidableEq, Inhabited, Repr

namespace Amount

def zero : Amount := .exact 0

def one : Amount := .exact 1

def ofInt (n : Int) : Amount := .exact (n : Rat)

/-- The binary digits of a float. -/
def floatBits : Nat := 53

/-- An amount as it is rounded. -/
def round (bits : Nat) (q : Rat) : Amount := .rounded (roundBinary bits q) bits

/-- The precision of a rounded amount; other amounts have none. -/
def bits : Amount → Nat
  | .rounded _ bits => bits
  | _ => 0

/-- The finite value. -/
def value? : Amount → Option Rat
  | .exact q => some q
  | .rounded q _ => some q
  | _ => none

def isExact : Amount → Bool
  | .exact _ => true
  | _ => false

def isFinite (a : Amount) : Bool := a.value?.isSome

def isZero (a : Amount) : Bool := a.value? == some 0

def isNegative : Amount → Bool
  | .exact q => q < 0
  | .rounded q _ => q < 0
  | .infinite negative => negative
  | _ => false

def isPositive : Amount → Bool
  | .exact q => 0 < q
  | .rounded q _ => 0 < q
  | .infinite negative => !negative
  | _ => false

/-- The whole number that an exact amount is. -/
def int? : Amount → Option Int
  | .exact q => if q.den = 1 then some q.num else none
  | _ => none

/-- The whole number that an amount equals, exact or rounded. -/
def intValue? (a : Amount) : Option Int :=
  a.value?.bind fun q => if q.den = 1 then some q.num else none

def neg : Amount → Amount
  | .exact q => .exact (-q)
  | .rounded q bits => .rounded (-q) bits
  | .infinite negative => .infinite (!negative)
  | a => a

/-- Brings two finite values together; the result is exact if both are. -/
def combine (op : Rat → Rat → Rat) (a b : Amount) (p q : Rat) : Amount :=
  if a.isExact && b.isExact then .exact (op p q) else round (max a.bits b.bits) (op p q)

def add (a b : Amount) : Amount :=
  match a, b with
  | .undefined, _ => .undefined
  | _, .undefined => .undefined
  | .unsigned, .unsigned => .undefined
  | .unsigned, .infinite _ => .undefined
  | .infinite _, .unsigned => .undefined
  | .unsigned, _ => .unsigned
  | _, .unsigned => .unsigned
  | .infinite s, .infinite t => if s = t then .infinite s else .undefined
  | .infinite s, _ => .infinite s
  | _, .infinite t => .infinite t
  | a, b =>
    match a.value?, b.value? with
    | some p, some q => combine (· + ·) a b p q
    | _, _ => .undefined

/-- An exact zero stays exact beside a rounded factor. -/
def mul (a b : Amount) : Amount :=
  match a, b with
  | .undefined, _ => .undefined
  | _, .undefined => .undefined
  | .unsigned, b => if b.isZero then .undefined else .unsigned
  | a, .unsigned => if a.isZero then .undefined else .unsigned
  | .infinite s, b => if b.isZero then .undefined else .infinite (s != b.isNegative)
  | a, .infinite t => if a.isZero then .undefined else .infinite (t != a.isNegative)
  | a, b =>
    match a.value?, b.value? with
    | some p, some q =>
      if a = zero ∨ b = zero then zero else combine (· * ·) a b p q
    | _, _ => .undefined

def inverse (a : Amount) : Amount :=
  match a with
  | .exact q => if q = 0 then .unsigned else .exact q⁻¹
  | .rounded q bits => if q = 0 then .unsigned else round bits q⁻¹
  | .infinite _ => zero
  | .unsigned => zero
  | .undefined => .undefined

/-- The most binary digits that a power is worked out to. -/
def maxPowerBits : Nat := 4000000

/-- A power with a whole exponent; none if it is too long to work out. -/
def powInt? (a : Amount) (n : Int) : Option Amount :=
  match a with
  | .undefined => some .undefined
  | .unsigned => some (if n < 0 then zero else if n = 0 then one else .unsigned)
  | .infinite negative =>
    some (if n < 0 then zero else if n = 0 then one
      else .infinite (negative && n % 2 = 1))
  | a =>
    match a.value? with
    | none => some .undefined
    | some q =>
      if q = 0 then some (if n < 0 then .unsigned else if n = 0 then one else a)
      else if maxPowerBits < (q.num.natAbs.log2 + q.den.log2 + 1) * n.natAbs then none
      else
        let positive := q ^ n.natAbs
        let result := if n < 0 then positive⁻¹ else positive
        some (if a.isExact then .exact result else round a.bits result)

/-- Order of finite amounts and the two infinities. -/
def lt (a b : Amount) : Bool :=
  match a, b with
  | .infinite s, .infinite t => s && !t
  | .infinite s, _ => s
  | _, .infinite t => !t
  | a, b =>
    match a.value?, b.value? with
    | some p, some q => p < q
    | _, _ => false

/-- A total order for sorting: by value, an exact amount before an equal rounded one. -/
def rank : Amount → Nat
  | .exact _ => 0
  | .rounded .. => 1
  | .infinite _ => 2
  | .unsigned => 3
  | .undefined => 4

def cmp (a b : Amount) : Ordering :=
  match a.value?, b.value? with
  | some p, some q =>
    if p < q then .lt else if q < p then .gt else compare a.rank b.rank
  | _, _ =>
    match a, b with
    | .infinite s, .infinite t => compare t s
    | a, b => compare a.rank b.rank

/-- The nearest float to a rational number. The number is rounded to the digits of a float first,
after which scaling by a power of two loses nothing. -/
def ratToFloat (q : Rat) : Float :=
  let r := roundBinary floatBits q
  let num := r.num.natAbs
  let magnitude : Float :=
    if 1100 < num.log2 then 1 / 0 else (Float.ofNat num).scaleB (-(r.den.log2 : Int))
  if r.num < 0 then -magnitude else magnitude

/-- The rounded amount that a finite float is. -/
def ofFloat? (x : Float) : Option Amount :=
  match Binary.ofFloat x with
  | .finite negative mantissa exponent =>
    let (num, den) := Binary.quotient mantissa exponent
    let q := mkRat num den
    some (.rounded (if negative then -q else q) floatBits)
  | _ => none

end Amount

end FormulaDesk.Symbolic
