import FormulaDesk.Symbolic.Term

/-!
# Powers of numbers

A rational power of a rational number is worked out as far as it goes: whole powers leave the root,
and what stays is a product of prime roots with exponents between zero and one. Minus one keeps a
root of its own, of which the square root is the imaginary unit.
-/

namespace FormulaDesk.Symbolic.Root

/-- Divides by `d` as often as it goes: the number of times, and the rest. -/
def extract : (fuel n d : Nat) → Nat × Nat
  | 0, n, _ => (0, n)
  | fuel + 1, n, d =>
    if n % d = 0 then
      let (k, rest) := extract fuel (n / d) d
      (k + 1, rest)
    else (0, n)

/-- The largest number with `r ^ k ≤ n`, between `low` and `high`. -/
def rootBetween (n k : Nat) : (fuel low high : Nat) → Nat
  | 0, low, _ => low
  | fuel + 1, low, high =>
    if high ≤ low + 1 then low
    else
      let middle := (low + high) / 2
      if Nat.pow middle k ≤ n then rootBetween n k fuel middle high
      else rootBetween n k fuel low middle

def floorRoot (n k : Nat) : Nat := rootBetween n k (n.log2 + 2) 0 (Nat.pow 2 (n.log2 / k + 1))

/-- A number without small divisors as a power of another. -/
def perfectPower (n : Nat) : Nat × Nat :=
  match ([7, 5, 3, 2].find? fun k => Nat.pow (floorRoot n k) k = n) with
  | some k => (floorRoot n k, k)
  | none => (n, 1)

/-- The least divisors that are tried. -/
def maxDivisor : Nat := 1000

/-- The divisors from `d` on with their exponents; what is left counts as one divisor. -/
def divisorsFrom : (fuel n d : Nat) → List (Nat × Nat)
  | 0, n, _ => if n ≤ 1 then [] else [perfectPower n]
  | fuel + 1, n, d =>
    if n ≤ 1 then []
    else if n < d * d then [(n, 1)]
    else
      let (k, rest) := extract (n.log2 + 1) n d
      if k = 0 then divisorsFrom fuel n (d + 1) else (d, k) :: divisorsFrom fuel rest (d + 1)

def divisors (n : Nat) : List (Nat × Nat) := divisorsFrom maxDivisor n 2

/-- The divisors of a positive rational number, those of the denominator with negative exponents. -/
def ratDivisors (q : Rat) : List (Nat × Int) :=
  (divisors q.num.natAbs).map (fun (p, k) => (p, (k : Int)))
    ++ (divisors q.den).map fun (p, k) => (p, -(k : Int))

/-- The whole part of an exponent and the rest between zero and one. -/
def splitExponent (e : Rat) : Int × Rat := (e.floor, e - e.floor)

/-- A power as a rational factor and prime roots. -/
structure Split where
  outside : Rat
  roots : List (Nat × Rat)

def splitPower (q e : Rat) : Split :=
  (ratDivisors q).foldl (fun s (p, k) =>
    let (whole, rest) := splitExponent (e * k)
    let outside := s.outside * (if whole < 0 then ((p : Rat) ^ whole.natAbs)⁻¹ else (p : Rat) ^ whole.natAbs)
    ⟨outside, if rest = 0 then s.roots else s.roots ++ [(p, rest)]⟩) ⟨1, []⟩

/-- Whether a power is short enough to work out. -/
def isShort (q e : Rat) : Bool :=
  (q.num.natAbs.log2 + q.den.log2 + 1) * (e.floor.natAbs + 1) ≤ Amount.maxPowerBits

def rootTerm (p : Nat) (e : Rat) : Term := .power (Term.ofInt p) (Term.ofRat e)

/-- The roots of one and minus one. -/
def signTerm (e : Rat) : Rat × List Term :=
  let (whole, rest) := splitExponent e
  (if whole % 2 = 0 then 1 else -1,
    if rest = 0 then [] else [.power (Term.ofInt (-1)) (Term.ofRat rest)])

/-- A number and factors as a product. -/
def assemble (outside : Rat) (factors : List Term) : Term :=
  match factors with
  | [] => .num (.exact outside)
  | [f] => if outside = 1 then f else .product (.exact outside) [f]
  | fs => .product (.exact outside) fs

/-- An exact power with an exponent that is not whole. -/
def exactPower (q e : Rat) : Term :=
  if q = 0 then (if e < 0 then .num .unsigned else .zero)
  else if !isShort q e then .power (Term.ofRat q) (Term.ofRat e)
  else
    let split := splitPower (if q < 0 then -q else q) e
    let (sign, signRoots) := if q < 0 then signTerm e else (1, [])
    assemble (sign * split.outside) (signRoots ++ split.roots.map fun (p, r) => rootTerm p r)

end FormulaDesk.Symbolic.Root
