/-!
# Floats as exact binary numbers

A float is a sign, a natural mantissa and a power of two, or it is infinite, or it is no number.
Everything that prints, truncates or compares digits starts from this view.
-/

namespace FormulaDesk

/-- What the 64 bits of a float stand for: `± mantissa · 2 ^ exponent`. -/
inductive Binary where
  | nan
  | infinite (negative : Bool)
  | finite (negative : Bool) (mantissa : Nat) (exponent : Int)
deriving Repr, DecidableEq, Inhabited

namespace Binary

def ofBits (bits : Nat) : Binary :=
  let negative := decide (bits / Nat.pow 2 63 = 1)
  let field : Nat := bits / Nat.pow 2 52 % Nat.pow 2 11
  let fraction : Nat := bits % Nat.pow 2 52
  if field = 2047 then
    if fraction = 0 then .infinite negative else .nan
  else if field = 0 then .finite negative fraction (-1074)
  else .finite negative (fraction + Nat.pow 2 52) ((field : Int) - 1075)

def ofFloat (x : Float) : Binary := ofBits x.toBits.toNat

/-- The quotient of two naturals that a finite magnitude equals. -/
def quotient (mantissa : Nat) (exponent : Int) : Nat × Nat :=
  if 0 ≤ exponent then (mantissa * Nat.pow 2 exponent.toNat, 1)
  else (mantissa, Nat.pow 2 (-exponent).toNat)

/-- The integer part, cut toward zero. Neither infinities nor `nan` have one. -/
def truncate? : Binary → Option Int
  | .finite negative mantissa exponent =>
    let (num, den) := quotient mantissa exponent
    let n : Int := (num / den : Nat)
    some (if negative then -n else n)
  | _ => none

def isFinite : Binary → Bool
  | .finite .. => true
  | _ => false

end Binary

end FormulaDesk
