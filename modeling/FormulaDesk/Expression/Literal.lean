import FormulaDesk.Symbolic.Amount
import FormulaDesk.Expression.Token

/-!
# Numbers as they are written

Whole numbers are exact, in any of four bases. A number with a point or a power of ten is rounded:
it keeps the binary digits of a float, or more where it is written with more than fifteen decimal
digits. Digits in brackets after a decimal repeat without end, and the number is exact.
-/

namespace FormulaDesk.Expression.Literal

open Symbolic (Amount)

def withoutUnderscores (cs : List Char) : List Char := cs.filter (· != '_')

def digitValue (c : Char) : Nat :=
  if Text.isAsciiDigit c then c.toNat - '0'.toNat
  else (Numeral.lowerAscii c).toNat - 'a'.toNat + 10

def inBase (base : Nat) (cs : List Char) : Nat :=
  (withoutUnderscores cs).foldl (fun n c => base * n + digitValue c) 0

/-- A whole number. A long decimal is not read. -/
def whole? (cs : List Char) : Option Nat :=
  match cs with
  | '0' :: c :: rest =>
    match Numeral.lowerAscii c with
    | 'x' => some (inBase 16 rest)
    | 'b' => some (inBase 2 rest)
    | 'o' => some (inBase 8 rest)
    | _ => if (withoutUnderscores cs).all (· == '0') then some 0 else none
  | cs =>
    let digits := withoutUnderscores cs
    if Numeral.maxDigits < digits.length then none else some (inBase 10 digits)

/-- The binary digits that go with so many decimal digits. -/
def bitsFor (digits : Nat) : Nat :=
  ((max 15 digits + 1) * 33219280948873626 + 5000000000000000) / 10000000000000000

/-- The largest power of ten that is read. -/
def maxPower : Nat := 20000

/-- A rounded number. A whole number with a power of ten counts all its digits, and is not read if
they are too many. -/
def decimal? (cs : List Char) : Option Amount :=
  match Numeral.readDecimal cs with
  | none => none
  | some d =>
    if maxPower < d.exponent.natAbs then none
    else
      let q : Rat := if 0 ≤ d.exponent then (d.coefficient * Nat.pow 10 d.exponent.toNat : Nat)
        else mkRat d.coefficient (Nat.pow 10 (-d.exponent).toNat)
      let written := Decimal.digitCount d.coefficient
      if cs.contains '.' || q.den != 1 then some (.round (bitsFor written) q)
      else
        let digits := Decimal.digitCount q.num.natAbs
        if Numeral.maxDigits < digits then none
        else some (.round (bitsFor (max written digits)) q)

def isDecimal (cs : List Char) : Bool :=
  cs.contains '.' || ((cs.contains 'e' || cs.contains 'E') && (cs.take 2).all (fun c => c != 'x' && c != 'X'))

/-- Whether the number is a multiple of the imaginary unit, and its digits. -/
def splitUnit (cs : List Char) : Bool × List Char :=
  if cs.getLast?.any Token.isUnitLetter then (true, cs.dropLast) else (false, cs)

/-- The number without its imaginary unit. -/
def amount? (cs : List Char) : Option Amount :=
  if isDecimal cs then decimal? cs else (whole? cs).map fun n => .exact n

/-- Whether digits may repeat after a decimal. -/
def isPlainDecimal (cs : List Char) : Bool :=
  cs.contains '.' && cs.all fun c => Text.isAsciiDigit c || c == '_' || c == '.'

/-- A decimal whose last digits repeat. -/
def repeating? (cs repeated : List Char) : Option Rat :=
  let post := withoutUnderscores ((cs.dropWhile (· != '.')).drop 1)
  let period := withoutUnderscores repeated
  if !isPlainDecimal cs || !repeated.all (fun c => Text.isAsciiDigit c || c == '_')
      || period.all (· == '0') then none
  else
    let zeros : Nat := Nat.pow 10 post.length
    let nines : Nat := (Nat.pow 10 period.length - 1) * zeros
    some ((inBase 10 (cs.takeWhile (· != '.')) : Rat) + mkRat (inBase 10 post) zeros
      + mkRat (inBase 10 period) nines)

end FormulaDesk.Expression.Literal
