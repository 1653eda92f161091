import FormulaDesk.Decimal.Digits
import FormulaDesk.Text.CharClass

/-!
# Reading typed numbers

What a form accepts as a number. Digits of any script count, white space around the number is
ignored, and single underscores may stand between digits. A whole number may have a sign and
nothing else; a real number may also have a point, a power of ten, or be one of the words `inf`,
`infinity` and `nan` in any case.
-/

namespace FormulaDesk.Numeral

/-- The longest digit run that is accepted as a whole number. -/
def maxDigits : Nat := 4300

/-- Digits become ASCII digits, and white space outside ASCII becomes a space. -/
def plainChar (c : Char) : Char :=
  if c.toNat < 127 then c
  else match Text.decimalValue? c with
    | some d => Nat.digitChar d
    | none => if Text.isBlank c then ' ' else c

def isPad (c : Char) : Bool := c == ' ' || (9 ≤ c.toNat && c.toNat ≤ 13)

/-- The typed text in plain characters, without white space at its ends. -/
def plain (s : String) : List Char :=
  (((s.toList.map plainChar).dropWhile isPad).reverse.dropWhile isPad).reverse

/-- A run of digits with single underscores between them, and what follows it. -/
def digitRunFrom : Bool → List Char → List Char × List Char
  | _, [] => ([], [])
  | afterDigit, c :: cs =>
    if Text.isAsciiDigit c then
      let (run, rest) := digitRunFrom true cs
      (c :: run, rest)
    else if c == '_' && afterDigit && cs.head?.any Text.isAsciiDigit then digitRunFrom false cs
    else ([], c :: cs)

def digitRun (cs : List Char) : List Char × List Char := digitRunFrom false cs

def digitsValue (ds : List Char) : Nat :=
  ds.foldl (fun n c => 10 * n + (c.toNat - '0'.toNat)) 0

/-- Splits off a sign; `true` is a minus. -/
def splitSign : List Char → Bool × List Char
  | '-' :: cs => (true, cs)
  | '+' :: cs => (false, cs)
  | cs => (false, cs)

def applySign (negative : Bool) (n : Nat) : Int := if negative then -(n : Int) else n

/-- Why a text is no whole number. -/
inductive IntFault where
  | malformed
  | tooLong (digits : Nat)
deriving Repr, DecidableEq

/-- Reads a whole number. The length of a digit run is checked before what follows it. -/
def readInt (s : String) : Except IntFault Int :=
  let (negative, body) := splitSign (plain s)
  let (run, after) := digitRun body
  if maxDigits < run.length ∧ after.head? ≠ some '_' then .error (.tooLong run.length)
  else if run.isEmpty ∨ ¬ after.isEmpty then .error .malformed
  else .ok (applySign negative (digitsValue run))

/-- Reads the power of ten that may end a number; `none` if something else follows. -/
def readPower : List Char → Option Int
  | [] => some 0
  | c :: cs =>
    if c == 'e' || c == 'E' then
      let (negative, body) := splitSign cs
      let (run, after) := digitRun body
      if run.isEmpty || !after.isEmpty then none
      else some (applySign negative (digitsValue run))
    else none

/-- Reads digits with an optional point and power of ten. -/
def readDecimal (cs : List Char) : Option Decimal :=
  let (whole, after) := digitRun cs
  let (fraction, rest) := match after with
    | '.' :: more => digitRun more
    | _ => ([], after)
  if whole.isEmpty && fraction.isEmpty then none
  else (readPower rest).map fun p =>
    ⟨digitsValue (whole ++ fraction), p - fraction.length⟩

def lowerAscii (c : Char) : Char := if 'A' ≤ c ∧ c ≤ 'Z' then Char.ofNat (c.toNat + 32) else c

/-- Reads a real number. -/
def readFloat (s : String) : Option Float :=
  let (negative, body) := splitSign (plain s)
  let word := String.ofList (body.map lowerAscii)
  if word = "inf" ∨ word = "infinity" then some (if negative then -1 / 0 else 1 / 0)
  else if word = "nan" then some (0 / 0)
  else (readDecimal body).map (·.toFloat negative)

end FormulaDesk.Numeral
