import FormulaDesk.Text.Ranges

/-!
# Classes of characters

The classes that the readers and clean-up passes ask about, over all of Unicode. A decimal digit
has a value from zero to nine; a digit may also be a superscript; an alphanumeric character may
also be a fraction. A word character is alphanumeric or an underscore.
-/

namespace FormulaDesk.Text

def isBlank (c : Char) : Bool := covers blankRanges c.toNat

def isLetter (c : Char) : Bool := covers letterRanges c.toNat

/-- The value of a decimal digit of any script. -/
def decimalValue? (c : Char) : Option Nat := search decimalRanges
where
  search : List (Nat × Nat) → Option Nat
    | [] => none
    | (low, high) :: rest =>
      if c.toNat < low then none
      else if c.toNat ≤ high then some ((c.toNat - low) % 10)
      else search rest

def isDecimal (c : Char) : Bool := covers decimalRanges c.toNat

def isDigit (c : Char) : Bool := isDecimal c || covers digitMarkRanges c.toNat

def isAlphanumeric (c : Char) : Bool :=
  isLetter c || isDigit c || covers numericMarkRanges c.toNat

def isWord (c : Char) : Bool := c == '_' || isAlphanumeric c

/-- Whether a name may start with the character. -/
def startsName (c : Char) : Bool :=
  (isLetter c && !covers noNameStartRanges c.toNat) || covers nameStartMarkRanges c.toNat

/-- Whether the character is shown as itself inside quotes. -/
def isPrintable (c : Char) : Bool := covers printableRanges c.toNat

/-- The ASCII letters `A` to `Z` and `a` to `z`. -/
def isAsciiLetter (c : Char) : Bool :=
  ('a' ≤ c && c ≤ 'z') || ('A' ≤ c && c ≤ 'Z')

def isAsciiDigit (c : Char) : Bool := '0' ≤ c && c ≤ '9'

/-- Removes white space at both ends. -/
def stripBlank (cs : List Char) : List Char :=
  ((cs.dropWhile isBlank).reverse.dropWhile isBlank).reverse

end FormulaDesk.Text
