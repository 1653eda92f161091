import FormulaDesk.Decimal.Numeral
import FormulaDesk.Text.CharClass

/-!
# Tokens of an expression

An expression is read as numbers, names, texts and marks. White space separates tokens; a line may
end inside brackets, after a backslash, or where nothing but comments follows. Marks that stand side
by side are read again as one run, so that `* *` is the power sign. One or two exclamation marks are
a factorial.
-/

namespace FormulaDesk.Expression

inductive Token where
  /-- The digits of a number, as they stand. -/
  | number (digits : List Char)
  | name (s : String)
  | text (s : String)
  | mark (s : String)
  /-- A factorial; `spaced` if a blank stands before it. -/
  | factorial (double spaced : Bool)
deriving DecidableEq, Repr, Inhabited

namespace Token

/-! ## Numbers -/

/-- One number and what follows it. -/
abbrev Scan := Option (List Char × List Char)

def hexClass (c : Char) : Bool :=
  Text.isAsciiDigit c || ('a' ≤ c && c ≤ 'f') || ('A' ≤ c && c ≤ 'F')

/-- Digits of a class, each with an underscore before it if there is one. -/
def runOf (isMember : Char → Bool) : List Char → List Char × List Char
  | '_' :: c :: cs =>
    if isMember c then
      let (run, rest) := runOf isMember cs
      ('_' :: c :: run, rest)
    else ([], '_' :: c :: cs)
  | c :: cs =>
    if isMember c then
      let (run, rest) := runOf isMember cs
      (c :: run, rest)
    else ([], c :: cs)
  | [] => ([], [])

/-- Decimal digits that start with a digit. -/
def decimalRun : List Char → List Char × List Char
  | c :: cs =>
    if Text.isAsciiDigit c then
      let (run, rest) := runOf Text.isAsciiDigit cs
      (c :: run, rest)
    else ([], c :: cs)
  | [] => ([], [])

/-- A power of ten, or nothing. -/
def exponentRun (cs : List Char) : List Char × List Char :=
  let digitsAfter (head : List Char) (cs : List Char) : Option (List Char × List Char) :=
    let (run, rest) := decimalRun cs
    if run.isEmpty then none else some (head ++ run, rest)
  let found := match cs with
    | e :: sign :: rest =>
      if e == 'e' || e == 'E' then
        if sign == '+' || sign == '-' then digitsAfter [e, sign] rest
        else digitsAfter [e] (sign :: rest)
      else none
    | _ => none
  found.getD ([], cs)

/-- Digits with a point. -/
def pointNumber? (cs : List Char) : Scan :=
  let (whole, after) := decimalRun cs
  match after with
  | '.' :: more =>
    let (fraction, rest) := decimalRun more
    if whole.isEmpty && fraction.isEmpty then none
    else
      let (power, rest) := exponentRun rest
      some (whole ++ '.' :: fraction ++ power, rest)
  | _ => none

/-- Digits without a point but with a power of ten. -/
def powerNumber? (cs : List Char) : Scan :=
  let (whole, after) := decimalRun cs
  let (power, rest) := exponentRun after
  if whole.isEmpty || power.isEmpty then none else some (whole ++ power, rest)

def basedNumber? (letters : List Char) (isMember : Char → Bool) : List Char → Scan
  | '0' :: letter :: cs =>
    if letters.contains letter then
      let (run, rest) := runOf isMember cs
      if run.isEmpty then none else some ('0' :: letter :: run, rest)
    else none
  | _ => none

/-- A whole number; one that starts with zero has no other digits. -/
def wholeNumber? (cs : List Char) : Scan :=
  match cs with
  | '0' :: rest =>
    let (run, rest) := runOf (· == '0') rest
    some ('0' :: run, rest)
  | _ =>
    let (run, rest) := decimalRun cs
    if run.isEmpty then none else some (run, rest)

def isUnitLetter (c : Char) : Bool := c == 'j' || c == 'J'

/-- The number at the front. -/
def number? (cs : List Char) : Scan :=
  let real := (pointNumber? cs).orElse fun _ => powerNumber? cs
  let plain := decimalRun cs
  match real, plain with
  | some (run, c :: rest), _ =>
    if isUnitLetter c then some (run ++ [c], rest) else some (run, c :: rest)
  | some (run, []), _ => some (run, [])
  | none, (run, c :: rest) =>
    if !run.isEmpty && isUnitLetter c then some (run ++ [c], rest) else based
  | none, _ => based
where
  based : Scan :=
    -- a based number starts with a zero, which a whole number would take alone
    (basedNumber? ['x', 'X'] hexClass cs).orElse fun _ =>
      (basedNumber? ['b', 'B'] (fun c => c == '0' || c == '1') cs).orElse fun _ =>
        (basedNumber? ['o', 'O'] (fun c => '0' ≤ c && c ≤ '7') cs).orElse fun _ =>
          wholeNumber? cs

/-! ## Texts -/

/-- The letters that may stand before a text. -/
def isTextMark (cs : List Char) : Bool :=
  ["r", "u", "f", "b", "rb", "br", "rf", "fr"].contains
    (String.ofList (cs.map Numeral.lowerAscii))

/-- A text up to its closing quote; a backslash takes the next character with it. -/
def quotedRun (quote : Char) : List Char → Scan
  | [] => none
  | '\n' :: _ => none
  | '\\' :: c :: cs => (quotedRun quote cs).map fun (run, rest) => ('\\' :: c :: run, rest)
  | c :: cs =>
    if c == quote then some ([], cs)
    else (quotedRun quote cs).map fun (run, rest) => (c :: run, rest)

/-- A text up to three closing quotes. -/
def longRun (quote : Char) : List Char → Scan
  | [] => none
  | '\\' :: c :: cs => (longRun quote cs).map fun (run, rest) => ('\\' :: c :: run, rest)
  | c :: cs =>
    if c == quote && cs.take 2 == [quote, quote] then some ([], cs.drop 2)
    else (longRun quote cs).map fun (run, rest) => (c :: run, rest)

/-- The text that starts with a quote. -/
def text? : List Char → Scan
  | q :: cs =>
    if q == '\'' || q == '"' then
      match cs with
      | a :: b :: rest => if a == q && b == q then longRun q rest else quotedRun q cs
      | _ => quotedRun q cs
    else none
  | [] => none

/-! ## Marks -/

/-- The marks of more than one character, longest first. -/
def longMarks : List String :=
  ["**=", "...", "//=", "<<=", ">>=", "!=", "%=", "&=", "**", "*=", "+=", "-=", "->", "//",
    "/=", ":=", "<<", "<=", "==", ">=", ">>", "@=", "^=", "|="]

def shortMarks : List Char :=
  ['%', '&', '(', ')', '*', '+', ',', '-', '.', '/', ':', ';', '<', '=', '>', '@', '[', ']', '^',
    '{', '|', '}', '~']

/-- The mark at the front. -/
def mark? (cs : List Char) : Option (String × List Char) :=
  match longMarks.find? fun m => m.toList.isPrefixOf cs with
  | some m => some (m, cs.drop m.length)
  | none =>
    match cs with
    | c :: rest => if shortMarks.contains c then some (c.toString, rest) else none
    | [] => none

def opens (m : String) : Bool := m = "(" ∨ m = "[" ∨ m = "\x7b"

def closes (m : String) : Bool := m = ")" ∨ m = "]" ∨ m = "\x7d"

/-- Splits a run of marks anew. -/
def splitMarks : Nat → List Char → List Token
  | 0, _ => []
  | fuel + 1, cs =>
    match mark? cs with
    | some (m, rest) => .mark m :: splitMarks fuel rest
    | none => []

/-- Reads marks that stand side by side as one run. `run` holds the characters so far. -/
def mergeMarks : (run : List Char) → List Token → List Token
  | run, .mark m :: rest => mergeMarks (run ++ m.toList) rest
  | run, t :: rest => splitMarks run.length run ++ t :: mergeMarks [] rest
  | run, [] => splitMarks run.length run

/-! ## Reading -/

/-- What has been read: the brackets that are open, whether any token was read, whether the line of
the expression has ended, and whether the line starts with a blank. -/
structure Progress where
  depth : Nat := 0
  begun : Bool := false
  ended : Bool := false
  indented : Bool := false
  /-- Blanks directly before. -/
  blanks : Nat := 0
deriving Repr

namespace Progress

def isGap (c : Char) : Bool := c == ' ' || c == '\t' || c == '\x0c'

/-- The brackets that may be open at once. A number counts as one more. -/
def maxDepth : Nat := 200

/-- Whether another token may be read here. -/
def allowsToken (p : Progress) : Bool := !p.ended && (p.begun || !p.indented)

def afterToken (p : Progress) : Progress := { p with begun := true, blanks := 0 }

def afterLine (p : Progress) : Progress :=
  { p with ended := p.ended || (p.begun && p.depth == 0), indented := false, blanks := 0 }

def afterBlank (p : Progress) (first : Bool) : Progress :=
  { p with indented := p.indented || first, blanks := p.blanks + 1 }

def afterMark (p : Progress) (m : String) : Option Progress :=
  if opens m then
    if p.depth < maxDepth then some { p.afterToken with depth := p.depth + 1 } else none
  else if closes m then some { p.afterToken with depth := p.depth - 1 }
  else some p.afterToken

end Progress

/-- Skips a comment up to the end of its line. -/
def skipComment (cs : List Char) : List Char := cs.dropWhile fun c => c != '\n' && c != '\r'

/-- A factorial of one or two exclamation marks, and what follows. -/
def factorial? (blanks : Nat) (cs : List Char) : Option (Token × List Char) :=
  let marks := cs.takeWhile (· == '!')
  if 1 < blanks then none
  else match marks.length with
    | 1 => some (.factorial false (blanks == 1), cs.drop 1)
    | 2 => some (.factorial true (blanks == 1), cs.drop 2)
    | _ => none

/-- Reads all tokens; each step takes one of `fuel`. Nothing is read where a character starts no
token or a bracket stays open. -/
def readAll : (fuel : Nat) → Progress → List Char → Option (List Token)
  | 0, _, _ => none
  | _ + 1, p, [] => if p.depth == 0 then some [] else none
  | fuel + 1, p, c :: cs =>
    if Progress.isGap c then
      readAll fuel (p.afterBlank (!p.begun && p.blanks == 0)) cs
    else if c == '\n' || c == '\r' then readAll fuel p.afterLine cs
    else if c == '#' then readAll fuel p (skipComment cs)
    -- blanks, line ends and comments may stand anywhere; a token may not
    else if !p.allowsToken then none
    else if c == '\\' then
      match cs with
      -- a backslash joins two lines, so there has to be a second one
      | '\n' :: rest => if rest.isEmpty then none else readAll fuel p rest
      | _ => none
    else
      let step (t : Token) (rest : List Char) : Option (List Token) :=
        (readAll fuel p.afterToken rest).map (t :: ·)
      -- numbers before marks: a point may start a number
      match number? (c :: cs) with
      | some (run, rest) => if p.depth < Progress.maxDepth then step (.number run) rest else none
      | none =>
        match mark? (c :: cs) with
        | some (m, rest) =>
          (p.afterMark m).bind fun after => (readAll fuel after rest).map (.mark m :: ·)
        | none =>
          if c == '!' then
            (factorial? p.blanks (c :: cs)).bind fun (t, rest) => step t rest
          else
            let word := (c :: cs).takeWhile Text.isWord
            let after := (c :: cs).dropWhile Text.isWord
            match text? after with
            | some (run, rest) =>
              -- letters before a quote belong to the text or are a name of their own
              if word.isEmpty || isTextMark word then step (.text (String.ofList run)) rest
              else if Text.startsName c then step (.name (String.ofList word)) after
              else none
            | none =>
              if !word.isEmpty && Text.startsName c then
                step (.name (String.ofList word)) after
              else none

/-- The tokens of an expression. -/
def ofString? (expression : String) : Option (List Token) :=
  let cs := Text.stripBlank expression.toList
  (readAll (cs.length + 1) {} cs).map (mergeMarks [])

end Token

end FormulaDesk.Expression
