import FormulaDesk.Json.Basic
import FormulaDesk.Decimal.Numeral

/-!
# Reading values

The exchange notation, read from characters or from bytes. Besides JSON proper the words `NaN`,
`Infinity` and `-Infinity` are numbers. Of a key that comes twice the last value counts, at the
place of the first. Bytes may be UTF-8, UTF-16 or UTF-32, told apart by a byte order mark or by
where their zeros stand.
-/

namespace FormulaDesk.Json

def isSpace (c : Char) : Bool := c == ' ' || c == '\t' || c == '\n' || c == '\r'

def skipSpace (cs : List Char) : List Char := cs.dropWhile isSpace

def hexValue? (c : Char) : Option Nat :=
  if Text.isAsciiDigit c then some (c.toNat - 48)
  else if 'a' ≤ c ∧ c ≤ 'f' then some (c.toNat - 87)
  else if 'A' ≤ c ∧ c ≤ 'F' then some (c.toNat - 55)
  else none

/-- Four hexadecimal digits. -/
def hex4? : List Char → Option (Nat × List Char)
  | a :: b :: c :: d :: rest => do
    let a ← hexValue? a
    let b ← hexValue? b
    let c ← hexValue? c
    let d ← hexValue? d
    some (((a * 16 + b) * 16 + c) * 16 + d, rest)
  | _ => none

/-- The character of a code unit; half of a surrogate pair has none and is replaced. -/
def unitChar (n : Nat) : Char := if 0xD800 ≤ n ∧ n < 0xE000 then Char.ofNat 0xFFFD else Char.ofNat n

/-- A code unit after its escape, joined with the second half of a surrogate pair. -/
def joinUnits (n : Nat) (rest : List Char) : Char × List Char :=
  if 0xD800 ≤ n ∧ n < 0xDC00 then
    match rest with
    | '\\' :: 'u' :: more =>
      match hex4? more with
      | some (m, after) =>
        if 0xDC00 ≤ m ∧ m < 0xE000 then
          (Char.ofNat (0x10000 + (n - 0xD800) * 0x400 + (m - 0xDC00)), after)
        else (unitChar n, rest)
      | none => (unitChar n, rest)
    | _ => (unitChar n, rest)
  else (unitChar n, rest)

def simpleEscape? (c : Char) : Option Char :=
  if c == '"' || c == '\\' || c == '/' then some c
  else if c == 'b' then some (Char.ofNat 8)
  else if c == 'f' then some (Char.ofNat 12)
  else if c == 'n' then some '\n'
  else if c == 'r' then some '\r'
  else if c == 't' then some '\t'
  else none

/-- The rest of a string after its opening quote. `fuel` bounds the characters read. -/
def readString : Nat → List Char → List Char → Option (String × List Char)
  | 0, _, _ => none
  | _ + 1, _, [] => none
  | fuel + 1, acc, c :: cs =>
    if c == '"' then some (String.ofList acc.reverse, cs)
    else if c == '\\' then
      match cs with
      | [] => none
      | 'u' :: more => do
        let (n, rest) ← hex4? more
        let (joined, after) := joinUnits n rest
        readString fuel (joined :: acc) after
      | e :: rest => do
        let plain ← simpleEscape? e
        readString fuel (plain :: acc) rest
    else if c.toNat < 32 then none
    else readString fuel (c :: acc) cs

/-- A fraction, if a digit follows the point. -/
def readFraction (cs : List Char) : Option (List Char × List Char) :=
  match cs with
  | '.' :: rest =>
    let run := rest.takeWhile Text.isAsciiDigit
    if run.isEmpty then none else some (run, rest.dropWhile Text.isAsciiDigit)
  | _ => none

/-- A power of ten, if a digit follows the letter and its sign. -/
def readPower (cs : List Char) : Option (Int × List Char) :=
  match cs with
  | c :: rest =>
    if c == 'e' || c == 'E' then
      let (negative, body) := Numeral.splitSign rest
      let run := body.takeWhile Text.isAsciiDigit
      if run.isEmpty then none
      else some (Numeral.applySign negative (Numeral.digitsValue run),
        body.dropWhile Text.isAsciiDigit)
    else none
  | [] => none

/-- A number without its sign. A leading zero stands alone, and a whole number has a bounded
length. -/
def readNumber (negative : Bool) (cs : List Char) : Option (Json × List Char) :=
  let digits := cs.takeWhile Text.isAsciiDigit
  match digits with
  | [] => none
  | first :: _ =>
    let whole := if first == '0' then ['0'] else digits
    let after := cs.drop whole.length
    let fraction := readFraction after
    let (fractionDigits, afterFraction) := fraction.getD ([], after)
    let power := readPower afterFraction
    let (powerValue, rest) := power.getD (0, afterFraction)
    if fraction.isSome || power.isSome then
      let decimal : Decimal :=
        ⟨Numeral.digitsValue (whole ++ fractionDigits), powerValue - fractionDigits.length⟩
      some (.float (decimal.toFloat negative), rest)
    -- a real number may have any number of digits
    else if Numeral.maxDigits < whole.length then none
    else some (.int (Numeral.applySign negative (Numeral.digitsValue whole)), rest)

/-- Removes a word from the front of the characters. -/
def dropWord? (word : List Char) (cs : List Char) : Option (List Char) :=
  if word.isPrefixOf cs then some (cs.drop word.length) else none

/-- The values that are single words. -/
def readWord (cs : List Char) : Option (Json × List Char) :=
  words.findSome? fun (word, value) => (dropWord? word.toList cs).map (value, ·)
where
  words : List (String × Json) :=
    [("null", .null), ("true", .bool true), ("false", .bool false), ("NaN", .float (0 / 0)),
      ("Infinity", .float (1 / 0)), ("-Infinity", .float (-1 / 0))]

mutual

/-- One value at the front of the characters. `fuel` bounds the depth and the number of entries. -/
def readValue : Nat → List Char → Option (Json × List Char)
  | 0, _ => none
  | fuel + 1, cs =>
    match cs with
    | [] => none
    | '"' :: rest => (readString fuel [] rest).map fun (s, after) => (.str s, after)
    | '[' :: rest =>
      match skipSpace rest with
      | ']' :: after => some (.arr [], after)
      | body => (readItems fuel [] body).map fun (items, after) => (.arr items, after)
    | '{' :: rest =>
      match skipSpace rest with
      | '}' :: after => some (.obj [], after)
      | body => (readMembers fuel [] body).map fun (fields, after) => (.obj fields, after)
    | c :: rest =>
      -- the words go first, as one of them starts with a minus
      match readWord cs with
      | some found => some found
      | none => if c == '-' then readNumber true rest else readNumber false cs

/-- The items of a list up to its closing bracket; `acc` holds those before, last first. -/
def readItems : Nat → List Json → List Char → Option (List Json × List Char)
  | 0, _, _ => none
  | fuel + 1, acc, cs => do
    let (v, after) ← readValue fuel (skipSpace cs)
    match skipSpace after with
    | ',' :: more => readItems fuel (v :: acc) more
    | ']' :: more => some ((v :: acc).reverse, more)
    | _ => none

/-- The fields of an object up to its closing brace. -/
def readMembers : Nat → Fields → List Char → Option (Fields × List Char)
  | 0, _, _ => none
  | fuel + 1, acc, cs =>
    match skipSpace cs with
    | '"' :: rest => do
      let (key, afterKey) ← readString fuel [] rest
      match skipSpace afterKey with
      | ':' :: more => do
        let (v, after) ← readValue fuel (skipSpace more)
        match skipSpace after with
        | ',' :: next => readMembers fuel (acc.set key v) next
        | '}' :: next => some (acc.set key v, next)
        | _ => none
      | _ => none
    | _ => none

end

/-- Reads a whole text as one value. -/
def ofChars? (cs : List Char) : Option Json := do
  let (v, rest) ← readValue (2 * cs.length + 2) (skipSpace cs)
  if (skipSpace rest).isEmpty then some v else none

def ofString? (s : String) : Option Json := ofChars? s.toList

/-! ## Bytes -/

/-- The encodings that a body may have. -/
inductive Encoding where
  | utf8
  | utf16 (bigEndian : Bool)
  | utf32 (bigEndian : Bool)
deriving DecidableEq, Repr

/-- The encoding of some bytes, and the length of their byte order mark. -/
def Encoding.detect (bytes : List Nat) : Encoding × Nat :=
  match bytes with
  | 0x00 :: 0x00 :: 0xFE :: 0xFF :: _ => (.utf32 true, 4)
  -- before the mark of UTF-16, which begins with the same bytes
  | 0xFF :: 0xFE :: 0x00 :: 0x00 :: _ => (.utf32 false, 4)
  | 0xFE :: 0xFF :: _ => (.utf16 true, 2)
  | 0xFF :: 0xFE :: _ => (.utf16 false, 2)
  | 0xEF :: 0xBB :: 0xBF :: _ => (.utf8, 3)
  | a :: b :: c :: d :: _ =>
    if a = 0 then (if b = 0 then .utf32 true else .utf16 true, 0)
    else if b = 0 then (if c = 0 ∧ d = 0 then .utf32 false else .utf16 false, 0)
    else (.utf8, 0)
  | [a, b] =>
    if a = 0 then (.utf16 true, 0) else if b = 0 then (.utf16 false, 0) else (.utf8, 0)
  | _ => (.utf8, 0)

/-- The 16-bit units of some bytes; none if one byte is left over. -/
def units16 (bigEndian : Bool) : List Nat → Option (List Nat)
  | [] => some []
  | a :: b :: rest =>
    (units16 bigEndian rest).map ((if bigEndian then a * 256 + b else b * 256 + a) :: ·)
  | _ => none

/-- Joins surrogate pairs. -/
def charsOfUnits : List Nat → List Char
  | [] => []
  | [n] => [unitChar n]
  | n :: m :: rest =>
    if 0xD800 ≤ n ∧ n < 0xDC00 ∧ 0xDC00 ≤ m ∧ m < 0xE000 then
      Char.ofNat (0x10000 + (n - 0xD800) * 0x400 + (m - 0xDC00)) :: charsOfUnits rest
    else unitChar n :: charsOfUnits (m :: rest)

/-- The 32-bit units of some bytes as characters; none if bytes are left over or out of range. -/
def chars32 (bigEndian : Bool) : List Nat → Option (List Char)
  | [] => some []
  | a :: b :: c :: d :: rest =>
    let n := if bigEndian then ((a * 256 + b) * 256 + c) * 256 + d
      else ((d * 256 + c) * 256 + b) * 256 + a
    if n < 0x110000 then (chars32 bigEndian rest).map (unitChar n :: ·) else none
  | _ => none

def decode? (bytes : List Nat) : Option (List Char) :=
  let (encoding, mark) := Encoding.detect bytes
  let body := bytes.drop mark
  match encoding with
  | .utf8 => (String.fromUTF8? ⟨(body.map Nat.toUInt8).toArray⟩).map String.toList
  | .utf16 bigEndian => (units16 bigEndian body).map charsOfUnits
  | .utf32 bigEndian => chars32 bigEndian body

/-- Reads bytes as one value. -/
def ofBytes? (bytes : List Nat) : Option Json := (decode? bytes).bind ofChars?

end FormulaDesk.Json
