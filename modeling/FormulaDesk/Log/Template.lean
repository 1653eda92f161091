import FormulaDesk.Failure

/-!
# Message templates

A message is a template whose percent marks are replaced by its arguments in order: `%s` shows a
value, `%r` shows it in quotes, `%d` a whole number, `%x` and `%o` one in another base, `%f`, `%e`
and `%g` a real number, `%c` a character. Between percent and letter stand flags, a width, a
precision and a size letter, which is ignored. `%(key)s` takes an entry of an object instead.
-/

namespace FormulaDesk.Template

/-- The flags of a mark. -/
structure Flags where
  left : Bool := false
  sign : Bool := false
  blank : Bool := false
  alternate : Bool := false
  zero : Bool := false

/-- What stands between the percent and its letter. -/
structure Mark where
  flags : Flags
  width : Nat
  precision : Option Nat

/-- The arguments that are left: a list, or an object, which is taken whole at most once. -/
inductive Arguments where
  | listed (values : List Json)
  | object (fields : Fields) (next : Option Json)

/-- A single object that is not empty gives its entries by name. -/
def Arguments.ofList (args : List Json) : Arguments :=
  match args with
  | [.obj (kv :: rest)] => .object (kv :: rest) (some (.obj (kv :: rest)))
  | args => .listed args

def Arguments.next (args : Arguments) : Except ValueFault (Json × Arguments) :=
  match args with
  | .listed (v :: rest) => .ok (v, .listed rest)
  | .object fields (some v) => .ok (v, .object fields none)
  | _ => .error .missingArguments

/-- Makes an entry of the object the next argument. -/
def Arguments.select (args : Arguments) (key : String) : Except ValueFault Arguments :=
  match args with
  | .listed _ => .error .needsMapping
  | .object fields _ =>
    match Fields.get? fields key with
    | some v => .ok (.object fields (some v))
    | none => .error (.missingKey key)

def Arguments.check (args : Arguments) : Except ValueFault Unit :=
  match args with
  | .listed (_ :: _) => .error .unusedArguments
  | _ => .ok ()

/-! ## Values -/

/-- Pads a text on the left, or on the right. -/
def padText (m : Mark) (cs : List Char) : List Char :=
  let pad := List.replicate (m.width - cs.length) ' '
  if m.flags.left then cs ++ pad else pad ++ cs

/-- Pads a number; zeros go between the sign and the digits. -/
def padNumber (m : Mark) (negative : Bool) (lead digits : List Char) : List Char :=
  let sign := if negative then ['-'] else if m.flags.sign then ['+']
    else if m.flags.blank then [' '] else []
  if m.flags.zero && !m.flags.left then
    sign ++ lead
      ++ List.replicate (m.width - (sign.length + lead.length + digits.length)) '0' ++ digits
  else padText m (sign ++ lead ++ digits)

/-- Characters outside ASCII as codes. -/
def asciiOnly (cs : List Char) : List Char :=
  cs.flatMap fun c =>
    if c.toNat < 128 then [c]
    else if c.toNat < 0x100 then '\\' :: 'x' :: Text.hexDigits 2 c.toNat
    else if c.toNat < 0x10000 then '\\' :: 'u' :: Text.hexDigits 4 c.toNat
    else '\\' :: 'U' :: Text.hexDigits 8 c.toNat

def showText (m : Mark) (cs : List Char) : List Char :=
  padText m (match m.precision with
    | some n => cs.take n
    | none => cs)

def upper (cs : List Char) : List Char := cs.map Char.toUpper

/-- A whole number in a base; the precision is the least number of digits. -/
def showWhole (m : Mark) (code : Char) (n : Int) : List Char :=
  let base := if code = 'o' then 8 else if code = 'x' ∨ code = 'X' then 16 else 10
  let ds := Nat.toDigits base n.natAbs
  let ds := List.replicate (m.precision.getD 0 - ds.length) '0' ++ ds
  let ds := if code = 'X' then upper ds else ds
  let lead := if !m.flags.alternate || base = 10 then []
    else if code = 'o' then ['0', 'o'] else ['0', code]
  padNumber m (decide (n < 0)) lead ds

/-- Digits with a point before the last `places`; without places the point needs the flag. -/
def withPoint (m : Mark) (ds : List Char) (places : Nat) : List Char :=
  let ds := List.replicate (places + 1 - ds.length) '0' ++ ds
  let whole := ds.take (ds.length - places)
  if places = 0 then (if m.flags.alternate then whole ++ ['.'] else whole)
  else whole ++ '.' :: ds.drop (ds.length - places)

/-- Exactly `count` significant digits and the power of ten of the first. -/
def leadingDigits (count mantissa : Nat) (exponent : Int) : List Char × Int :=
  if mantissa = 0 then (List.replicate count '0', 0) else
  let d := Decimal.significant count mantissa exponent
  let ds := Nat.toDigits 10 d.coefficient
  (ds.take count, d.exponent + ds.length - 1)

/-- Removes zeros after the point, and the point with the last of them. -/
def trimPoint (cs : List Char) : List Char :=
  if cs.contains '.' then
    match cs.reverse.dropWhile (· == '0') with
    | '.' :: rest => rest.reverse
    | rest => rest.reverse
  else cs

/-- A magnitude with a power of ten. -/
def scientific (m : Mark) (ds : List Char) (leading : Int) (trim : Bool) : List Char :=
  let body := withPoint m ds (ds.length - 1)
  (if trim then trimPoint body else body) ++ NumberStyle.power leading

/-- A finite magnitude by one of the letters `f`, `e` and `g`. -/
def showMagnitude (m : Mark) (code : Char) (mantissa : Nat) (exponent : Int) : List Char :=
  let places := m.precision.getD 6
  if code = 'f' then
    let (num, den) := Binary.quotient mantissa exponent
    withPoint m (Nat.toDigits 10 (Decimal.roundTo num den (-places))) places
  else if code = 'e' then
    let (ds, leading) := leadingDigits (places + 1) mantissa exponent
    scientific m ds leading false
  else
    let count := max places 1
    let (ds, leading) := leadingDigits count mantissa exponent
    let trim := !m.flags.alternate
    if leading < -4 ∨ (count : Int) ≤ leading then scientific m ds leading trim
    else
      let body := withPoint m ds (count - 1 - leading).toNat
      if trim then trimPoint body else body

def showReal (m : Mark) (code : Char) (x : Float) : List Char :=
  let (negative, digits) : Bool × List Char := match Binary.ofFloat x with
    | .nan => (false, ['n', 'a', 'n'])
    | .infinite negative => (negative, ['i', 'n', 'f'])
    | .finite negative mantissa exponent =>
      (negative, showMagnitude m code.toLower mantissa exponent)
  padNumber m negative [] (if code.isUpper then upper digits else digits)

/-! ## Arguments by letter -/

/-- A value for `%d`; a real number is cut toward zero. -/
def wholeArgument (code : Char) (v : Json) : Except ValueFault Int :=
  match v with
  | .bool b => .ok (if b then 1 else 0)
  | .int n => .ok n
  | .float x =>
    match Binary.ofFloat x with
    | .nan => .error .nanToWhole
    | .infinite _ => .error .infinityToWhole
    | b => .ok (b.truncate?.getD 0)
  | v => .error (.needsNumber code v.kind)

/-- A value for a base other than ten. -/
def integerArgument (code : Char) (v : Json) : Except ValueFault Int :=
  match v with
  | .bool b => .ok (if b then 1 else 0)
  | .int n => .ok n
  | v => .error (.needsInteger code v.kind)

def realArgument (v : Json) : Except ValueFault Float :=
  match v with
  | .bool b => .ok (if b then 1 else 0)
  | .int n =>
    match Decimal.floatOfInt? n with
    | some x => .ok x
    | none => .error .tooLargeForFloat
  | .float x => .ok x
  | v => .error (.notRealNumber v.kind)

def characterArgument (v : Json) : Except ValueFault Char :=
  match v with
  | .str s =>
    match s.toList with
    | [c] => .ok c
    | _ => .error .needsCharacter
  | .bool b => .ok (Char.ofNat (if b then 1 else 0))
  | .int n =>
    if 0 ≤ n ∧ n < 0x110000 then .ok (Char.ofNat n.toNat) else .error .characterRange
  | _ => .error .needsCharacter

/-- A value by the letter of its mark, which stands at the given place. -/
def showValue (m : Mark) (code : Char) (place : Nat) (v : Json) : Except ValueFault (List Char) :=
  if code = 's' then .ok (showText m v.display.toList)
  else if code = 'r' then .ok (showText m v.literal.toList)
  else if code = 'a' then .ok (showText m (asciiOnly v.literal.toList))
  else if code = 'd' ∨ code = 'i' ∨ code = 'u' then (wholeArgument code v).map (showWhole m code)
  else if code = 'o' ∨ code = 'x' ∨ code = 'X' then
    (integerArgument code v).map (showWhole m code)
  else if ['e', 'E', 'f', 'F', 'g', 'G'].contains code then
    (realArgument v).map (showReal m code)
  else if code = 'c' then (characterArgument v).map fun c => padText m [c]
  else .error (.formatCode code place)

/-! ## Marks -/

def readFlags (f : Flags) : List Char → Flags × List Char
  | [] => (f, [])
  | c :: cs =>
    if c = '-' then readFlags { f with left := true } cs
    else if c = '+' then readFlags { f with sign := true } cs
    else if c = ' ' then readFlags { f with blank := true } cs
    else if c = '#' then readFlags { f with alternate := true } cs
    else if c = '0' then readFlags { f with zero := true } cs
    else (f, c :: cs)

def readDigits (cs : List Char) : Nat × List Char :=
  (Numeral.digitsValue (cs.takeWhile Text.isAsciiDigit), cs.dropWhile Text.isAsciiDigit)

/-- The largest width that a text is made for. -/
def maxCount : Nat := Nat.pow 2 32

/-- A width or precision within bounds. -/
def checkCount (n : Int) (tooBig : ValueFault) : Except ValueFault Int :=
  if n.natAbs < maxCount then .ok n
  else if -(Nat.pow 2 63 : Int) ≤ n ∧ n < (Nat.pow 2 63 : Int) then .error .outOfMemory
  else .error tooBig

/-- A count that is written, or taken from the arguments where a star stands. -/
def readCount (isWidth : Bool) (args : Arguments) (cs : List Char) :
    Except ValueFault (Int × Arguments × List Char) :=
  match cs with
  | '*' :: rest => do
    let (v, args) ← args.next
    match v with
    | .int n => return (← checkCount n (.countOverflow isWidth), args, rest)
    | .bool b => return (if b then 1 else 0, args, rest)
    | _ => throw .widthNotWhole
  | cs => do
    let (n, rest) := readDigits cs
    return (← checkCount n (.countTooBig isWidth), args, rest)

/-- The key of a mark up to its closing parenthesis, counting nested ones. -/
def readKey : Nat → List Char → Option (List Char × List Char)
  | _, [] => none
  | depth, c :: cs =>
    if c = ')' ∧ depth = 0 then some ([], cs)
    else
      let depth := if c = ')' then depth - 1 else if c = '(' then depth + 1 else depth
      (readKey depth cs).map fun (key, rest) => (c :: key, rest)

def skipSize : List Char → List Char
  | c :: cs => if c = 'h' ∨ c = 'l' ∨ c = 'L' then cs else c :: cs
  | [] => []

/-- What follows a percent: the shown argument, the arguments left and the rest of the template,
which is `total` characters long. -/
def readMark (total : Nat) (args : Arguments) (cs : List Char) :
    Except ValueFault (List Char × Arguments × List Char) := do
  let (args, cs) ← match cs with
    | '(' :: more =>
      match args, readKey 0 more with
      | .listed _, _ => throw .needsMapping
      | _, none => throw .incompleteKey
      | args, some (key, rest) => pure (← args.select (String.ofList key), rest)
    | cs => pure (args, cs)
  let (flags, cs) := readFlags {} cs
  let (width, args, cs) ← readCount true args cs
  -- only a width that comes from the arguments can be negative
  let flags := if width < 0 then { flags with left := true } else flags
  let (precision, args, cs) ← match cs with
    | '.' :: more => do
      let (n, args, rest) ← readCount false args more
      pure (some n.toNat, args, rest)
    | cs => pure (none, args, cs)
  match skipSize cs with
  | [] => throw .incompleteFormat
  | code :: rest =>
    let (v, args) ← args.next
    let shown ← showValue ⟨flags, width.natAbs, precision⟩ code (total - rest.length - 1) v
    return (shown, args, rest)

/-- Fills a template. Every mark takes at least one character, so `fuel` is its length. -/
def fillFrom (total : Nat) : Nat → Arguments → List Char → Except ValueFault (List Char)
  | 0, args, _ => args.check.map fun _ => []
  | _ + 1, args, [] => args.check.map fun _ => []
  | fuel + 1, args, c :: cs =>
    if c = '%' then
      match cs with
      | '%' :: rest => (fillFrom total fuel args rest).map ('%' :: ·)
      | cs => do
        let (shown, args, rest) ← readMark total args cs
        return shown ++ (← fillFrom total fuel args rest)
    else (fillFrom total fuel args cs).map (c :: ·)

/-- The message that a template and its arguments make. Without arguments the template is the
message. -/
def fill (template : String) (args : List Json) : Except ValueFault String :=
  if args.isEmpty then .ok template
  else
    let cs := template.toList
    (fillFrom cs.length (cs.length + 1) (.ofList args) cs).map String.ofList

end FormulaDesk.Template
