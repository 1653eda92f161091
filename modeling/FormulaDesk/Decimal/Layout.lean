import FormulaDesk.Decimal.Digits

/-!
# Number texts

How digits are laid out. A style says for which powers of ten a number is written positionally and
whether a whole number keeps a point. Whole numbers, results and view bounds each have their own
style; `nan` and the infinities have one spelling in all of them.
-/

namespace FormulaDesk

/-- A way to lay out digits. -/
structure NumberStyle where
  /-- The powers of ten, of the leading digit, below which a number is written positionally. -/
  positionalBelow : Int
  /-- Whether a whole number ends in `.0`. -/
  keepsPoint : Bool

namespace NumberStyle

/-- Digits without trailing zeros, at least one. -/
def trimZeros (ds : List Char) : List Char :=
  match (ds.reverse.dropWhile (· == '0')).reverse with
  | [] => ['0']
  | kept => kept

/-- A power of ten: a sign and at least two digits. -/
def power (p : Int) : List Char :=
  let ds := Nat.toDigits 10 p.natAbs
  'e' :: (if p < 0 then '-' else '+') :: (if ds.length < 2 then '0' :: ds else ds)

/-- Digits with the point after the first `whole` of them. -/
def positional (style : NumberStyle) (ds : List Char) (leading : Int) : List Char :=
  if leading < 0 then
    '0' :: '.' :: List.replicate (-leading - 1).toNat '0' ++ ds
  else
    let whole := leading.toNat + 1
    if ds.length ≤ whole then
      ds ++ List.replicate (whole - ds.length) '0' ++ (if style.keepsPoint then ['.', '0'] else [])
    else ds.take whole ++ '.' :: ds.drop whole

def scientific (ds : List Char) (leading : Int) : List Char :=
  match ds with
  | [] => power leading
  | [d] => d :: power leading
  | d :: rest => d :: '.' :: rest ++ power leading

/-- A magnitude: positional from `10 ^ -4` up to the style's bound. -/
def magnitude (style : NumberStyle) (d : Decimal) : List Char :=
  let ds := Nat.toDigits 10 d.coefficient
  let leading : Int := if d.coefficient = 0 then 0 else (ds.length : Int) + d.exponent - 1
  let kept := trimZeros ds
  if -4 ≤ leading ∧ leading < style.positionalBelow then style.positional kept leading
  else scientific kept leading

def signed (negative : Bool) (cs : List Char) : String :=
  String.ofList (if negative then '-' :: cs else cs)

end NumberStyle

/-- The text of a float from its digits. -/
def Binary.text (style : NumberStyle) (digits : Nat → Int → Decimal) : Binary → String
  | .nan => "nan"
  | .infinite negative => if negative then "-inf" else "inf"
  | .finite negative mantissa exponent =>
    NumberStyle.signed negative (style.magnitude (digits mantissa exponent))

/-- The fewest digits that read back as the float; positional below `10 ^ 16`, and a whole number
ends in `.0`. -/
def floatText (x : Float) : String :=
  (Binary.ofFloat x).text ⟨16, true⟩ Decimal.shortest

/-- At most `places` significant digits, without trailing zeros. -/
def roundedText (places : Nat) (x : Float) : String :=
  (Binary.ofFloat x).text ⟨places, false⟩ (Decimal.significant places)

/-- The float that `roundedText places x` reads as. -/
def roundedFloat (places : Nat) (x : Float) : Float :=
  match Binary.ofFloat x with
  | .finite negative mantissa exponent =>
    (Decimal.significant places mantissa exponent).toFloat negative
  | _ => x

end FormulaDesk
