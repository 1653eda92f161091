import FormulaDesk.Symbolic.Arithmetic

/-!
# Elementary functions

The rules by which a function of a term becomes a simpler term. Odd and even functions take a sign
out of their argument, a function of its inverse disappears, multiples of `π` have known values, and
a function of a rounded number is worked out. What no rule covers stays a call.
-/

namespace FormulaDesk.Symbolic.Term

/-! ## Arguments -/

/-- Whether a sign can be taken out: more of the term is negative than positive, or the first part
is where both are even. -/
def leansNegative : Term → Bool
  | .num a => a.isNegative
  | .product c _ => c.isNegative
  | .sum k parts =>
    let signs := (parts.map fun p => p.2.isNegative)
      ++ (if k.isZero then [] else [k.isNegative])
    let minus := (signs.filter id).length
    let plus := signs.length - minus
    minus > plus || (minus = plus && signs.head?.getD false)
  | _ => false

/-- The exact multiple of `π` that a term is. -/
def piMultiple? : Term → Option Rat
  | .num a => if a = .zero then some 0 else none
  | .const .pi => some 1
  | .product (.exact q) [.const .pi] => some q
  | _ => none

def root (n : Int) : Term := sqrt (ofInt n)

/-- The sine of `q` full half turns, where it has a short form. -/
def sinPi? (q : Rat) : Option Term :=
  let turn := q - 2 * ((q / 2).floor : Rat)
  let (sign, q) : Rat × Rat := if 1 ≤ turn then (-1, turn - 1) else (1, turn)
  let q := if 1 / 2 < q then 1 - q else q
  let value : Option Term :=
    if q = 0 then some zero
    else if q = 1 / 6 then some half
    else if q = 1 / 4 then some (scale (.exact (1 / 2)) (root 2))
    else if q = 1 / 3 then some (scale (.exact (1 / 2)) (root 3))
    else if q = 1 / 2 then some one
    else none
  value.map (scale (.exact sign))

def cosPi? (q : Rat) : Option Term := sinPi? (q + 1 / 2)

/-- A rounded argument worked out by a function on complex numbers. -/
def rounded? (name : String) (arg : Term) : Option Term :=
  match arg with
  | .num (.rounded q _) => do
    let f ← ComplexFloat.function? name
    ofComplex? (f (.ofReal (Amount.ratToFloat q)))
  | _ => none

def call1 (name : String) (arg : Term) : Term := .call name [arg]

/-- An odd function takes a sign out. -/
def odd (name : String) (arg : Term) : Term :=
  if leansNegative arg then neg (call1 name (neg arg)) else call1 name arg

/-- An even function drops a sign. -/
def even (name : String) (arg : Term) : Term :=
  call1 name (if leansNegative arg then neg arg else arg)

/-- `1 + c · u²`. -/
def onePlus (c : Int) (u : Term) : Term := add one (scale (.ofInt c) (pow u (ofInt 2)))

/-! ## Trigonometry -/

def sin (arg : Term) : Term :=
  match (piMultiple? arg).bind sinPi?, arg with
  | some t, _ => t
  | none, .call "asin" [u] => u
  | none, .call "acos" [u] => sqrt (onePlus (-1) u)
  | none, .call "atan" [u] => div u (sqrt (onePlus 1 u))
  | none, arg => (rounded? "sin" arg).getD (odd "sin" arg)

def cos (arg : Term) : Term :=
  match (piMultiple? arg).bind cosPi?, arg with
  | some t, _ => t
  | none, .call "acos" [u] => u
  | none, .call "asin" [u] => sqrt (onePlus (-1) u)
  | none, .call "atan" [u] => inverse (sqrt (onePlus 1 u))
  | none, arg => (rounded? "cos" arg).getD (even "cos" arg)

def tanPi? (q : Rat) : Option Term := do
  let s ← sinPi? q
  let c ← cosPi? q
  return div s c

def tan (arg : Term) : Term :=
  match (piMultiple? arg).bind tanPi?, arg with
  | some t, _ => t
  | none, .call "atan" [u] => u
  | none, .call "asin" [u] => div u (sqrt (onePlus (-1) u))
  | none, .call "acos" [u] => div (sqrt (onePlus (-1) u)) u
  | none, arg => (rounded? "tan" arg).getD (odd "tan" arg)

/-- A multiple of `π`. -/
def piTimes (q : Rat) : Term := scale (.exact q) (.const .pi)

/-- The sines that an exact argument of the inverse may be, with their multiples of `π`. -/
def sineTable : List (Term × Rat) :=
  [(zero, 0), (half, 1 / 6), (scale (.exact (1 / 2)) (root 2), 1 / 4),
    (scale (.exact (1 / 2)) (root 3), 1 / 3), (one, 1 / 2)]

def angle? (u : Term) : Option Rat :=
  match sineTable.find? (·.1 == u), sineTable.find? (·.1 == neg u) with
  | some (_, q), _ => some q
  | none, some (_, q) => some (-q)
  | none, none => none

def asin (arg : Term) : Term :=
  match angle? arg with
  | some q => piTimes q
  | none => (rounded? "asin" arg).getD (odd "asin" arg)

def acos (arg : Term) : Term :=
  match angle? arg with
  | some q => piTimes (1 / 2 - q)
  | none => (rounded? "acos" arg).getD (call1 "acos" arg)

def atan (arg : Term) : Term :=
  match arg with
  | .num (.infinite negative) => piTimes (if negative then -1 / 2 else 1 / 2)
  | .num (.exact q) =>
    if q = 0 then zero else if q = 1 then piTimes (1 / 4) else if q = -1 then piTimes (-1 / 4)
    else odd "atan" arg
  | arg => (rounded? "atan" arg).getD (odd "atan" arg)

/-! ## Hyperbolic functions -/

def isZero (t : Term) : Bool := t.amount? == some .zero

def sinh (arg : Term) : Term :=
  match arg with
  | .num (.infinite _) => arg
  | .call "asinh" [u] => u
  | arg => if isZero arg then zero else (rounded? "sinh" arg).getD (odd "sinh" arg)

def cosh (arg : Term) : Term :=
  match arg with
  | .num (.infinite _) => .num (.infinite false)
  | .call "acosh" [u] => u
  | arg => if isZero arg then one else (rounded? "cosh" arg).getD (even "cosh" arg)

def tanh (arg : Term) : Term :=
  match arg with
  | .num (.infinite negative) => ofInt (if negative then -1 else 1)
  | .call "atanh" [u] => u
  | arg => if isZero arg then zero else (rounded? "tanh" arg).getD (odd "tanh" arg)

/-! ## Logarithms -/

/-- `π i`, the logarithm of minus one. -/
def logMinusOne : Term := mul (.const .pi) imaginary

/-- The logarithm of a positive rational number. -/
def logPositive (q : Rat) : Term :=
  if q = 1 then zero
  else if q.num = 1 then neg (call1 "log" (ofInt q.den))
  else call1 "log" (ofRat q)

def log (arg : Term) : Term :=
  match arg with
  | .num .undefined => arg
  | .num (.infinite _) => .num (.infinite false)
  | .num .unsigned => .num .unsigned
  | .num (.exact q) =>
    if q = 0 then .num .unsigned
    else if 0 < q then logPositive q
    else add (logPositive (-q)) logMinusOne
  | .num (.rounded q _) =>
    if q = 0 then .num .unsigned else (rounded? "log" arg).getD (call1 "log" arg)
  | .const .euler => one
  | .power (.const .euler) (.num a) => .num a
  | arg =>
    if isImaginary arg then scale (.exact (1 / 2)) logMinusOne
    else match arg with
      | .product (.exact q) [i] =>
        if isImaginary i then
          add (logPositive (if q < 0 then -q else q))
            (scale (.exact (if q < 0 then -1 / 2 else 1 / 2)) logMinusOne)
        else call1 "log" arg
      | arg => call1 "log" arg

/-- How often a whole number above one divides another. -/
def timesDividing (b n : Nat) : Nat := if b < 2 ∨ n = 0 then 0 else (Root.extract (n.log2 + 1) n b).1

/-- The whole power of a base that can be taken out of an argument. -/
def multiplicity (b q : Rat) : Int :=
  let times (p n : Nat) : Int := timesDividing p n
  if q = 0 ∨ b ≤ 0 ∨ q < 0 then 0
  else if b.den = 1 then times b.num.natAbs q.num.natAbs - times b.num.natAbs q.den
  else if b.num = 1 then times b.den q.den - times b.den q.num.natAbs
  else
    min (times b.num.natAbs q.num.natAbs) (times b.den q.den)
      - min (times b.den q.num.natAbs) (times b.num.natAbs q.den)

/-- The logarithm to a base. -/
def logBase (arg base : Term) : Term :=
  if base.isOne then (if arg.isOne then .num .undefined else .num .unsigned)
  else if base == .const .euler then log arg
  else match arg.rat?, base.rat? with
    | some q, some b =>
      let n := multiplicity b q
      if n = 0 then div (log arg) (log base)
      else
        let power := if n < 0 then (b ^ n.natAbs)⁻¹ else b ^ n.natAbs
        add (ofInt n) (div (log (ofRat (q / power))) (log base))
    | _, _ => div (log arg) (log base)

/-! ## Absolute values -/

def absAmount : Amount → Amount
  | .infinite _ => .infinite false
  | .unsigned => .infinite false
  | a => if a.isNegative then a.neg else a

/-- The absolute value of one factor, or none if it has no simpler form. -/
def absFactor? (t : Term) : Option Term :=
  if t.isPositive then some t
  else match t with
    | .call "abs" [_] => some t
    | .power (.num (.exact b)) (.num (.exact _)) => if b = -1 then some one else none
    | _ => none

def abs (arg : Term) : Term :=
  match arg with
  | .num a => .num (absAmount a)
  | .product c fs =>
    let known := fs.filterMap absFactor?
    let others := fs.filter fun f => (absFactor? f).isNone
    let rest := if others.isEmpty then [] else [call1 "abs" (ofFactors others)]
    (known ++ rest).foldl mul (.num (absAmount c))
  | arg =>
    match absFactor? arg with
    | some t => t
    | none => call1 "abs" (if leansNegative arg then neg arg else arg)

/-! ## Rounding and remainders -/

/-- The largest whole number below. -/
def floor (arg : Term) : Term :=
  match arg with
  | .num a =>
    match a.value? with
    | some q => ofInt q.floor
    | none => arg
  | arg => call1 "floor" arg

/-- The smallest whole number above. -/
def ceiling (arg : Term) : Term :=
  match arg with
  | .num a =>
    match a.value? with
    | some q => ofInt (-(-q).floor)
    | none => arg
  | arg => call1 "ceiling" arg

/-- The remainder with the sign of the divisor, which is not zero. -/
def remainder (s t : Term) : Term :=
  match s, t with
  | .num a, .num b =>
    match a.value?, b.value? with
    | some p, some q => .num (Amount.combine (fun p q => p - q * (p / q).floor) a b p q)
    | _, _ => .num .undefined
  | s, t =>
    if isZero s || s == t || s == neg t then zero else .call "Mod" [s, t]

/-- The sign of a number; other terms stay. -/
def sign (arg : Term) : Term :=
  match arg with
  | .num a =>
    if a.isZero then zero else if a.isPositive then one
    else if a.isNegative then ofInt (-1) else .call "sign" [arg]
  | arg => .call "sign" [arg]

/-- A factorial, worked out for small whole numbers. -/
def factorial (arg : Term) : Term :=
  match arg.int? with
  | some n =>
    if n < 0 then .num .unsigned
    else if n ≤ 2000 then ofInt ((List.range n.toNat).foldl (fun acc k => acc * (k + 1)) 1 : Nat)
    else call1 "factorial" arg
  | none => call1 "factorial" arg

/-- A product of every second number, worked out for small whole numbers. -/
def factorial2 (arg : Term) : Term :=
  match arg.int? with
  | some n =>
    if 0 ≤ n ∧ n ≤ 2000 then
      ofInt (((List.range n.toNat).map (· + 1)).foldl
        (fun acc k => if k % 2 = n.toNat % 2 then acc * k else acc) 1 : Nat)
    else call1 "factorial2" arg
  | none => call1 "factorial2" arg

/-- Gamma, worked out for small whole numbers. -/
def gamma (arg : Term) : Term :=
  match arg.int? with
  | some n => if n ≤ 0 then .num .unsigned else factorialOr (call1 "gamma" arg) (n - 1)
  | none => call1 "gamma" arg
where
  factorialOr (other : Term) (n : Int) : Term :=
    if n ≤ 2000 then factorial (ofInt n) else other

/-- How many ways there are to choose `k` of `n`; negative `n` continue the same polynomials. -/
def choose (n k : Int) : Int :=
  if k < 0 then 0
  else (List.range k.toNat).foldl (fun (acc : Int) (i : Nat) => acc * (n - i) / (i + 1)) 1

def binomial (s t : Term) : Term :=
  match s.int?, t.int? with
  | some n, some k =>
    if k ≤ 2000 then ofInt (choose n k) else .call "binomial" [s, t]
  | _, _ => .call "binomial" [s, t]

/-! ## Statements -/

/-- Whether two finite constants can be compared as they stand. -/
def compareAmounts (r : Relation) (a b : Amount) : Bool :=
  match r with
  | .lt => a.lt b
  | .le => !b.lt a
  | .gt => b.lt a
  | .ge => !a.lt b

/-- A comparison; two real numbers are compared at once. -/
def relate (r : Relation) (s t : Term) : Term :=
  match s, t with
  | .num a, .num b => .truth (compareAmounts r a b)
  | s, t => .relation r s t

end FormulaDesk.Symbolic.Term
