import FormulaDesk.Symbolic.ComplexFloat
import FormulaDesk.Symbolic.Root

/-!
# Sums, products and powers

The arithmetic of terms. Equal parts of a sum meet and may cancel, equal bases of a product add
their exponents, and a number times a sum is multiplied out. A power of a power joins where that is
right on all of the complex plane: for a whole outer exponent, or an inner one below one.
-/

namespace FormulaDesk.Symbolic.Term

/-! ## Signs -/

/-- Whether a term is plainly positive. -/
def isPositive : Term → Bool
  | .num a => a.isPositive
  | .const _ => true
  | .power (.num a) (.num (.exact _)) => a.isPositive && a.isFinite
  | .power (.const _) (.num a) => a.isFinite
  | _ => false

/-! ## Sums -/

def ofFactors : List Term → Term
  | [] => one
  | [f] => f
  | fs => .product .one fs

/-- A term as a constant and parts. -/
def asSum : Term → Amount × List (Term × Amount)
  | .num a => (a, [])
  | .sum k parts => (k, parts)
  | .product c fs => (.zero, [(ofFactors fs, c)])
  | t => (.zero, [(t, .one)])

/-- Multiplies by a number. A sum is multiplied out. -/
def scale (c : Amount) (t : Term) : Term :=
  if c = .one then t
  else match t with
    | .num a => .num (c.mul a)
    | t =>
      if c.isZero then zero
      else if c = .undefined then .num .undefined
      else match t with
        | .sum k parts =>
          if c.isFinite then .sum (c.mul k) (parts.map fun (t, d) => (t, c.mul d))
          else .product c [t]
        | .product d fs =>
          let e := c.mul d
          if e = .one then ofFactors fs else .product e fs
        | t => .product c [t]

/-- Adds one part where it belongs; a part that cancels is gone. -/
def addPart (t : Term) (c : Amount) : List (Term × Amount) → List (Term × Amount)
  | [] => [(t, c)]
  | (u, d) :: rest =>
    match compare t u with
    | .lt => (t, c) :: (u, d) :: rest
    | .gt => (u, d) :: addPart t c rest
    | .eq =>
      let e := c.add d
      if e.isZero then rest else (u, e) :: rest

/-- A constant and parts as a term. An infinite constant takes in the parts that are numbers. -/
def ofSum (k : Amount) (parts : List (Term × Amount)) : Term :=
  if k = .undefined ∨ parts.any (fun p => p.2 = .undefined) then .num .undefined
  else
    let parts := if k.isFinite then parts else parts.filter fun p => !p.1.isConstant
    match parts with
    | [] => .num k
    | [(t, c)] => if k.isZero then scale c t else .sum k [(t, c)]
    | parts => .sum k parts

def add (s t : Term) : Term :=
  let (k, ps) := s.asSum
  let (l, qs) := t.asSum
  ofSum (k.add l) (qs.foldl (fun acc (t, c) => addPart t c acc) ps)

def neg (t : Term) : Term := scale (.ofInt (-1)) t

def sub (s t : Term) : Term := add s (neg t)

/-! ## Products and powers -/

/-- A term as a base and an exponent. -/
def asPower : Term → Term × Term
  | .power b e => (b, e)
  | t => (t, one)

def ofPower (b e : Term) : Term := if e.isOne then b else .power b e

/-- The exponent of a base among factors, and the other factors. -/
def takeBase (b : Term) : List (Term × Term) → Option (Term × List (Term × Term))
  | [] => none
  | (c, e) :: rest =>
    if b == c then some (e, rest)
    else (takeBase b rest).map fun (f, others) => (f, (c, e) :: others)

def insertBase (b e : Term) : List (Term × Term) → List (Term × Term)
  | [] => [(b, e)]
  | (c, f) :: rest =>
    match compare b c with
    | .gt => (c, f) :: insertBase b e rest
    | _ => (b, e) :: (c, f) :: rest

/-- A number and factors as a term. An infinite number takes in factors that are plainly
positive. -/
def ofProduct (c : Amount) (factors : List Term) : Term :=
  if c = .undefined then .num .undefined
  else if c.isZero then zero
  else
    let factors := if c.isFinite then factors else factors.filter fun f => !f.isPositive
    match factors with
    | [] => .num c
    | [.sum k parts] => scale c (.sum k parts)
    | fs => if c = .one then ofFactors fs else .product c fs

/-- A complex float as a term. -/
def ofComplex? (z : ComplexFloat) : Option Term := do
  let re ← Amount.ofFloat? z.re
  let im ← Amount.ofFloat? z.im
  if z.im == 0 then return .num re
  return add (.num re) (scale im imaginary)

/-- A power of numbers with an exponent that is not whole, one of them rounded. -/
def roundedPower (a e : Rat) : Option Term :=
  let x := Amount.ratToFloat a
  let y := Amount.ratToFloat e
  if a = 0 then some (.num (if e < 0 then .unsigned else .rounded 0 Amount.floatBits))
  else if 0 < a then (Amount.ofFloat? (Float.pow x y)).map .num
  else ofComplex? (ComplexFloat.pow (.ofReal x) (.ofReal y))

/-- A power of numbers, none if it is left as it stands. -/
def numPower? (a e : Amount) : Option Term :=
  match e.intValue? with
  | some n => (a.powInt? n).map fun b => .num (if e.isExact || !b.isExact then b else
      match b.value? with
      | some q => Amount.round e.bits q
      | none => b)
  | none =>
    match a, e with
    | .undefined, _ => some (.num .undefined)
    | _, .undefined => some (.num .undefined)
    | .exact p, .exact q => some (Root.exactPower p q)
    | .infinite false, .exact q => some (.num (if q < 0 then .zero else .infinite false))
    | a, e =>
      match a.value?, e.value? with
      | some p, some q => roundedPower p q
      | _, _ => none

/-- Whether the exponents of a power of a power may be joined. -/
def joins (base inner outer : Term) : Bool :=
  outer.int?.isSome ||
    match outer.amount?, inner.amount? with
    | some _, some a =>
      match a.value? with
      | some q => (-1 < q && q < 1) || base.isPositive
      | none => false
    | _, _ => false

/-- The number of quarter turns that an exponent of `e` stands for: a multiple of half of `π i`. -/
def quarterTurns? (e : Term) : Option Int :=
  match e with
  | .product c [f, g] =>
    if (f == .const .pi && g.isImaginary) || (g == .const .pi && f.isImaginary) then
      (c.mul (.ofInt 2)).int?
    else none
  | _ => none

/-- A power of the imaginary unit. -/
def quarterTurn (n : Int) : Term :=
  if n % 4 = 0 then one
  else if n % 4 = 1 then imaginary
  else if n % 4 = 2 then ofInt (-1)
  else neg imaginary

/-- The part of an exponent of `e` that a logarithm cancels, as a power. -/
def logPart? (t : Term) : Option (Term × Term) :=
  match t with
  | .call "log" [y] => some (y, one)
  | .product c [.call "log" [y]] => some (y, .num c)
  | .product c [f, .call "log" [y]] => if f.isPositive then some (y, scale c f) else none
  | _ => none

mutual

/-- Multiplies the terms in `todo` into a coefficient and factors with distinct bases. Each step
takes one of `fuel`; without any the rest is left as factors. -/
def mulAll : Nat → Amount → List (Term × Term) → List Term → Term
  | 0, c, acc, todo => ofProduct c (acc.map (fun (b, e) => ofPower b e) ++ todo)
  | _ + 1, c, acc, [] => ofProduct c (acc.map fun (b, e) => ofPower b e)
  | fuel + 1, c, acc, t :: rest =>
    match t with
    | .num a => mulAll fuel (c.mul a) acc rest
    | .product d fs => mulAll fuel (c.mul d) acc (fs ++ rest)
    | t =>
      let (b, e) := t.asPower
      match takeBase b acc with
      | none => mulAll fuel c (insertBase b e acc) rest
      | some (f, others) =>
        -- the same base again: the exponents add, which may leave a number or another base
        let joined := powWith fuel b (add f e)
        let (b', e') := joined.asPower
        if b' == b && joined.amount?.isNone then mulAll fuel c (insertBase b e' others) rest
        -- no power of this base any more, so it is multiplied like a new factor
        else mulAll fuel c others (joined :: rest)

/-- A power, with a bound on the nesting of its rules. -/
def powWith : Nat → Term → Term → Term
  | 0, b, e => .power b e
  | fuel + 1, b, e =>
    match e with
    | .num .undefined => .num .undefined
    | .num a =>
      if a.isZero then one
      else if a = .one then b
      else match b with
        | .num c => (numPower? c a).getD (.power b e)
        | .const .euler =>
          match a with
          | .infinite true => zero
          | .infinite false => .num (.infinite false)
          | .unsigned => .num .undefined
          | _ => .power b e
        | .power b' e' =>
          if joins b' e' e then powWith fuel b' (scale a e') else .power b e
        | .product c fs =>
          if a.int?.isSome then
            mulAll fuel .one [] (((numPower? c a).getD (.power (.num c) e))
              :: fs.map fun f => powWith fuel f e)
          -- only positive factors leave a root; the others stay under it with the sign
          else if a.isFinite && c.isFinite then
            let size := if c.isNegative then c.neg else c
            let sign : Amount := if c.isNegative then .ofInt (-1) else .one
            let (outside, inside) := fs.partition isPositive
            let rest := scale sign (ofFactors inside)
            mulAll fuel .one [] (((numPower? size a).getD (.power (.num size) e))
              :: (outside.map (fun f => powWith fuel f e)
                ++ [match rest with
                  | .num r => (numPower? r a).getD (.power rest e)
                  | .product _ [_] => .power rest e
                  | .product .. => .power rest e
                  | r => powWith fuel r e]))
          else .power b e
        | b => .power b e
    | e =>
      match b with
      | .num .undefined => .num .undefined
      | .num a => if a = .one then one else .power b e
      | .const .euler => expWith fuel e
      | b => .power b e

/-- A power of `e`. Logarithms in the exponent become factors. -/
def expWith : Nat → Term → Term
  | 0, e => .power (.const .euler) e
  | fuel + 1, e =>
    match quarterTurns? e, logPart? e with
    | some n, _ => quarterTurn n
    | none, some (y, k) => powWith fuel y k
    | none, none =>
      match e with
      | .sum k parts =>
        let (logs, others) := (parts.map fun (t, c) => scale c t).partition fun t =>
          (logPart? t).isSome || (quarterTurns? t).isSome
        if logs.isEmpty then .power (.const .euler) e
        else
          let rest := others.foldl add (.num k)
          mulAll fuel .one [] (powWith fuel (.const .euler) rest :: logs.map (expWith fuel))
      | e => .power (.const .euler) e

end

/-- Rules enough for terms of these sizes. -/
def budget (s t : Term) : Nat := 8 * (s.size + t.size) + 32

def mul (s t : Term) : Term := mulAll (budget s t) .one [] [s, t]

def pow (b e : Term) : Term := powWith (budget b e) b e

def inverse (t : Term) : Term := pow t (ofInt (-1))

def div (s t : Term) : Term := mul s (inverse t)

def half : Term := ofRat (mkRat 1 2)

def sqrt (t : Term) : Term := pow t half

def exp (t : Term) : Term := pow (.const .euler) t

end FormulaDesk.Symbolic.Term
