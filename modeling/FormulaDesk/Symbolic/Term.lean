import FormulaDesk.Symbolic.Amount

/-!
# Terms

Expressions of the local algebra in the form in which equal terms meet. A sum is a constant and
parts with coefficients, a product a coefficient and factors, both in one fixed order; the
exponential is a power of `e` and the imaginary unit a power of minus one. `Term.compare` is the
order, and two terms are the same when it tells them equal.
-/

namespace FormulaDesk.Symbolic

/-- Numbers with a name. -/
inductive Constant where
  | pi
  | euler
  | goldenRatio
  | eulerGamma
  | catalan
  | tribonacci
deriving DecidableEq, Repr, Inhabited

def Constant.rank : Constant → Nat
  | .pi => 0
  | .euler => 1
  | .goldenRatio => 2
  | .eulerGamma => 3
  | .catalan => 4
  | .tribonacci => 5

inductive Relation where
  | lt
  | le
  | gt
  | ge
deriving DecidableEq, Repr, Inhabited

def Relation.rank : Relation → Nat
  | .lt => 0
  | .le => 1
  | .gt => 2
  | .ge => 3

inductive Connective where
  | all
  | any
  | odd
  | negated
deriving DecidableEq, Repr, Inhabited

def Connective.rank : Connective → Nat
  | .all => 0
  | .any => 1
  | .odd => 2
  | .negated => 3

inductive Term where
  | num (a : Amount)
  | const (c : Constant)
  | var (name : String)
  | sum (constant : Amount) (parts : List (Term × Amount))
  | product (coefficient : Amount) (factors : List Term)
  | power (base exponent : Term)
  /-- A function that the algebra knows. -/
  | call (name : String) (args : List Term)
  /-- A function that nobody defined. -/
  | unknown (name : String) (args : List Term)
  | truth (b : Bool)
  | relation (r : Relation) (left right : Term)
  | logic (c : Connective) (args : List Term)
deriving Inhabited, Repr

namespace Term

def rank : Term → Nat
  | .num _ => 0
  | .const _ => 1
  | .var _ => 2
  | .sum .. => 3
  | .product .. => 4
  | .power .. => 5
  | .call .. => 6
  | .unknown .. => 7
  | .truth _ => 8
  | .relation .. => 9
  | .logic .. => 10

def cmpString (s t : String) : Ordering :=
  if s < t then .lt else if t < s then .gt else .eq

mutual

/-- The order of terms. -/
def compare : Term → Term → Ordering
  | .num a, .num b => a.cmp b
  | .const a, .const b => Ord.compare a.rank b.rank
  | .var s, .var t => cmpString s t
  | .sum k ps, .sum l qs => (compareParts ps qs).then (k.cmp l)
  | .product k ps, .product l qs => (compareList ps qs).then (k.cmp l)
  | .power b e, .power c f => (compare b c).then (compare e f)
  | .call s xs, .call t ys => (cmpString s t).then (compareList xs ys)
  | .unknown s xs, .unknown t ys => (cmpString s t).then (compareList xs ys)
  | .truth a, .truth b => Ord.compare a b
  | .relation r a b, .relation s c d =>
    (Ord.compare r.rank s.rank).then ((compare a c).then (compare b d))
  | .logic c xs, .logic d ys => (Ord.compare c.rank d.rank).then (compareList xs ys)
  | s, t => Ord.compare s.rank t.rank

def compareList : List Term → List Term → Ordering
  | [], [] => .eq
  | [], _ => .lt
  | _, [] => .gt
  | s :: rest, t :: more => (compare s t).then (compareList rest more)

def compareParts : List (Term × Amount) → List (Term × Amount) → Ordering
  | [], [] => .eq
  | [], _ => .lt
  | _, [] => .gt
  | (s, a) :: rest, (t, b) :: more =>
    (compare s t).then ((a.cmp b).then (compareParts rest more))

end

def same (s t : Term) : Bool := compare s t == .eq

instance : BEq Term := ⟨same⟩

def zero : Term := .num .zero

def one : Term := .num .one

def ofInt (n : Int) : Term := .num (.ofInt n)

def ofRat (q : Rat) : Term := .num (.exact q)

/-- The exact number that a term is. -/
def rat? : Term → Option Rat
  | .num (.exact q) => some q
  | _ => none

/-- The amount that a term is. -/
def amount? : Term → Option Amount
  | .num a => some a
  | _ => none

/-- The whole number that a term is. -/
def int? (t : Term) : Option Int := t.amount?.bind Amount.int?

def isOne (t : Term) : Bool := t.rat? == some 1

/-- The imaginary unit. -/
def imaginary : Term := .power (.num (.exact (-1))) (.num (.exact (mkRat 1 2)))

def isImaginary : Term → Bool
  | .power (.num (.exact b)) (.num (.exact e)) => b == -1 && e == mkRat 1 2
  | _ => false

mutual

/-- The number of nodes. -/
def size : Term → Nat
  | .sum _ parts => sizeParts parts + 1
  | .product _ factors => sizeList factors + 1
  | .power b e => size b + size e + 1
  | .call _ args => sizeList args + 1
  | .unknown _ args => sizeList args + 1
  | .relation _ a b => size a + size b + 1
  | .logic _ args => sizeList args + 1
  | _ => 1

def sizeList : List Term → Nat
  | [] => 0
  | t :: rest => size t + sizeList rest

def sizeParts : List (Term × Amount) → Nat
  | [] => 0
  | (t, _) :: rest => size t + sizeParts rest

end

mutual

/-- The variables, with repetitions. -/
def freeNames : Term → List String
  | .var name => [name]
  | .sum _ parts => freeNamesParts parts
  | .product _ factors => freeNamesList factors
  | .power b e => freeNames b ++ freeNames e
  | .call _ args => freeNamesList args
  | .unknown _ args => freeNamesList args
  | .relation _ a b => freeNames a ++ freeNames b
  | .logic _ args => freeNamesList args
  | _ => []

def freeNamesList : List Term → List String
  | [] => []
  | t :: rest => freeNames t ++ freeNamesList rest

def freeNamesParts : List (Term × Amount) → List String
  | [] => []
  | (t, _) :: rest => freeNames t ++ freeNamesParts rest

end

mutual

/-- The functions that nobody defined, with repetitions. -/
def unknowns : Term → List String
  | .sum _ parts => unknownsParts parts
  | .product _ factors => unknownsList factors
  | .power b e => unknowns b ++ unknowns e
  | .call _ args => unknownsList args
  | .unknown name args => name :: unknownsList args
  | .relation _ a b => unknowns a ++ unknowns b
  | .logic _ args => unknownsList args
  | _ => []

def unknownsList : List Term → List String
  | [] => []
  | t :: rest => unknowns t ++ unknownsList rest

def unknownsParts : List (Term × Amount) → List String
  | [] => []
  | (t, _) :: rest => unknowns t ++ unknownsParts rest

end

/-- Whether a term has no variable and no undefined function. -/
def isConstant (t : Term) : Bool := t.freeNames.isEmpty && t.unknowns.isEmpty

/-- Whether a term is a statement, which has no place in arithmetic. -/
def isStatement : Term → Bool
  | .truth _ => true
  | .relation .. => true
  | .logic .. => true
  | _ => false

end Term

end FormulaDesk.Symbolic
