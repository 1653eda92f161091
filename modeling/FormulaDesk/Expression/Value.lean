import FormulaDesk.Symbolic.Evaluate
import FormulaDesk.Expression.Engine
import FormulaDesk.Expression.Tree

/-!
# Values of an expression

What the parts of an expression may turn out to be: terms of the algebra, but also truth values,
texts, series and functions, which count as no expression in the end. Here is what operators make of
them. An operation that a value does not take rejects the whole expression; a few faults of whole
numbers are passed on as they are.
-/

namespace FormulaDesk.Expression

open Symbolic (Term Amount Relation Connective ComplexFloat)

/-- What can be called. -/
inductive Callee where
  /-- A function by a known name. -/
  | known (name : String)
  /-- The logarithm to a fixed base. -/
  | logarithm (base : Nat)
  /-- A function that nobody defined. -/
  | undefined (name : String)
  /-- A function that belongs to a term. -/
  | method (name : String) (t : Term)
deriving BEq, Repr, Inhabited

inductive Value where
  | term (t : Term)
  /-- An expression that is no number, with the variables and undefined functions in it. -/
  | entity (freeNames unknowns : List String)
  | truth (b : Bool)
  | text (s : String)
  | series (g : Grouping) (items : List Value)
  | function (c : Callee)
  | nothing
  | other
deriving Inhabited, Repr

abbrev Outcome (α : Type) := Except Rejection α

namespace Value

def reject {α : Type} : Outcome α := .error (.malformed none)

def fault {α : Type} (f : ValueFault) : Outcome α := .error (.raised (.value f))

/-! ## Truth -/

/-- Whether a value counts as true. A comparison that is not decided counts as neither. -/
def isTrue : Value → Outcome Bool
  | .term (.num a) => .ok !a.isZero
  | .term (.truth b) => .ok b
  | .term (.relation ..) => reject
  | .term _ => .ok true
  | .truth b => .ok b
  | .text s => .ok !s.isEmpty
  | .series _ items => .ok !items.isEmpty
  | .nothing => .ok false
  | _ => .ok true

/-- Whether a term may take part in a statement. -/
def isStatement : Term → Bool
  | .var _ => true
  | t => t.isStatement

/-- The statement that a value is. -/
def statement? : Value → Option Term
  | .term t => if isStatement t then some t else none
  | .truth b => some (.truth b)
  | _ => none

/-- The arithmetic term that a value is. -/
def term? : Value → Option Term
  | .term t => if t.isStatement then none else some t
  | _ => none

/-- The whole number that a value is. -/
def int? (v : Value) : Option Int := v.term?.bind Term.int?

/-! ## Statements -/

def oppositeOf : Relation → Relation
  | .lt => .ge
  | .le => .gt
  | .gt => .le
  | .ge => .lt

def negated : Term → Term
  | .truth b => .truth !b
  | .relation r s t => .relation (oppositeOf r) s t
  | .logic .negated [t] => t
  | t => .logic .negated [t]

/-- The parts of a statement joined by the same word. -/
def partsOf (c : Connective) : Term → List Term
  | .logic d args => if c = d then args else [.logic d args]
  | t => [t]

def withoutRepeats : List Term → List Term
  | [] => []
  | t :: rest => t :: (withoutRepeats rest).filter fun u => !(u == t)

/-- Statements that all hold, or of which one holds. -/
def joined (c : Connective) (neutral : Bool) (args : List Term) : Term :=
  let parts := withoutRepeats (args.flatMap (partsOf c))
  if parts.any (fun t => t == .truth !neutral) then .truth !neutral
  -- a statement beside its opposite decides the whole
  else if parts.any (fun t => parts.any fun u => negated t == u) then .truth !neutral
  else match parts.filter fun t => !(t == .truth neutral) with
    | [] => .truth neutral
    | [t] => t
    | ts => .logic c ts

def conjunction (args : List Term) : Term := joined .all true args

def disjunction (args : List Term) : Term := joined .any false args

/-- An odd number of the statements hold. -/
def parity (args : List Term) : Term :=
  let parts := args.flatMap (partsOf .odd)
  let flips := (parts.filter fun t => t == .truth true).length
  let rest := (parts.filter fun t => match t with | .truth _ => false | _ => true).foldl
    (fun acc t => if acc.any (· == t) then acc.filter (fun u => !(u == t)) else acc ++ [t]) []
  let core : Term := match rest with
    | [] => .truth false
    | [t] => t
    | ts => .logic .odd ts
  if flips % 2 = 0 then core else negated core

/-! ## Comparisons -/

/-- Whether a term cannot be compared: it has no value, or is off the real line. -/
def isIncomparable (t : Term) : Bool :=
  t.isStatement ||
    match t with
    | .num .undefined => true
    | .num .unsigned => true
    | t =>
      match t.constantValue? with
      | some z => 1e-12 * (1 + z.re.abs) < z.im.abs
      | none => false

def decided (r : Relation) (x y : Float) : Bool :=
  match r with
  | .lt => x < y
  | .le => x ≤ y
  | .gt => y < x
  | .ge => y ≤ x

/-- A comparison of terms. Constants are compared at once. -/
def compareTerms (r : Relation) (s t : Term) : Outcome Value :=
  if isIncomparable s || isIncomparable t then reject
  else match s, t with
    | .num a, .num b => .ok (.term (Term.relate r (.num a) (.num b)))
    | s, t =>
      if s.isConstant && t.isConstant && s == t then
        .ok (.term (.truth (r = .le ∨ r = .ge)))
      else match s.constantValue?, t.constantValue? with
        | some z, some w => .ok (.term (.truth (decided r z.re w.re)))
        | _, _ => .ok (.term (.relation r s t))

mutual

/-- Whether two values are equal as they stand. -/
def same : Value → Value → Bool
  | .term s, .term t => s == t
  | .term (.truth a), .truth b => a == b
  | .truth a, .term (.truth b) => a == b
  | .truth a, .truth b => a == b
  | .text s, .text t => s == t
  | .series g xs, .series h ys => g == h && sameList xs ys
  | .function c, .function d => c == d
  | .nothing, .nothing => true
  | _, _ => false

def sameList : List Value → List Value → Bool
  | [], [] => true
  | v :: rest, w :: more => same v w && sameList rest more
  | _, _ => false

end

/-- One comparison of two values. -/
def compare (c : Comparison) (v w : Value) : Outcome Value :=
  match c with
  | .eq => .ok (.truth (same v w))
  | .ne => .ok (.truth !(same v w))
  | .is => .ok (.truth (same v w))
  | .isNot => .ok (.truth !(same v w))
  | .member => contained v w id
  | .notMember => contained v w not
  | .lt => ordered .lt v w
  | .le => ordered .le v w
  | .gt => ordered .gt v w
  | .ge => ordered .ge v w
where
  contained (v w : Value) (f : Bool → Bool) : Outcome Value :=
    match v, w with
    | v, .series _ items => .ok (.truth (f (items.any (same v))))
    | .text _, .text _ => .ok (.truth (f false))
    | _, _ => reject
  ordered (r : Relation) (v w : Value) : Outcome Value :=
    match v, w with
    | .term s, .term t => compareTerms r s t
    | .text s, .text t => .ok (.truth (match r with
        | .lt => s < t
        | .le => !(t < s)
        | .gt => t < s
        | .ge => !(s < t)))
    | .truth a, .truth b => .ok (.truth (decided r (Term.number a) (Term.number b)))
    | _, _ => reject
  Term.number (b : Bool) : Float := if b then 1 else 0

/-! ## Operators -/

def isZeroTerm (t : Term) : Bool := t.amount?.any Amount.isZero

/-- The remainder. By zero it is a fault, worded by what is divided. -/
def remainder (s t : Term) : Outcome Value :=
  if isZeroTerm t then
    match s with
    | .num (.exact q) =>
      if !(t.amount?.any Amount.isExact) then fault (.moduloByZero "Modulo by zero")
      else fault (.moduloByZero
        (if q.den = 1 then "integer modulo by zero" else "integer division or modulo by zero"))
    | .num (.rounded ..) => fault (.moduloByZero "integer modulo by zero")
    | _ => fault (.moduloByZero "Modulo by zero")
  else .ok (.term (Term.remainder s t))

/-- The quotient rounded down. -/
def floorQuotient (s t : Term) : Outcome Value :=
  match s, t with
  | .num a, .num b =>
    if b.isZero then
      match a.value? with
      | some _ =>
        fault (.moduloByZero (if a.int?.isSome && b.int?.isSome
          then "integer division or modulo by zero" else "modulo by zero"))
      | none => .ok (.term (.num .undefined))
    else match a.value?, b.value? with
      | some p, some q => .ok (.term (Term.ofInt (p / q).floor))
      | some p, none =>
        match b with
        | .infinite negative =>
          .ok (.term (Term.ofInt (if p = 0 ∨ decide (p < 0) = negative then 0 else -1)))
        | _ => .ok (.term (.num .undefined))
      | _, _ => .ok (.term (.num .undefined))
  | s, t => .ok (.term (Term.floor (Term.div s t)))

/-- The bits of two whole numbers, negative ones with endless leading ones. -/
def bitwise (f : Bool → Bool → Bool) (a b : Int) : Int :=
  let size := max a.natAbs.log2 b.natAbs.log2 + 2
  let bit (n : Int) (k : Nat) : Bool := (n / (Nat.pow 2 k : Nat)) % 2 = 1
  let low := (List.range size).foldl
    (fun acc k => if f (bit a k) (bit b k) then acc + Nat.pow 2 k else acc) 0
  if f (a < 0) (b < 0) then (low : Int) - (Nat.pow 2 size : Nat) else low

/-- The most places that a number is shifted by. -/
def maxShift : Int := 100000

def shifted (a n : Int) : Outcome Value :=
  if n < -maxShift ∨ maxShift < n then reject
  else if 0 ≤ n then .ok (.term (Term.ofInt (a * (Nat.pow 2 n.toNat : Nat))))
  else .ok (.term (Term.ofInt (a / (Nat.pow 2 (-n).toNat : Nat))))

/-- An operator of logic: on whole numbers bit by bit, else on statements. -/
def logical (bits : Bool → Bool → Bool) (join : List Term → Term) (v w : Value) : Outcome Value :=
  match v.int?, w.int? with
  | some a, some b => .ok (.term (Term.ofInt (bitwise bits a b)))
  | _, _ =>
    -- two truth values give one again; beside a statement a truth value is a statement
    match v, w, v.statement?, w.statement? with
    | .truth a, .truth b, _, _ => .ok (.truth (bits a b))
    | _, _, some s, some t => .ok (.term (join [s, t]))
    | _, _, _, _ => reject

/-- A shift: of a whole number, or an implication between statements. -/
def shift (left : Bool) (v w : Value) : Outcome Value :=
  match v.int?, w.int? with
  | some a, some n =>
    if n < 0 then reject else shifted a (if left then n else -n)
  | _, _ =>
    match v, w, v.statement?, w.statement? with
    | .truth _, .truth _, _, _ => .ok .other
    | _, _, some s, some t =>
      let (premise, result) := if left then (t, s) else (s, t)
      .ok (.term (disjunction [negated premise, result]))
    | _, _, _, _ => reject

/-- Items that repeat. -/
def repeated (items : List Value) (n : Int) : Outcome (List Value) :=
  if (items.length : Int) * n < maxShift then .ok (List.replicate n.toNat items).flatten
  else reject

/-- A truth value in arithmetic counts as a number beside a whole number. -/
def besideInt (v : Value) (t : Term) : Option Term :=
  match v, t.int? with
  | .truth b, some _ => some (Term.ofInt (if b then 1 else 0))
  | _, _ => none

def arithmetic (op : Operator) (s t : Term) : Outcome Value :=
  match op with
  | .add => .ok (.term (Term.add s t))
  | .sub => .ok (.term (Term.sub s t))
  | .mul => .ok (.term (Term.mul s t))
  | .div => .ok (.term (Term.div s t))
  | .pow => .ok (.term (Term.pow s t))
  | .mod => remainder s t
  | .floorDiv => floorQuotient s t
  | _ => reject

/-- Arithmetic on values that are not both terms. -/
def mixed (op : Operator) (v w : Value) : Outcome Value :=
  match op, v, w with
  | .add, .text s, .text t => .ok (.text (s ++ t))
  | .add, .series g xs, .series h ys =>
    if g = h ∧ (g = .list ∨ g = .tuple) then .ok (.series g (xs ++ ys)) else reject
  | .sub, .series .set xs, .series .set _ => .ok (.series .set xs)
  | .mul, .series g xs, w =>
    match w.int?, g == .list || g == .tuple with
    | some n, true => (repeated xs n).map (.series g)
    | _, _ => reject
  | .mul, v, .series g xs =>
    match v.int?, g == .list || g == .tuple with
    | some n, true => (repeated xs n).map (.series g)
    | _, _ => reject
  | .mul, .text s, w =>
    match w.int? with
    | some n => (repeated [.text s] n).map fun items =>
        .text (String.join (items.map fun _ => s))
    | none => reject
  | .mul, v, .text s =>
    match v.int? with
    | some n => (repeated [.text s] n).map fun items =>
        .text (String.join (items.map fun _ => s))
    | none => reject
  | .floorDiv, .truth _, .truth b =>
    if b then .ok .other else fault (.moduloByZero "integer division or modulo by zero")
  | .mod, .truth _, .truth b =>
    if b then .ok .other else fault (.moduloByZero "integer modulo by zero")
  | .div, .truth _, .truth b => if b then .ok .other else fault (.moduloByZero "division by zero")
  | .pow, .truth _, .truth _ => .ok .other
  | .add, .truth _, .truth _ => .ok .other
  | .sub, .truth _, .truth _ => .ok .other
  | .mul, .truth _, .truth _ => .ok .other
  | op, v, w =>
    if op = .pow ∨ op = .div then reject
    else match v.term?, w.term? with
      | none, some t =>
        match besideInt v t with
        | some s => arithmetic op s t
        | none => reject
      | some s, none =>
        match besideInt w s with
        | some t => arithmetic op s t
        | none => reject
      | _, _ => reject

def binary (op : Operator) (v w : Value) : Outcome Value :=
  match op with
  | .bitAnd => logical (· && ·) conjunction v w
  | .bitOr => logical (· || ·) disjunction v w
  | .bitXor => logical (· != ·) parity v w
  | .shiftLeft => shift true v w
  | .shiftRight => shift false v w
  | .matMul => reject
  | op =>
    match v.term?, w.term? with
    | some s, some t => arithmetic op s t
    | _, _ => mixed op v w

def signed (s : Sign) (v : Value) : Outcome Value :=
  match s, v.term? with
  | .plus, some t => .ok (.term t)
  | .minus, some t => .ok (.term (Term.neg t))
  | .complement, _ =>
    match v, v.int?, v.statement? with
    | .truth _, _, _ => .ok .other
    | _, some n, _ => .ok (.term (Term.ofInt (-n - 1)))
    | _, none, some t => .ok (.term (negated t))
    | _, none, none => reject
  | _, none =>
    match v with
    | .truth _ => .ok .other
    | _ => reject

/-- An item by its place, counted from the end if negative. -/
def item (v index : Value) : Outcome Value :=
  match v, index with
  | .other, _ => .ok .other
  | .series .table _, _ => reject
  | .series .set _, _ => reject
  | .series g items, index =>
    match place items.length index with
    | none => reject
    | some none =>
      fault (if g = .tuple then .tupleRange else .itemRange)
    | some (some k) =>
      match items[k]? with
      | some v => .ok v
      | none => reject
  | .text s, index =>
    match place s.length index with
    | none => reject
    | some none => fault .textRange
    | some (some k) => .ok (.text (String.ofList ((s.toList.drop k).take 1)))
  | _, _ => reject
where
  place (length : Nat) (index : Value) : Option (Option Nat) :=
    let n? : Option Int := match index with
      | .truth b => some (if b then 1 else 0)
      | v => v.int?
    n?.map fun (n : Int) =>
      let k : Int := if n < 0 then n + length else n
      if k < 0 ∨ (length : Int) ≤ k then none else some k.toNat

/-! ## Attributes -/

/-- What every value knows about itself; none of it is an expression. -/
def commonAttributes : List String :=
  ["__class__", "__doc__", "__init__", "__new__", "__repr__", "__str__", "__hash__", "__eq__",
    "__ne__", "__dir__", "__format__", "__getattribute__", "__setattr__", "__delattr__",
    "__reduce__", "__reduce_ex__", "__sizeof__", "__subclasshook__", "__init_subclass__"]

/-- What a term knows about itself. -/
def termAttributes : List String :=
  ["args", "func", "free_symbols", "atoms", "has", "assumptions0", "as_real_imag", "as_base_exp",
    "as_numer_denom", "count_ops", "sort_key", "__add__", "__mul__", "__pow__", "__neg__"]

/-- The functions that give a term back in another form. -/
def formMethods : List String :=
  ["expand", "simplify", "factor", "doit", "evalf", "n", "together", "cancel", "trigsimp",
    "powsimp", "radsimp", "ratsimp", "nsimplify"]

/-- An attribute by its name. -/
def property (v : Value) (name : String) : Outcome Value :=
  if commonAttributes.contains name then .ok .other
  else match v with
    | .other => .ok .other
    | .term t =>
      if name = "diff" ∨ formMethods.contains name then
        if t.isStatement then reject else .ok (.function (.method name t))
      else if termAttributes.contains name || name.startsWith "is_" then .ok .other
      else match t, name with
        | .var s, "name" => .ok (.text s)
        | _, _ => reject
    | _ => reject

end Value

end FormulaDesk.Expression
