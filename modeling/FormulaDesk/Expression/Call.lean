import FormulaDesk.Symbolic.Derivative
import FormulaDesk.Expression.Names
import FormulaDesk.Expression.Value

/-!
# Calls

What a known function makes of its arguments. A call with a wrong number of arguments, or with
arguments that are no terms where terms are needed, is rejected.
-/

namespace FormulaDesk.Expression

open Symbolic (Term Amount Relation)

namespace Value

/-! ## Functions of terms -/

/-- The functions of one argument that the algebra has rules for. -/
def unary? (name : String) : Option (Term → Term) :=
  match name with
  | "sin" => some Term.sin
  | "cos" => some Term.cos
  | "tan" => some Term.tan
  | "asin" => some Term.asin
  | "acos" => some Term.acos
  | "atan" => some Term.atan
  | "sinh" => some Term.sinh
  | "cosh" => some Term.cosh
  | "tanh" => some Term.tanh
  | "exp" => some Term.exp
  | "abs" => some Term.abs
  | "Abs" => some Term.abs
  | "sign" => some Term.sign
  | "floor" => some Term.floor
  | "ceiling" => some Term.ceiling
  | "factorial" => some Term.factorial
  | "factorial2" => some Term.factorial2
  | "gamma" => some Term.gamma
  | "rad" => some fun t => Term.scale (.exact (mkRat 1 180)) (Term.mul t (.const .pi))
  | "deg" => some fun t => Term.div (Term.scale (.ofInt 180) t) (.const .pi)
  | _ => none

/-- The roots and powers, with an argument that changes nothing at their end. -/
def powers? (name : String) (args : List Term) : Option Term :=
  match name, args with
  | "sqrt", [t] => some (Term.sqrt t)
  | "sqrt", [t, _] => some (Term.sqrt t)
  | "cbrt", [t] => some (Term.pow t (Term.ofRat (mkRat 1 3)))
  | "cbrt", [t, _] => some (Term.pow t (Term.ofRat (mkRat 1 3)))
  | "root", [t, n] => some (Term.pow t (Term.inverse n))
  | "root", [t, n, k] =>
    some (Term.mul (Term.pow t (Term.inverse n)) (Term.pow (Term.ofInt (-1))
      (Term.div (Term.scale (.ofInt 2) k) n)))
  | "pow", [b, e] => some (Term.pow b e)
  | "pow", [b, e, _] => some (Term.pow b e)
  | "Pow", [b, e] => some (Term.pow b e)
  | "Pow", [b, e, _] => some (Term.pow b e)
  | "log", [t] => some (Term.log t)
  | "log", [t, b] => some (Term.logBase t b)
  | "ln", [t] => some (Term.log t)
  | "ln", [t, b] => some (Term.logBase t b)
  | "Mod", [s, t] => if isZeroTerm t then none else some (Term.remainder s t)
  | "binomial", [s, t] => some (Term.binomial s t)
  | _, _ => none

/-- The largest or smallest of some terms. -/
def extreme (greatest : Bool) (args : List Term) : Term :=
  let name := if greatest then "Max" else "Min"
  let better (a b : Amount) : Bool := if greatest then b.lt a else a.lt b
  let (numbers, others) := (withoutRepeats args).partition fun t => t.amount?.isSome
  let best : Option Amount := (numbers.filterMap Term.amount?).foldl
    (fun best a => match best with
      | none => some a
      | some b => some (if better a b then a else b)) none
  match best, others with
  | none, [] => .num (.infinite greatest)
  | some a, [] => .num a
  | none, [t] => t
  | none, ts => .call name ts
  | some a, ts => .call name (.num a :: ts)

/-- A rounded number, with so many places behind the point; a half goes to the even neighbour. -/
def roundTo (a : Amount) (places : Int) : Option Term :=
  a.value?.map fun q =>
    let unit : Rat := if 0 ≤ places then 10 ^ places.toNat else 1 / (10 ^ (-places).toNat)
    let scaled := q * unit
    let nearest : Nat := Decimal.roundDiv scaled.num.natAbs scaled.den
    let whole : Rat := if scaled.num < 0 then -(nearest : Rat) else nearest
    if places = 0 then Term.ofRat whole else .num (.round Amount.floatBits (whole / unit))

/-- The sum of some values, from zero on. -/
def sumOf : (sofar : Value) → List Value → Outcome Value
  | sofar, [] => .ok sofar
  | sofar, v :: rest =>
    match binary .add sofar v with
    | .ok w => sumOf w rest
    | .error e => .error e

/-- All arguments as terms. -/
def terms? (args : List Value) : Option (List Term) := args.mapM Value.term?

/-- All arguments as statements. -/
def statements? (args : List Value) : Option (List Term) := args.mapM Value.statement?

/-- The terms in a value, also in brackets. -/
def termsIn : Value → List Term
  | .term t => [t]
  | .series _ items => termsOf items
  | _ => []
where
  termsOf : List Value → List Term
    | [] => []
    | v :: rest => termsIn v ++ termsOf rest

def comparison? (name : String) : Option Relation :=
  match name with
  | "Lt" => some .lt
  | "Le" => some .le
  | "Gt" => some .gt
  | "Ge" => some .ge
  | "StrictLessThan" => some .lt
  | "LessThan" => some .le
  | "StrictGreaterThan" => some .gt
  | "GreaterThan" => some .ge
  | _ => none

/-- That two terms are equal. -/
def equality (s t : Term) : Term :=
  if s == t then .truth true
  else match s, t with
    | .num _, .num _ => .truth false
    | s, t => conjunction [.relation .le s t, .relation .ge s t]

/-- A statement made from statements. -/
def connective? (name : String) (args : List Term) : Option Term :=
  match name, args with
  | "And", ts => some (conjunction ts)
  | "Or", ts => some (disjunction ts)
  | "Xor", ts => some (parity ts)
  | "Nand", ts => some (negated (conjunction ts))
  | "Nor", ts => some (negated (disjunction ts))
  | "Not", [t] => some (negated t)
  | "Implies", [s, t] => some (disjunction [negated s, t])
  | "ITE", [c, s, t] => some (disjunction [conjunction [c, s], conjunction [negated c, t]])
  | _, _ => none

/-! ## Functions that are written out -/

/-- The names of parameters. -/
def parameters? : Value → Option (List String)
  | .term (.var s) => some [s]
  | .series .tuple items => items.mapM fun v => match v with
    | .term (.var s) => some s
    | _ => none
  | _ => none

/-- A function from its parameters and its body. -/
def mapping (parameters body : Value) : Outcome Value :=
  match parameters? parameters, body with
  | some names, .term t =>
    .ok (.entity (t.freeNames.filter fun s => !names.contains s) t.unknowns)
  | some _, .truth _ => .ok (.entity [] [])
  | some names, .entity freeNames unknowns =>
    .ok (.entity (freeNames.filter fun s => !names.contains s) unknowns)
  | _, _ => reject

/-- The derivative by variables, each of them some number of times. -/
def derivativeBy : Term → List Value → Outcome Value
  | t, [] => .ok (.term t)
  | t, .term (.var x) :: .term (.num (.exact q)) :: rest =>
    if q.den = 1 ∧ 0 ≤ q.num ∧ q.num ≤ 50 then
      derivativeBy (Term.derivativeTimes x q.num.toNat t) rest
    else reject
  | t, .term (.var x) :: rest => derivativeBy (Term.derivative x t) rest
  | _, _ => reject

/-- The derivative of a term; by its own variable if none is named. -/
def derivative (args : List Value) : Outcome Value :=
  match args with
  | [.term t] =>
    match t.freeNames.eraseDups with
    | [x] => .ok (.term (Term.derivative x t))
    | [] => .ok (.term Term.zero)
    | _ => reject
  | .term t :: rest => derivativeBy t rest
  | _ => reject

/-! ## Calls by name -/

/-- A text that is one name. -/
def isName (s : String) : Bool :=
  !s.isEmpty && s.toList.all fun c => Text.isWord c

/-- Whether a built-in function that gives no expression takes its arguments: some walk through
items, some need a whole number, one a single character. -/
def takes (name : String) (args : List Value) : Bool :=
  match args with
  | [.series _ _] => ["len", "sorted", "all", "any", "iter"].contains name
  | [.text s] =>
    ["len", "sorted", "all", "any", "iter"].contains name || (name = "ord" && s.length = 1)
  | [.truth _] => ["chr", "bin", "hex", "oct"].contains name
  | [v] => v.int?.isSome && ["chr", "bin", "hex", "oct"].contains name
  | _ => false

/-- What a function of other values than terms alone gives. -/
def special (name : String) (args : List Value) : Outcome Value :=
  match name, args with
  | "Symbol", [.text s] => .ok (.term (.var s))
  | "Dummy", [] => .ok (.term (.var "_Dummy"))
  | "symbols", [.text s] => if isName s then .ok (.term (.var s)) else .ok .other
  | "var", [.text s] => if isName s then .ok (.term (.var s)) else .ok .other
  | "Function", [.text s] => .ok (.function (.undefined s))
  | "Integer", [v] =>
    match v.term?.bind Term.amount? with
    | some a =>
      match a.value? with
      | some q => .ok (.term (Term.ofInt (if 0 ≤ q then q.floor else -(-q).floor)))
      | none => reject
    | none => reject
  | "Float", .term (.num a) :: _ =>
    match a.value? with
    | some q => .ok (.term (.num (.round Amount.floatBits q)))
    | none => .ok (.term (.num a))
  | "Rational", [.term (.num (.exact q))] => .ok (.term (Term.ofRat q))
  | "Rational", [.term (.num (.exact p)), .term (.num (.exact q))] =>
    .ok (.term (Term.div (Term.ofRat p) (Term.ofRat q)))
  | "Lambda", [parameters, body] => mapping parameters body
  | "diff", args => derivative args
  | "Derivative", args => derivative args
  | "sum", [.series _ items] => sumOf (.term Term.zero) items
  | "sum", [.series _ items, start] => sumOf start items
  | "round", [.term (.num a)] =>
    match roundTo a 0 with
    | some t => .ok (.term t)
    | none => reject
  | "round", [.term (.num a), v] =>
    match v.int?.bind (roundTo a) with
    | some t => .ok (.term t)
    | none => reject
  | "divmod", [v, w] =>
    match v.int?, w.int? with
    | some _, some n =>
      if n = 0 then fault (.moduloByZero "integer division or modulo by zero")
      else .ok (.entity [] [])
    | _, _ => if v.term?.isSome && w.term?.isSome then .ok .other else reject
  | "Mod", [.term _, .term t] => if isZeroTerm t then fault (.moduloByZero "Modulo by zero") else reject
  | "Eq", [.term s, .term t] => .ok (.term (equality s t))
  | "Equality", [.term s, .term t] => .ok (.term (equality s t))
  | "Ne", [.term s, .term t] => .ok (.term (negated (equality s t)))
  | "Unequality", [.term s, .term t] => .ok (.term (negated (equality s t)))
  | "print", _ => .ok .nothing
  | "exec", [.text _] => .ok .nothing
  | "eval", [.text _] => .ok .other
  | "open", .text _ :: _ => .ok .other
  | "__import__", .text _ :: _ => .ok .other
  | name, args => if takes name args then .ok .other else reject

/-- A function of terms. -/
def ofTerms? (name : String) (args : List Term) : Option Term :=
  match powers? name args, unary? name, args with
  | some t, _, _ => some t
  | none, some f, [t] => some (f t)
  | none, _, args =>
    match name with
    | "Max" => some (extreme true args)
    | "max" => if args.isEmpty then none else some (extreme true args)
    | "Min" => some (extreme false args)
    | "min" => if args.isEmpty then none else some (extreme false args)
    | "Add" => some (args.foldl Term.add Term.zero)
    | "Mul" => some (args.foldl Term.mul Term.one)
    | name =>
      if name = "Mod" then none
      else match Names.plainCalls.lookup name with
        | some (least, most) =>
          if least ≤ args.length ∧ args.length ≤ most then some (.call name args) else none
        | none => none

/-- A known function of its arguments. -/
def callKnown (name : String) (args : List Value) : Outcome Value :=
  if Names.formChangers.contains name then
    match args with
    | .term t :: _ => .ok (.term t)
    | .truth b :: _ => .ok (.term (.truth b))
    | .nothing :: _ => .ok .nothing
    | _ => reject
  else if Names.deferred.contains name then
    if args.isEmpty then reject
    else .ok (.entity ((args.flatMap termsIn).flatMap Term.freeNames)
      ((args.flatMap termsIn).flatMap Term.unknowns))
  else if Names.nonExpressions.contains name then
    if args.isEmpty && !Names.surveys.contains name then reject else .ok .other
  -- functions of terms before those of statements, as a variable can be either
  else match (terms? args).bind (ofTerms? name) with
    | some t => .ok (.term t)
    | none =>
      match (statements? args).bind (connective? name), comparison? name, args with
      | some t, _, _ => .ok (.term t)
      | none, some r, [.term s, .term t] => compareTerms r s t
      | none, _, args => special name args

/-- An argument of a function that nobody defined. -/
def plainArgument : Value → Option Term
  | .term t => some t
  | .truth b => some (.truth b)
  | _ => none

def call (f : Value) (args : List Value) : Outcome Value :=
  match f with
  | .function (.known name) => callKnown name args
  | .function (.logarithm base) =>
    match args with
    | [.term t] => if t.isStatement then reject else .ok (.term (Term.logBase t (Term.ofInt base)))
    | _ => reject
  | .function (.undefined name) => .ok (.term (.unknown name (args.filterMap plainArgument)))
  | .function (.method name t) =>
    if name = "diff" then derivative (.term t :: args) else .ok (.term t)
  | .other => .ok .other
  | _ => reject

end Value

end FormulaDesk.Expression
