import FormulaDesk.Symbolic.Function

/-!
# Derivatives

The derivative of a term by a variable, by the rules for sums, products, powers and the elementary
functions. What has no rule stays as a derivative that is not worked out.
-/

namespace FormulaDesk.Symbolic.Term

/-- The derivative of an elementary function at a term. -/
def slope? (name : String) (u : Term) : Option Term :=
  match name with
  | "sin" => some (cos u)
  | "cos" => some (neg (sin u))
  | "tan" => some (onePlus 1 (tan u))
  | "asin" => some (inverse (sqrt (onePlus (-1) u)))
  | "acos" => some (neg (inverse (sqrt (onePlus (-1) u))))
  | "atan" => some (inverse (onePlus 1 u))
  | "sinh" => some (cosh u)
  | "cosh" => some (sinh u)
  | "tanh" => some (onePlus (-1) (tanh u))
  | "log" => some (inverse u)
  | _ => none

/-- A derivative that is not worked out. -/
def pending (t : Term) : Term := .call "Derivative" [t]

mutual

def derivative (x : String) : Term → Term
  | .var name => if name = x then one else zero
  | .sum _ parts => derivativeParts x parts
  | .product c factors => scale c (derivativeProduct x factors)
  | .power b e =>
    let b' := derivative x b
    let e' := derivative x e
    if isZero e' then mul (mul e (pow b (sub e one))) b'
    else
      add (mul (pow b e) (mul e' (log b))) (mul (mul e (pow b (sub e one))) b')
  | .call name [u] =>
    let u' := derivative x u
    if isZero u' then zero
    else match slope? name u with
      | some s => mul u' s
      | none => pending (.call name [u])
  | .call name args =>
    if (freeNamesList args).contains x then pending (.call name args) else zero
  | .unknown name args =>
    if (freeNamesList args).contains x then pending (.unknown name args) else zero
  | _ => zero

def derivativeParts (x : String) : List (Term × Amount) → Term
  | [] => zero
  | (t, c) :: rest => add (scale c (derivative x t)) (derivativeParts x rest)

def derivativeProduct (x : String) : List Term → Term
  | [] => zero
  | f :: rest =>
    add (mul (derivative x f) (rest.foldl mul one)) (mul f (derivativeProduct x rest))

end

/-- The derivative taken several times. -/
def derivativeTimes (x : String) : Nat → Term → Term
  | 0, t => t
  | n + 1, t => derivativeTimes x n (derivative x t)

end FormulaDesk.Symbolic.Term
