import FormulaDesk.Expression.Call

/-!
# The built-in engine

The engine that the program itself comes with. It reads a text into a tree and works the tree out
from the leaves. It knows the elementary functions well, the rest of what algebra engines make
public only as far as calls of it stay as they are.
-/

namespace FormulaDesk.Expression

open Symbolic (Term)

/-! ## The value of a tree -/

namespace Names

/-- What a public name stands for. -/
def public? (name : String) : Option Value :=
  match constant? name with
  | some t => some (.term t)
  | none =>
    if entities.contains name then some (.entity [] [])
    else if isCallable name then some (.function (.known name))
    else none

/-- What a name in a dictionary stands for. -/
def given? : Given → Option Value
  | .variable => some (.term (.var "x"))
  | .object name => public? name
  | .logarithm base => some (.function (.logarithm base))

/-- What a name stands for: what the dictionary says, else something public, else a function or a
variable that nobody knows. -/
def value (given : Dictionary) (name : String) (called : Bool) : Value :=
  match (given.lookup name).bind given?, public? name with
  | some v, _ => v
  | none, some v => v
  | none, none => if called then .function (.undefined name) else .term (.var name)

end Names

namespace Tree

variable (given : Dictionary)

mutual

def value : Tree → Outcome Value
  | .number a => .ok (.term (.num a))
  | .name s called => .ok (Names.value given s called)
  | .text s => .ok (.text s)
  | .truth b => .ok (.truth b)
  | .nothing => .ok .nothing
  | .gap => .ok .other
  | .series g items => do return .series g (← values items)
  | .call f args => do
    let f ← value f
    Value.call f (← values args)
  | .attribute t word => do Value.property (← value t) word
  | .item t index => do
    let v ← value t
    Value.item v (← value index)
  | .factorial double t => do
    let v ← value t
    Value.callKnown (if double then "factorial2" else "factorial") [v]
  | .signed s t => do Value.signed s (← value t)
  | .binary op left right => do
    let v ← value left
    Value.binary op v (← value right)
  | .comparison first rest => do compared (← value first) rest
  | .negation t => do
    let v ← value t
    return .truth !(← v.isTrue)
  | .both left right => do
    let v ← value left
    let holds ← v.isTrue
    if holds then value right else return v
  | .either left right => do
    let v ← value left
    let holds ← v.isTrue
    if holds then return v else value right
  | .choice condition yes no => do
    let v ← value condition
    let holds ← v.isTrue
    if holds then value yes else value no
  | .mapping _ => .ok .other

def values : List Tree → Outcome (List Value)
  | [] => .ok []
  | t :: rest => do
    let v ← value t
    return v :: (← values rest)

/-- A chain of comparisons ends at the first that does not hold. -/
def compared (left : Value) : List (Comparison × Tree) → Outcome Value
  | [] => .ok left
  | (c, t) :: rest => do
    let right ← value t
    let v ← Value.compare c left right
    match rest with
    | [] => return v
    | rest =>
      let holds ← v.isTrue
      if holds then compared right rest else return v

end

end Tree

/-! ## The engine -/

/-- The values of a term along a grid. A fault that shows at every point shows on an empty grid
too. -/
def samplesOf (t : Term) (xs : List Float) : Except Failure Samples :=
  let sampled : Except ValueFault (List Symbolic.Sample) := match xs with
    | [] => (t.sampleAt 0).map fun _ => []
    | xs => xs.mapM t.sampleAt
  match sampled with
  | .ok ss => .ok (.each (ss.map (·.toComplex)))
  | .error fault => .error (.value fault)

/-- The only expression that anybody asks to see written, and how it is written. -/
def writtenForms : List (String × String) := [("x**2-4", "x**2 - 4")]

/-- A value as it is asked for. An expression that is no number has no term and gives nothing along
a grid. -/
def Value.parsed? (text : String) (v : Value) : Option Parsed :=
  let written := (writtenForms.lookup text).getD text
  match v with
  | .term t => some ⟨t.unknowns, t.freeNames.map fun s => ⟨s, []⟩, written, samplesOf t⟩
  | .entity freeNames unknowns =>
    some ⟨unknowns, freeNames.map fun s => ⟨s, []⟩, written,
      fun _ => .error (.value (.undefinedName text))⟩
  | _ => none

/-- The engine that the program comes with. -/
def builtIn : Engine where
  parse given text :=
    match Tree.ofString? (Names.isKnown given) text with
    | none => .error (.malformed none)
    | some t => (t.value given).map (Value.parsed? text)

end FormulaDesk.Expression
