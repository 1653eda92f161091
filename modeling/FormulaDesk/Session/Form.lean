import FormulaDesk.Method.Request
import FormulaDesk.Session.Entry

/-!
# Forms

The form of a method holds a value for each field of its request. It starts with the defaults, an
empty equation, or a system of three unknowns that is all zeros.
-/

namespace FormulaDesk.Form

/-- The number of unknowns of a new system. -/
def defaultSize : Nat := 3

/-- The field that the start-vector entries of a form go to. -/
def guessField (m : Method) : String :=
  if m.fieldNames.contains "x0" then "x0" else "initial_guess"

def isExpression (field : String) : Bool := field = "equation" ∨ field = "g_function"

def isWhole (field : String) : Bool := field = "max_iter" ∨ field = "max_iterations"

def isSystemPart (field : String) : Bool := ["A", "b", "x0", "initial_guess"].contains field

def zeroMatrix (size : Nat) : Json := .arr (List.replicate size (Request.zeros size))

/-- The form with a system of the given size that is all zeros. -/
def resized (m : Method) (form : Fields) (size : Nat) : Fields :=
  ((form.set "A" (zeroMatrix size)).set "b" (Request.zeros size)).set (guessField m)
    (Request.zeros size)

/-- The start value of a field outside the system. -/
def initialValue (m : Method) (f : Method.Field) : Option (String × Json) :=
  if m.guess? = some f.name then none
  else match f.default with
    | some v => some (f.name, v)
    | none => if f.name = "equation" then some (f.name, .str "") else none

def initial (m : Method) : Fields :=
  let form := m.fields.filterMap (initialValue m)
  match m.kind with
  | .equation => form
  | .system => resized m form defaultSize

/-- The value that a form stores for a parameter. -/
def parameter (field : String) (v : Json) : Except ValueFault Json :=
  if isExpression field then .ok v
  else if isWhole field then (Entry.whole v).map .int
  else (Entry.real v).map .float

/-- The value of a field of the form. -/
def value (form : Fields) (field : String) : Except ValueFault Json :=
  match form.get? field with
  | some v => .ok v
  | none => .error (.missingKey field)

/-- Sets one cell of the matrix. -/
def setCell (form : Fields) (row column v : Json) : Except ValueFault Fields := do
  -- the value is read first: a bad value is reported even where the position is bad as well
  let x ← Entry.cell v
  let matrix ← value form "A"
  let (i, cells) ← Entry.item matrix row
  let changed ← Entry.assign cells column x
  match matrix with
  | .arr rows => return form.set "A" (.arr (rows.set i changed))
  | _ => return form

/-- Sets one entry of a vector. -/
def setEntry (form : Fields) (field : String) (index v : Json) : Except ValueFault Fields := do
  let x ← Entry.cell v
  let changed ← Entry.assign (← value form field) index x
  return form.set field changed

/-- No list has this many entries, or more: their places alone would take up all addresses. -/
def maxSize : Nat := Nat.pow 2 60

/-- The number of unknowns that a value asks for. A number below one is a problem of the form. -/
def sizeOf (v : Json) : Except Failure Nat :=
  match v with
  | .bool b => ofInt (if b then 1 else 0)
  | .int n => ofInt n
  | .float x =>
    -- the bound is checked before the kind, so a small real number is out of bounds
    if x < 1 then .error (.invalid .invalidSize) else .error (.value (.notWhole .float))
  | v => .error (.value (.notComparable v.kind))
where
  ofInt (n : Int) : Except Failure Nat :=
    if n < 1 then .error (.invalid .invalidSize)
    else if (Nat.pow 2 63 : Int) ≤ n then .error (.value .tooLargeForSize)
    else if (maxSize : Int) ≤ n then .error (.value .outOfMemory)
    else .ok n.toNat

/-- The form with an example system. -/
def withExample (m : Method) (form : Fields) (system : ExampleSystem) : Fields :=
  ((resized m form system.rhs.length).set "A" system.matrixValue).set "b" system.rhsValue

end FormulaDesk.Form
