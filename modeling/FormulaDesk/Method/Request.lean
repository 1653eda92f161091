import FormulaDesk.Arguments
import FormulaDesk.Method.Catalog

/-!
# Solve requests

A request holds one value for every field of its method, in the method's order. The values are
taken as given; only the shape of a linear system is checked: a square matrix that is not empty,
and two vectors of its size. A start vector that is empty or absent becomes zeros.
-/

namespace FormulaDesk

structure Request where
  method : Method
  body : Fields

namespace Request

/-- The values for a list of fields: those given, else the defaults. -/
def fill (fields : List Method.Field) (given : Fields) : Fields :=
  fields.filterMap fun f => (given.get? f.name <|> f.default).map (f.name, ·)

def zeros (size : Nat) : Json := .arr (List.replicate size (.float 0))

/-- The number of entries of a value that needs them. -/
def sizeOf (v : Json) : Except ValueFault Nat :=
  match v.size? with
  | some n => .ok n
  | none => .error (.noSize v.kind)

/-- The value of a field; every field has one. -/
def value (r : Request) (name : String) : Json := (r.body.get? name).getD .null

/-- Puts zeros, as many as the right-hand side has entries, in place of a start vector that is
absent. -/
def fillGuess (r : Request) : Except ValueFault Request :=
  match r.method.guess? with
  | none => .ok r
  | some guess =>
    if (r.value guess).isPresent then .ok r
    else do
      -- the shape is checked later: the right-hand side sets the size, whatever the matrix has
      let size ← sizeOf (r.value "b")
      return { r with body := r.body.set guess (zeros size) }

/-- The request of a method with the given fields. -/
def make (m : Method) (given : Fields) : Except ValueFault Request := do
  match Arguments.check m.fieldNames m.requiredNames given with
  | .error fault => throw (.arguments (m.requestName ++ ".__init__()") fault)
  | .ok () => fillGuess ⟨m, fill m.fields given⟩

/-! ## Linear systems -/

/-- Whether some row has another size than the matrix; rows are looked at up to the first that
has. -/
def someRowDiffers (size : Nat) : List Json → Except ValueFault Bool
  | [] => .ok false
  | row :: rest => do
    if (← sizeOf row) = size then someRowDiffers size rest else return true

/-- A vector of a system has one entry for each row. -/
def checkVector (problem : Nat → Nat → Problem) (size : Nat) (v : Json) : Except Failure Unit := do
  let found ← (sizeOf v).mapError .value
  if found ≠ size then throw (.invalid (problem found size))

/-- The shape of a linear system. -/
def checkSystem (matrix rhs guess : Json) : Except Failure Unit := do
  let size ← (sizeOf matrix).mapError .value
  -- from the matrix to the vectors: the first misfit is the one reported
  if size = 0 then throw (.invalid .emptySystem)
  if ← (someRowDiffers size (matrix.entries?.getD [])).mapError .value then
    throw (.invalid (.notSquare size))
  checkVector .rhsSize size rhs
  checkVector .guessSize size guess

/-- The check of a request before it is sent; an equation needs none. -/
def validate (r : Request) : Except Failure Unit :=
  match r.method.guess? with
  | none => .ok ()
  | some guess => checkSystem (r.value "A") (r.value "b") (r.value guess)

/-! ## Building by slug -/

/-- Texts in the order of their characters, each once. -/
def sortedNames (names : List String) : List String :=
  (names.mergeSort (fun a b => decide (a ≤ b))).eraseDups

/-- The given names that are no fields of the method, sorted. -/
def unknownNames (m : Method) (given : Fields) : List String :=
  sortedNames (given.keys.filter fun name => !m.fieldNames.contains name)

/-- The checked request for a slug. A slug among the fields is given twice. -/
def build (slug : String) (given : Fields) : Except Failure Request := do
  if given.contains "slug" then
    throw (.value (.arguments "build_request()" (.repeated "slug")))
  let m ← (Method.ofSlug slug).mapError .invalid
  -- unknown names come before missing ones
  match unknownNames m given with
  | [] => pure ()
  | names => throw (.invalid (.unknownFields slug names))
  let request ← (make m given).mapError fun fault => .invalid (.invalidFields slug fault)
  request.validate
  return request

/-- The request for an example system. -/
def ofExample (slug name : String) : Except Failure Request := do
  let m ← (Method.ofSlug slug).mapError .invalid
  if m.kind ≠ .system then throw (.invalid (.notASystem slug))
  match ExampleSystem.ofName? name with
  | none => throw (.invalid (.unknownExample name))
  | some system => build slug [("A", system.matrixValue), ("b", system.rhsValue)]

end Request

end FormulaDesk
