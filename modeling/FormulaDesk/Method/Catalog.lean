import FormulaDesk.Failure
import FormulaDesk.Json.Basic

/-!
# The catalog of methods

Six methods, each with its slug, texts, and the fields of its request. Four look for a root of an
equation, two solve a linear system. `slug` is injective and `ofSlug?` is its inverse.
-/

namespace FormulaDesk

inductive Method where
  | fixedPoint
  | bisection
  | newtonRaphson
  | secant
  | jacobi
  | gaussSeidel
deriving DecidableEq, Repr, Inhabited

namespace Method

inductive Kind where
  | equation
  | system
deriving DecidableEq, Repr

def Kind.name : Kind → String
  | .equation => "equation"
  | .system => "system"

/-- A field of a request; one without a default has to be given. -/
structure Field where
  name : String
  default : Option Json := none

/-- The methods in the order in which they are offered. -/
def all : List Method :=
  [.fixedPoint, .bisection, .newtonRaphson, .secant, .jacobi, .gaussSeidel]

def slug : Method → String
  | .fixedPoint => "punto-fijo"
  | .bisection => "biseccion"
  | .newtonRaphson => "newton-raphson"
  | .secant => "secante"
  | .jacobi => "jacobi"
  | .gaussSeidel => "gauss-seidel"

def label : Method → String
  | .fixedPoint => "Punto Fijo"
  | .bisection => "Bisección"
  | .newtonRaphson => "Newton-Raphson"
  | .secant => "Secante"
  | .jacobi => "Jacobi"
  | .gaussSeidel => "Gauss-Seidel"

def description : Method → String
  | .fixedPoint => "Método iterativo para encontrar raíces de ecuaciones"
  | .bisection => "Método que divide intervalos para encontrar raíces"
  | .newtonRaphson => "Método basado en la derivada de la función"
  | .secant => "Aproximación lineal entre dos puntos"
  | .jacobi => "Método iterativo para resolver sistemas de ecuaciones lineales"
  | .gaussSeidel => "Método iterativo mejorado para sistemas de ecuaciones lineales"

/-- The name of the method's request. -/
def requestName : Method → String
  | .fixedPoint => "FixedPointRequest"
  | .bisection => "BisectionRequest"
  | .newtonRaphson => "NewtonRaphsonRequest"
  | .secant => "SecantRequest"
  | .jacobi => "JacobiRequest"
  | .gaussSeidel => "GaussSeidelRequest"

def kind : Method → Kind
  | .jacobi => .system
  | .gaussSeidel => .system
  | _ => .equation

/-- Where the service takes requests for the method. -/
def path (m : Method) : String := "/metodos/" ++ m.slug

def defaultTolerance : Float := 1e-6

def defaultIterations : Nat := 100

/-- The tolerances that a form offers. -/
def toleranceChoices : List Float :=
  [1e-1, 1e-2, 1e-3, 1e-4, 1e-5, 1e-6, 1e-7, 1e-8, 1e-9, 1e-10]

/-- The field with the start vector of a system. -/
def guess? : Method → Option String
  | .jacobi => some "initial_guess"
  | .gaussSeidel => some "x0"
  | _ => none

/-- The fields that end most requests. -/
def stopFields (tolerance iterations : String) : List Field :=
  [⟨tolerance, some (.float defaultTolerance)⟩, ⟨iterations, some (.int defaultIterations)⟩]

/-- The fields of the request, in the order in which it sends them. An empty start vector stands
for zeros. -/
def fields : Method → List Field
  | .fixedPoint =>
    [⟨"equation", none⟩, ⟨"g_function", some (.str "")⟩, ⟨"initial_x", some (.float 0)⟩]
      ++ stopFields "tolerance" "max_iterations"
  | .bisection =>
    [⟨"equation", none⟩, ⟨"a", some (.float 0)⟩, ⟨"b", some (.float 1)⟩]
      ++ stopFields "tol" "max_iter"
  | .newtonRaphson =>
    [⟨"equation", none⟩, ⟨"x0", some (.float 0)⟩] ++ stopFields "tolerance" "max_iterations"
  | .secant =>
    [⟨"equation", none⟩, ⟨"x0", some (.float 0)⟩, ⟨"x1", some (.float 1)⟩]
      ++ stopFields "tolerance" "max_iterations"
  | .jacobi =>
    [⟨"A", none⟩, ⟨"b", none⟩, ⟨"initial_guess", some (.arr [])⟩]
      ++ stopFields "tolerance" "max_iterations"
  | .gaussSeidel =>
    [⟨"A", none⟩, ⟨"b", none⟩, ⟨"x0", some (.arr [])⟩]
      ++ stopFields "tolerance" "max_iterations"

def fieldNames (m : Method) : List String := m.fields.map (·.name)

def requiredNames (m : Method) : List String :=
  (m.fields.filter fun f => f.default.isNone).map (·.name)

def ofSlug? (slug : String) : Option Method := all.find? (·.slug == slug)

def ofRequestName? (name : String) : Option Method := all.find? (·.requestName == name)

/-- Looks a method up. -/
def ofSlug (slug : String) : Except Problem Method :=
  match ofSlug? slug with
  | some m => .ok m
  | none => .error (.unknownMethod slug (all.map (·.slug)))

end Method

/-! ## Example systems -/

/-- A linear system with whole coefficients. -/
structure ExampleSystem where
  matrix : List (List Int)
  rhs : List Int
deriving DecidableEq, Repr

namespace ExampleSystem

/-- The systems that the forms offer. The last one converges faster with Gauss-Seidel than with
Jacobi. -/
def all : List (String × ExampleSystem) :=
  [("diagonal-3x3", ⟨[[10, 2, 1], [2, 10, 1], [1, 1, 5]], [13, 13, 7]⟩),
    ("tridiagonal-4x4",
      ⟨[[10, -1, 0, 0], [-1, 11, -1, 0], [0, -1, 12, -1], [0, 0, -1, 13]], [9, 9, 10, 12]⟩),
    ("gauss-seidel-3x3", ⟨[[4, -1, 0], [-1, 4, -1], [0, -1, 4]], [3, 6, 3]⟩)]

def names : List String := all.map (·.1)

def ofName? (name : String) : Option ExampleSystem := all.lookup name

/-- A coefficient as a float. -/
def coefficient (n : Int) : Json := .float (Decimal.toFloat (decide (n < 0)) ⟨n.natAbs, 0⟩)

def matrixValue (s : ExampleSystem) : Json :=
  .arr (s.matrix.map fun row => .arr (row.map coefficient))

def rhsValue (s : ExampleSystem) : Json := .arr (s.rhs.map coefficient)

end ExampleSystem

end FormulaDesk
