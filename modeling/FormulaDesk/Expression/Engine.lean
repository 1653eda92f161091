import FormulaDesk.Failure
import FormulaDesk.Symbolic.ComplexFloat

/-!
# The algebra engine

Expressions are worked out by an engine for computer algebra. It is given a text and a dictionary:
the names that the text may use, each with what it stands for. What the engine makes of other names,
and of the text as a whole, is its own affair; nothing about it is laid down here. An engine either
rejects a text, or gives a value of which only a few things are asked.
-/

namespace FormulaDesk.Expression

open Symbolic (ComplexFloat)

/-! ## Names that an expression may use -/

/-- What a name in a dictionary stands for. -/
inductive Given where
  /-- The variable of the expression. -/
  | variable
  /-- An object of the engine, by its public name. -/
  | object (name : String)
  /-- The logarithm to a fixed base. -/
  | logarithm (base : Nat)
deriving DecidableEq, Repr

abbrev Dictionary := List (String × Given)

/-- The constants and functions that an expression may use. -/
def allowed : Dictionary :=
  [("pi", .object "pi"), ("e", .object "E"), ("inf", .object "oo"), ("sqrt", .object "sqrt"),
    ("pow", .object "Pow"), ("sin", .object "sin"), ("cos", .object "cos"), ("tan", .object "tan"),
    ("asin", .object "asin"), ("acos", .object "acos"), ("atan", .object "atan"),
    ("sinh", .object "sinh"), ("cosh", .object "cosh"), ("tanh", .object "tanh"),
    ("log", .object "log"), ("log10", .logarithm 10), ("exp", .object "exp"),
    ("abs", .object "Abs")]

/-- All that an expression may use. -/
def dictionary : Dictionary := allowed ++ [("x", .variable)]

/-! ## Values -/

/-- A variable, with what the engine assumes of it. -/
structure Variable where
  name : String
  assumptions : List String := []
deriving DecidableEq, Repr

/-- The variable that an expression may have. -/
def Variable.x : Variable := ⟨"x", []⟩

/-- What an expression gives along a grid: one value for all points, or one for each. -/
inductive Samples where
  | constant (z : ComplexFloat)
  | each (zs : List ComplexFloat)

/-- An expression that is worked out, as far as anybody asks for it. -/
structure Parsed where
  /-- The undefined functions that are left in it. -/
  functions : List String
  /-- The variables that are left in it. -/
  vars : List Variable
  /-- The expression as the engine writes it. -/
  written : String
  along : List Float → Except Failure Samples

/-- Why a text has no value. -/
inductive Rejection where
  /-- The text is at fault, for a reason if the engine tells one. -/
  | malformed (reason : Option String)
  /-- A failure that is passed on as it is. -/
  | raised (failure : Failure)

/-- An engine gives nothing for a value that is no expression. -/
structure Engine where
  parse : Dictionary → String → Except Rejection (Option Parsed)

end FormulaDesk.Expression
