import FormulaDesk.Session.State

/-!
# Operations by name

An operation named with its arguments in order. Each takes a fixed number of arguments; only the
field of an expression may be left out, which is then the main equation.
-/

namespace FormulaDesk.Session.Operation

/-- The names of the arguments of an operation, and how many of them are needed. -/
structure Signature where
  arguments : List String
  needed : Nat

def signature? (name : String) : Option Signature :=
  match name with
  | "set_expression" => some ⟨["markup", "field"], 1⟩
  | "resize" => some ⟨["size"], 1⟩
  | "set_cell" => some ⟨["row", "col", "value"], 3⟩
  | "set_rhs" => some ⟨["index", "value"], 2⟩
  | "set_guess" => some ⟨["index", "value"], 2⟩
  | "load_example" => some ⟨["name"], 1⟩
  | "select_tab" => some ⟨["tab"], 1⟩
  | _ => none

/-- The fault of a call with the wrong number of arguments; the session itself counts as one. -/
def Signature.check (s : Signature) (given : Nat) : Option ArgumentFault :=
  if given < s.needed then some (.missing ((s.arguments.take s.needed).drop given))
  else if s.arguments.length < given then
    some (.surplus (s.needed + 1) (s.arguments.length + 1) (given + 1))
  else none

/-- The operation for a name and arguments that fit. -/
def ofArguments? (name : String) (args : List Json) : Option Operation :=
  match name, args with
  | "set_expression", [markup] =>
    (Typed.ofJson? markup).map fun markup => .setExpression markup (.str "equation")
  | "set_expression", [markup, field] =>
    (Typed.ofJson? markup).map fun markup => .setExpression markup field
  | "resize", [size] => some (.resize size)
  | "set_cell", [row, column, v] => some (.setCell row column v)
  | "set_rhs", [index, v] => some (.setRhs index v)
  | "set_guess", [index, v] => some (.setGuess index v)
  | "load_example", [name] => some (.loadExample name)
  | "select_tab", [tab] => some (.selectTab tab)
  | _, _ => none

/-- Parameters given by name; the session itself cannot be one of them. -/
def ofFields (fields : Fields) : Except Failure Operation :=
  if fields.contains "self" then
    .error (.value (.arguments "SolveSession.update()" (.repeated "self")))
  else .ok (.update fields)

/-- The operation for a name and any arguments. -/
def ofCall (name : String) (args : List Json) : Except Failure Operation :=
  let callee := "SolveSession." ++ name ++ "()"
  match (signature? name).bind (·.check args.length) with
  | some fault => .error (.value (.arguments callee fault))
  | none =>
    match ofArguments? name args with
    | some operation => .ok operation
    | none => .error (.value (.undefinedName name))

end FormulaDesk.Session.Operation
