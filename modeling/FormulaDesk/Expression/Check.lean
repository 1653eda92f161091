import FormulaDesk.Dialect.Cleanup
import FormulaDesk.Expression.Engine

/-!
# Checking an expression

An evaluable expression is worked out as an expression in the variable `x`. It is refused if it is
empty or malformed, if its value is no expression, or if after all simplification an undefined
function or another variable is left in it. Functions are reported before variables, each list in
order.
-/

namespace FormulaDesk.Expression

/-! ## Refusals -/

/-- Why an expression is refused. -/
inductive Refusal where
  | empty
  | malformed (reason : Option String)
  | notAnExpression
  | unknownFunctions (names : List String)
  | unknownNames (names : List String)
  /-- A failure of the engine that is passed on as it is. -/
  | raised (failure : Failure)

namespace Refusal

def message (expression : String) : Refusal → String
  | .empty => "Empty expression"
  | .malformed reason =>
    "Cannot parse '" ++ expression ++ "'" ++ ((reason.map (": " ++ ·)).getD "")
  | .notAnExpression => "'" ++ expression ++ "' is not an expression"
  | .unknownFunctions names => "Unknown function(s) in expression: " ++ ", ".intercalate names
  | .unknownNames names => "Unknown name(s) in expression: " ++ ", ".intercalate names
  | .raised failure => failure.message

def code : Refusal → String
  | .empty => "EMPTY_EXPRESSION"
  | .malformed _ => "PARSE_ERROR"
  | .notAnExpression => "NOT_AN_EXPRESSION"
  | .unknownFunctions _ => "UNKNOWN_FUNCTION"
  | .unknownNames _ => "UNKNOWN_SYMBOL"
  | .raised failure => (failure.code?).getD ""

def failure (expression : String) : Refusal → Failure
  | .raised failure => failure
  | r => .expression (r.message expression) r.code

end Refusal

/-! ## The check -/

def sorted (names : List String) : List String := names.mergeSort fun s t => !(t < s)

/-- The names of the undefined functions in order, each once. -/
def Parsed.undefined (p : Parsed) : List String := sorted p.functions.eraseDups

/-- The variables besides `x` by their names, in order. Two variables of one name differ in what is
assumed of them, and are both listed. -/
def Parsed.extra (p : Parsed) : List String :=
  sorted ((p.vars.eraseDups.filter (· ≠ .x)).map (·.name))

/-- Whether the names that an expression is left with are allowed. -/
def checkNames (p : Parsed) : Except Refusal Unit :=
  match p.undefined, p.extra with
  | [], [] => .ok ()
  | [], names => .error (.unknownNames names)
  | names, _ => .error (.unknownFunctions names)

/-- Works an expression out, or tells why it is refused. -/
def check (engine : Engine) (expression : String) : Except Refusal Parsed :=
  if (Text.stripBlank expression.toList).isEmpty then .error .empty
  else match engine.parse dictionary (Dialect.withoutNamespaces expression) with
    | .error (.malformed reason) => .error (.malformed reason)
    | .error (.raised failure) => .error (.raised failure)
    | .ok none => .error .notAnExpression
    | .ok (some p) => do
      checkNames p
      return p

end FormulaDesk.Expression
