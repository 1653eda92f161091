import FormulaDesk.Failure

/-!
# Replies

One view over the replies of all methods. The service answers in two vocabularies and places the
trace of the iterations under several keys; a reply brings them together and keeps the untouched
object. A key counts as soon as it is present, whatever its value.
-/

namespace FormulaDesk

structure Reply where
  /-- The object as it was sent. -/
  raw : Fields
  root : Json
  solution : Json
  converged : Option Bool
  message : Json
  iterationCount : Option Int
  trace : List Json
  error : Json
  warnings : List Json
  details : Json
  comparison : Json
deriving Inhabited

namespace Reply

/-- The value of a key, nothing if it is missing. -/
def lookup (raw : Fields) (key : String) : Json := (raw.get? key).getD .null

/-- The value of the first key if it is present, else of the second. -/
def lookupEither (raw : Fields) (first second : String) : Json :=
  (raw.get? first <|> raw.get? second).getD .null

/-- The keys that can hold the trace, in the order in which they are tried. -/
def traceKeys : List String := ["pasos", "all_iterations", "iteration_history"]

/-- The first list under a trace key. -/
def ownTrace (raw : Fields) : List Json :=
  (traceKeys.findSome? fun key =>
    match raw.get? key with
    | some (.arr items) => some items
    -- what is no list is passed over, and the next key is tried
    | _ => none).getD []

/-- A number as a whole number, cut toward zero. -/
def wholeOf (x : Float) : Except ValueFault Int :=
  match Binary.ofFloat x with
  | .nan => .error .nanToWhole
  | .infinite _ => .error .infinityToWhole
  | b => .ok (b.truncate?.getD 0)

/-- The number of iterations: given as a number, or the length of the trace. -/
def countOf (iterations : Json) (trace : List Json) : Except ValueFault (Option Int) :=
  match iterations with
  | .arr items => .ok (some items.length)
  | .bool b => .ok (some (if b then 1 else 0))
  | .int n => .ok (some n)
  | .float x => (wholeOf x).map some
  | _ => .ok (if trace.isEmpty then none else some trace.length)

/-- Warnings as a list; a text is one warning. -/
def warningsOf (v : Json) : Except ValueFault (List Json) :=
  if !v.isPresent then .ok []
  else match v with
    | .str s => .ok [.str s]
    | v =>
      match v.entries? with
      | some items => .ok items
      | none => .error (.notIterable v.kind)

/-- Reads a reply. Iterations sent as a list are the trace if there is no other. -/
def ofFields (raw : Fields) : Except ValueFault Reply := do
  let iterations := lookupEither raw "iterations" "iteraciones"
  let own := ownTrace raw
  -- some methods send a count under this key, others the trace itself
  let trace := match iterations with
    | .arr items => if own.isEmpty then items else own
    | _ => own
  let count ← countOf iterations trace
  let warnings ← warningsOf (lookup raw "warnings")
  let converged := lookupEither raw "converged" "convergence"
  return {
    raw, trace, warnings
    root := lookupEither raw "root" "raiz"
    solution := lookup raw "solution"
    converged := if converged.isNull then none else some converged.isPresent
    message := lookupEither raw "message" "mensaje"
    iterationCount := count
    error := lookup raw "error"
    details := lookup raw "convergence_details"
    comparison := lookup raw "comparison_with_jacobi" }

/-- Reads a value that should be an object. -/
def ofJson (v : Json) : Except ValueFault Reply :=
  match v with
  | .obj raw => ofFields raw
  | v => .error (.noAttribute v.kind "get")

end Reply

end FormulaDesk
