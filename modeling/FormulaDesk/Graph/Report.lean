import FormulaDesk.Json.Basic
import FormulaDesk.Text.Quoted

/-!
# What the widget reports

The outcome of a request to draw. A refusal carries the text of its cause; a deferred drawing is
pending. `fields` is the report as an object, where what is absent is left out.
-/

namespace FormulaDesk.Graph

structure Report where
  ok : Bool
  expression : Option String := none
  commands : Option (List String) := none
  pending : Bool := false
  error : Option String := none
deriving DecidableEq, Repr

namespace Report

/-- The drawing that was asked of a widget without a backend. -/
def unattached : Report := { ok := false, error := some "Graph widget is not initialized" }

/-- Nothing to draw. -/
def blank : Report := { ok := true, expression := some "", commands := some [] }

def deferred (equation : String) : Report :=
  { ok := true, expression := some equation, pending := true }

def drawn (graphing : String) (commands : List String) : Report :=
  { ok := true, expression := some graphing, commands := some commands }

def refused (graphing cause : String) : Report :=
  { ok := false, expression := some graphing, error := some cause }

def fields (r : Report) : Fields :=
  [("ok", .bool r.ok)]
    ++ (r.expression.map fun s => ("expression", Json.str s)).toList
    ++ (r.commands.map fun cs => ("commands", Json.arr (cs.map .str))).toList
    ++ (if r.pending then [("pending", .bool true)] else [])
    ++ (r.error.map fun s => ("error", Json.str s)).toList

/-- One line for a log. -/
def summary (r : Report) : String :=
  if r.ok then
    "GraphResult(ok=True"
      ++ ((r.expression.map fun s => ", expression=" ++ Text.quoted s).getD "")
      ++ (if r.pending then ", pending=True" else "") ++ ")"
  else "GraphResult(ok=False, error=" ++ ((r.error.map Text.quoted).getD "None") ++ ")"

end Report

end FormulaDesk.Graph
