import FormulaDesk.Json.Printer

/-!
# What a plot reports

The outcome of writing an image: the path of the file, or what prevented it.
-/

namespace FormulaDesk.Plot

structure Report where
  ok : Bool
  path : Option String := none
  error : Option String := none
deriving DecidableEq, Repr

namespace Report

def saved (path : String) : Report := { ok := true, path := some path }

def failed (error : String) : Report := { ok := false, error := some error }

/-- The report as an object, where what is absent is left out. -/
def fields (r : Report) : Fields :=
  [("ok", .bool r.ok)]
    ++ (r.path.map fun s => ("path", Json.str s)).toList
    ++ (r.error.map fun s => ("error", Json.str s)).toList

/-- One line for a log. -/
def summary (r : Report) : String :=
  "PlotResult(ok=" ++ (Json.bool r.ok).literal
    ++ ", path=" ++ ((r.path.map Text.quoted).getD "None")
    ++ ", error=" ++ ((r.error.map Text.quoted).getD "None") ++ ")"

end Report

end FormulaDesk.Plot
