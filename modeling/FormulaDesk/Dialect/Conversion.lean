import FormulaDesk.Dialect.Cleanup
import FormulaDesk.Json.Basic
import FormulaDesk.Log.Record
import FormulaDesk.Text.Quoted

/-!
# Converting formulas

Markup in both dialects, with the records that the conversions leave. Empty markup converts to
nothing and leaves no record.
-/

namespace FormulaDesk

/-- One formula in its three forms. -/
structure Conversion where
  markup : String
  evaluable : String
  graphing : String
deriving DecidableEq, Repr

namespace Conversion

/-- Markup in the evaluable dialect. -/
def evaluableOf (markup : String) : Logged String :=
  if markup.isEmpty then ⟨"", []⟩
  else
    let expression := Dialect.evaluable.convert markup
    ⟨expression, [{ level := .debug, source := "notation", message :=
      "Converted markup " ++ Text.quoted markup ++ " to evaluable " ++ Text.quoted expression }]⟩

/-- An evaluable expression in the graphing dialect. -/
def graphingOf (expression : String) : Logged String :=
  if expression.isEmpty then ⟨"", []⟩
  else
    let graphing := Dialect.toGraphing expression
    ⟨graphing, [{ level := .debug, source := "notation", message :=
      "Converted evaluable " ++ Text.quoted expression ++ " to graphing "
        ++ Text.quoted graphing }]⟩

/-- Markup straight in the graphing dialect. -/
def directGraphing (markup : String) : String :=
  if markup.isEmpty then "" else Dialect.graphing.convert markup

/-- Markup by way of the evaluable dialect. -/
def ofMarkup (markup : String) : Logged Conversion := do
  let evaluable ← evaluableOf markup
  let graphing ← graphingOf evaluable
  return ⟨markup, evaluable, graphing⟩

/-- One line for a log. -/
def summary (c : Conversion) : String :=
  "ConversionResult(markup=" ++ Text.quoted c.markup ++ ", evaluable=" ++ Text.quoted c.evaluable
    ++ ", graphing=" ++ Text.quoted c.graphing ++ ")"

/-- The conversion as an object. -/
def fields (c : Conversion) : Fields :=
  [("markup", .str c.markup), ("evaluable", .str c.evaluable), ("graphing", .str c.graphing)]

end Conversion

end FormulaDesk
