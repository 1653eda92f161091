import FormulaDesk.Decimal.Layout
import FormulaDesk.Failure
import FormulaDesk.Json.Basic

/-!
# Widget commands

The command sequence that draws one function: three commands that set the axes up and, unless the
expression is empty, four that define the function, style it and set the visible range. Bounds are
written with at most six significant digits.
-/

namespace FormulaDesk.Graph

/-- The name that the drawn function gets. -/
def functionName : String := "f"

/-- The colour of the curve: red, green and blue. -/
def color : List Nat := [255, 0, 0]

def lineThickness : Nat := 3

/-- The bounds of the visible range: both ends of the x-axis, then of the y-axis. -/
structure View where
  xMin : Float := -10
  xMax : Float := 10
  yMin : Float := -10
  yMax : Float := 10

namespace View

def bounds (v : View) : List Float := [v.xMin, v.xMax, v.yMin, v.yMax]

end View

/-- A bound as the widget reads it. -/
def boundText (x : Float) : String := roundedText 6 x

/-- The commands before any function is defined. -/
def axesCommands : List String :=
  ["SetAxesRatio(1,1)", "SetGridVisible(true)", "SetAxesVisible(true, true)"]

/-- The commands that define and style a function, given the written bounds. -/
def curveCommands (name graphing : String) (bounds : List String) : List String :=
  [name ++ "(x) = " ++ graphing,
    "SetColor(" ++ ", ".intercalate (name :: color.map toString) ++ ")",
    "SetLineThickness(" ++ name ++ ", " ++ toString lineThickness ++ ")",
    "SetCoordinateSystem(" ++ ", ".intercalate bounds ++ ")"]

/-- The commands that draw an expression of the graphing dialect in the usual view. -/
def commands (graphing : String) : List String :=
  if graphing.isEmpty then axesCommands
  else axesCommands ++ curveCommands functionName graphing (({} : View).bounds.map boundText)

/-! ## Views from outside -/

/-- A bound of any kind: only numbers and truth values can be written. -/
def boundText? : Json → Except ValueFault String
  | .bool b => .ok (if b then "1" else "0")
  | .int n =>
    match Decimal.floatOfInt? n with
    | some x => .ok (boundText x)
    | none => .error .tooLargeForFloat
  | .float x => .ok (boundText x)
  | .str _ => .error (.wrongFormat 'g' .str)
  | v => .error (.unformattable v.kind)

/-- The commands for a function name and a view given as values. An empty expression needs no
bounds. -/
def commandsFor (graphing name : String) (view : List Json) : Except ValueFault (List String) :=
  if graphing.isEmpty then .ok axesCommands
  else do
    let bounds ← view.mapM boundText?
    return axesCommands ++ curveCommands name graphing bounds

end FormulaDesk.Graph
