import FormulaDesk.Dialect.Conversion
import FormulaDesk.Folder
import FormulaDesk.Plot.Curve
import FormulaDesk.Plot.Report

/-!
# Drawing to a file

An expression is drawn over a window and written as an image. What is wrong with the expression, or
goes wrong with its numbers, is told in the report; so is a file that cannot be written. A window
that has no finite bounds and an image format that is not known end the drawing.
-/

namespace FormulaDesk.Plot

/-- The visible range and the number of points, as given. -/
structure Window where
  xMin : Json := .float (-10)
  xMax : Json := .float 10
  yMin : Json := .float (-10)
  yMax : Json := .float 10
  points : Json := .int usualPoints
deriving Inhabited

namespace Window

def names : List String := ["x_min", "x_max", "y_min", "y_max", "points"]

/-- The names that a drawing takes besides those of the window. -/
def drawingNames : List String := ["expression", "output"]

/-- A window from named values; the rest has its usual value. -/
def ofFields (given : Fields) : Except Failure Window :=
  match given.keys.find? drawingNames.contains, given.keys.find? (fun name => !names.contains name) with
  | some name, _ => .error (.value (.arguments "plot()" (.repeated name)))
  | none, some name => .error (.value (.arguments "plot_evaluable()" (.unexpected name)))
  | none, none =>
    let usual : Window := {}
    .ok {
      xMin := (given.get? "x_min").getD usual.xMin
      xMax := (given.get? "x_max").getD usual.xMax
      yMin := (given.get? "y_min").getD usual.yMin
      yMax := (given.get? "y_max").getD usual.yMax
      points := (given.get? "points").getD usual.points }

/-- Whether every bound can be a limit of an axis. -/
def isBounded (w : Window) : Bool :=
  [w.xMin, w.xMax, w.yMin, w.yMax].all fun v =>
    match end? v with
    | some x => (Binary.ofFloat x).isFinite
    | none => true

end Window

/-! ## Files -/

/-- The image formats that can be written. -/
def formats : List String :=
  ["eps", "jpeg", "jpg", "pdf", "pgf", "png", "ps", "raw", "rgba", "svg", "svgz", "tif", "tiff",
    "webp"]

/-- The part of a path after its last slash. -/
def fileName (path : List Char) : List Char := (path.reverse.takeWhile (· != '/')).reverse

/-- The letters after the last point of a file name; points at its start do not count. -/
def extension (path : List Char) : List Char :=
  let name := (fileName path).dropWhile (· == '.')
  if name.contains '.' then (name.reverse.takeWhile (· != '.')).reverse else []

/-- The file that a path names, and its format. A path without a format gets the usual one. -/
def target (path : String) : String × String :=
  let letters := extension path.toList
  if letters.isEmpty then
    (String.ofList (path.toList.reverse.dropWhile (· == '.')).reverse ++ ".png", "png")
  else (path, String.ofList (letters.map Numeral.lowerAscii))

/-- Writes an image, unless its path leads nowhere. -/
def writeImage (f : Folder) (path : String) : Except Failure Folder :=
  match f.locate path false with
  | .file name => .ok (f.put name .image)
  | .self => .error (.isDirectory path)
  | .missing => .error (.missingFile path)
  | .elsewhere => .ok f

/-! ## Drawing -/

def note (level : Level) (message : String) : Logged Unit :=
  Logged.note { level, source := "plotting", message }

/-- Whether a failure to work out a curve is told in the report. -/
def isNumerical : ValueFault → Bool
  | .undefinedName _ => false
  | .itemRange => false
  | .tupleRange => false
  | .textRange => false
  | .outOfMemory => false
  | _ => true

/-- What is told of a failure to work out a curve, unless it ends the drawing. -/
def told? : Failure → Option String
  | .expression message _ => some message
  | .value fault =>
    if isNumerical fault then some ("Numerical error in plotting: " ++ fault.message) else none
  | _ => none

/-- A file for which nobody named a path. -/
def freshFile (f : Folder) (name : String) : String × Folder :=
  (f.root ++ "/" ++ name, f.put name (.text ""))

/-- What a drawing ends with: its report, and the folder after it. -/
abbrev Drawing := Except Failure Report × Folder

/-- Saves a curve that is ready. -/
def save (f : Folder) (expression path : String) (w : Window) : Logged Drawing := do
  let _ ← Conversion.graphingOf expression
  -- the axes are set up before the file is looked at
  if !w.isBounded then return (.error (.value .axisLimits), f)
  let (file, format) := target path
  if !formats.contains format then return (.error (.value (.plotFormat format)), f)
  match writeImage f file with
  | .ok after =>
    note .info ("Plot saved to " ++ path)
    return (.ok (.saved path), after)
  | .error failure =>
    note .error ("Could not write plot to " ++ path ++ ": " ++ failure.message)
    return (.ok (.failed ("Could not write plot: " ++ failure.message)), f)

/-- Draws an expression. `fresh` names the file to make if no path is given. -/
def draw (engine : Expression.Engine) (f : Folder) (expression : String) (output : Option String) (fresh : String)
    (w : Window) : Logged Drawing :=
  match Curve.sample engine expression w.xMin w.xMax w.points with
  | .error failure =>
    match told? failure with
    | some message => return (.ok (.failed message), f)
    | none => return (.error failure, f)
  | .ok _ =>
    let (path, f) := match output with
      | some path => (path, f)
      -- made before the drawing, so a drawing that fails leaves an empty file behind
      | none => freshFile f fresh
    save f expression path w

end FormulaDesk.Plot
