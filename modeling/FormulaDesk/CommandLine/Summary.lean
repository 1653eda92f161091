import FormulaDesk.Json.Printer
import FormulaDesk.Service.Reply

/-!
# Replies as text

The summary of a reply that a reader sees: one line for each part that is present, and the trace as
a table whose columns are the keys of its first entry. Floats have ten significant digits. An entry
of the trace that is no object stops the table; what was written before it stays.
-/

namespace FormulaDesk.CommandLine

/-- Lines that were written, and what stopped the writing. -/
structure Printed where
  lines : List String := []
  fault : Option ValueFault := none
deriving Repr

namespace Printed

def line (s : String) : Printed := { lines := [s] }

def nothing : Printed := {}

/-- Goes on writing unless something stopped it. -/
def followedBy (p q : Printed) : Printed :=
  match p.fault with
  | some _ => p
  | none => { lines := p.lines ++ q.lines, fault := q.fault }

def all (ps : List Printed) : Printed := ps.foldr followedBy nothing

/-- The text on the terminal. -/
def text (p : Printed) : String := String.join (p.lines.map (· ++ "\n"))

end Printed

/-! ## Values -/

mutual

/-- A value as a summary shows it. -/
def shown : Json → String
  | .float x => roundedText 10 x
  | .arr items => "[" ++ shownItems true items ++ "]"
  | v => v.display

def shownItems (first : Bool) : List Json → String
  | [] => ""
  | v :: rest => (if first then "" else ", ") ++ shown v ++ shownItems false rest

end

/-- A line for a value unless it is absent. -/
def valueLine (label : String) (v : Json) : Printed :=
  if v.isNull then .nothing else .line (label ++ ": " ++ shown v)

/-! ## The trace -/

/-- The columns of a table, from its first entry. -/
def columns (entry : Json) : Except ValueFault (List String) :=
  match entry with
  | .obj fields => .ok (Fields.keys fields)
  | v => .error (.noAttribute v.kind "keys")

/-- A cell of a table. -/
def cell (entry : Json) (key : String) : Except ValueFault String :=
  match entry with
  | .obj fields => .ok (shown ((Fields.get? fields key).getD .null))
  | v => .error (.noAttribute v.kind "get")

def rowText (cells : List String) : String := " | ".intercalate cells

/-- The row of an entry. -/
def row (keys : List String) (entry : Json) : Printed :=
  match keys.mapM (cell entry) with
  | .ok cells => .line (rowText cells)
  | .error fault => { fault := some fault }

/-- The trace as a table under an empty line. -/
def table (trace : List Json) : Printed :=
  match trace with
  | [] => .nothing
  | entry :: _ =>
    match columns entry with
    | .error fault => { fault := some fault }
    -- the heading comes from the first entry and is not compared with the others
    | .ok keys => Printed.all (.line "" :: .line (rowText keys) :: trace.map (row keys))

/-! ## Replies -/

def yesNo (b : Bool) : String := if b then "yes" else "no"

/-- The summary of a reply. -/
def summary (r : Reply) : Printed :=
  .all [
    valueLine "Root" r.root,
    valueLine "Solution" r.solution,
    match r.converged with
      | some b => .line ("Converged: " ++ yesNo b)
      | none => .nothing,
    match r.iterationCount with
      | some n => .line ("Iterations: " ++ toString n)
      | none => .nothing,
    valueLine "Error estimate" r.error,
    if r.message.isPresent then .line ("Message: " ++ r.message.display) else .nothing,
    .all (r.warnings.map fun v => .line ("Warning: " ++ v.display)),
    table r.trace]

end FormulaDesk.CommandLine
