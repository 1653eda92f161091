import FormulaDesk.Dialect.Conversion
import FormulaDesk.Graph.Commands
import FormulaDesk.Graph.Report
import FormulaDesk.Log.Record

/-!
# The graph widget

A widget executes commands on the backend it is attached to. It is loading until the backend
reports that it is ready; a drawing asked for meanwhile is remembered, the last one only, and drawn
then. A backend records what it executes and may refuse commands or the reset before them.

`Board` is a widget together with the backends it can be attached to.
-/

namespace FormulaDesk.Graph

/-! ## Backends -/

/-- What a backend refuses, and with which text. -/
structure Refusals where
  reset : Option String := none
  command : String → Option String := fun _ => none

structure Backend where
  refusals : Refusals := {}
  resets : Nat := 0
  /-- The commands executed since the last reset. -/
  commands : List String := []

namespace Backend

/-- Executes commands up to the first one that is refused. -/
def execute (b : Backend) : List String → Backend × Option String
  | [] => (b, none)
  | command :: rest =>
    match b.refusals.command command with
    | some cause => (b, some cause)
    | none => execute { b with commands := b.commands ++ [command] } rest

/-- Starts from an empty drawing and executes commands. A refused reset changes nothing. -/
def draw (b : Backend) (commands : List String) : Backend × Option String :=
  match b.refusals.reset with
  | some cause => (b, some cause)
  -- the old drawing is gone even if the first command is refused
  | none => { b with resets := b.resets + 1, commands := [] }.execute commands

def script (b : Backend) : String := "\n".intercalate b.commands

end Backend

/-! ## The board -/

structure Board (ι : Type) where
  backends : ι → Backend
  attached : Option ι := none
  ready : Bool := false
  pending : Option String := none

namespace Board

variable {ι : Type} [DecidableEq ι]

def note (level : Level) (message : String) (withFailure : Bool := false) : Logged Unit :=
  .note { level, source := "graph", message, withFailure }

/-- Attaches a backend, which is loading at first; an attached widget keeps the one it has. -/
def attach (b : Board ι) (i : ι) : Logged (Board ι) :=
  match b.attached with
  | some _ => do
    note .debug "Graph widget already initialized"
    return b
  | none => return { b with attached := some i, ready := false }

/-- Detaches the backend and forgets what was pending. -/
def dispose (b : Board ι) : Board ι :=
  { b with attached := none, ready := false, pending := none }

/-- Puts a backend back in its place. -/
def replace (b : Board ι) (i : ι) (backend : Backend) : Board ι :=
  { b with backends := fun j => if j = i then backend else b.backends j }

/-- Draws on an attached backend that is ready. -/
def drawOn (b : Board ι) (i : ι) (equation : String) : Logged (Report × Board ι) := do
  let graphing ← Conversion.graphingOf equation
  let plan := commands graphing
  let (backend, refusal) := (b.backends i).draw plan
  match refusal with
  | some cause =>
    note .error ("Graph widget rejected " ++ Text.quoted graphing ++ ": " ++ cause) true
    -- the backend keeps what it executed before the refusal
    return (.refused graphing cause, b.replace i backend)
  | none =>
    note .debug ("Plotted " ++ Text.quoted graphing)
    return (.drawn graphing plan, b.replace i backend)

/-- Draws an evaluable expression, now or when the widget is ready. -/
def plot (b : Board ι) (equation : String) : Logged (Report × Board ι) :=
  match b.attached with
  | none => return (.unattached, b)
  | some i =>
    -- an empty expression is told apart before the loading state, and is never remembered
    if equation.isEmpty then return (.blank, b)
    else if b.ready then b.drawOn i equation
    else do
      note .debug ("Graph widget not ready yet, deferring " ++ Text.quoted equation)
      return (.deferred equation, { b with pending := some equation })

/-- The widget has loaded; draws what is pending. -/
def markReady (b : Board ι) : Logged (Option Report × Board ι) :=
  match b.attached with
  | none => do
    note .warning "mark_ready() called before initialize()"
    return (none, b)
  | some _ =>
    match b.pending with
    | none => return (none, { b with ready := true })
    | some equation => do
      let (report, drawn) ← { b with ready := true, pending := none }.plot equation
      return (some report, drawn)

end Board

/-- What drawing an expression would execute. -/
def preview (equation : String) : Logged Report := do
  let board : Board Unit := { backends := fun _ => {}, attached := some (), ready := true }
  return (← board.plot equation).1

end FormulaDesk.Graph
