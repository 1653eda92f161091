import FormulaDesk.Json.Printer
import FormulaDesk.Log.Record

/-!
# Log lines

A line names the level and the logger, gives the message and, after it, the context that the record
carries, always in the same order. A failure stands on a line of its own.
-/

namespace FormulaDesk.Log

/-- The context that lines show, in order. -/
def contextFields : List String := ["method", "path", "status", "elapsed_ms"]

/-- The name of a level; a level between the named ones has only its number. -/
def levelName (level : Int) : String :=
  ([(50, "CRITICAL"), (40, "ERROR"), (30, "WARNING"), (20, "INFO"), (10, "DEBUG"),
    (0, "NOTSET")].lookup level).getD ("Level " ++ toString level)

structure Line where
  logger : String
  level : Int
  message : String
  context : Fields := []
  failure : Option String := none

namespace Line

/-- The context of a line: what is known, each with its name. -/
def contextText (context : Fields) : String :=
  String.join (contextFields.filterMap fun name =>
    match context.get? name with
    | none => none
    | some .null => none
    | some v => some (" " ++ name ++ "=" ++ v.display))

/-- A line without its time. -/
def text (l : Line) : String :=
  "[" ++ levelName l.level ++ "] " ++ l.logger ++ ": " ++ l.message ++ contextText l.context
    ++ ((l.failure.map ("\n" ++ ·)).getD "")

/-- A line as it is written. -/
def stamped (time : String) (l : Line) : String := time ++ " " ++ l.text

/-- The line of a record; `elapsed` is the time that a timed record measured. -/
def ofRecord (r : Record) (elapsed : Option Nat) : Line where
  logger := loggerName r.source
  level := r.level.number
  message := r.message
  context :=
    (r.method.map fun m => ("method", Json.str m)).toList
      ++ (r.path.map fun p => ("path", Json.str p)).toList
      ++ (r.status.map fun s => ("status", Json.int s)).toList
      ++ (if r.timed then (elapsed.map fun n => ("elapsed_ms", Json.int n)).toList else [])

end Line

end FormulaDesk.Log
