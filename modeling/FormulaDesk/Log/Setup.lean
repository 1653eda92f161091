import FormulaDesk.Folder
import FormulaDesk.Log.Format

/-!
# Setting up logging

One level counts for all parts of the program, another for the layer below the client, which is
heard only when debugging. Lines go to the terminal and, if asked for, to the end of a file. Before
any setup, and while no level is set, warnings and above are heard; before any setup they are shown
bare.
-/

namespace FormulaDesk.Log

/-- Where lines go. -/
inductive Handler where
  | console
  /-- A file of the folder, or one elsewhere that has no name here. -/
  | file (name : Option String)
deriving DecidableEq, Repr

structure Setup where
  /-- Zero if no level is set. -/
  level : Int := 0
  transportLevel : Int := 0
  handlers : List Handler := []
  folder : Folder

namespace Setup

/-- The level that counts while none is set. -/
def usualLevel : Int := 30

def usualLevelName : String := "WARNING"

/-- A letter in upper case, as far as level names need it. -/
def upperChar (c : Char) : Char :=
  if c = 'ı' then 'I' else if c = 'ſ' then 'S' else c.toUpper

/-- The level with a name, in any case; an unknown name is the usual level. -/
def levelOf (name : String) : Int :=
  ([("CRITICAL", 50), ("FATAL", 50), ("ERROR", 40), ("WARNING", 30), ("WARN", 30), ("INFO", 20),
    ("DEBUG", 10), ("NOTSET", 0)].lookup (String.ofList (name.toList.map upperChar))).getD usualLevel

/-- The lowest level that is heard. -/
def threshold (s : Setup) : Int := if s.level = 0 then usualLevel else s.level

/-- Opens a log file: an existing one is kept. -/
def openFile (s : Setup) (path : String) : Except Failure Setup :=
  match s.folder.locate path true with
  | .file name =>
    .ok { s with
      folder := s.folder.append name "", handlers := s.handlers ++ [.file (some name)] }
  | .elsewhere => .ok { s with handlers := s.handlers ++ [.file none] }
  | .self => .error (.isDirectory path)
  | .missing => .error (.missingFile path)

/-- Sets the level and where lines go. A file that cannot be opened leaves the terminal, and the
layer below as it was. -/
def configure (s : Setup) (level file : Option String) : Except Failure Unit × Setup :=
  let level := level.getD ""
  let number := levelOf (if level.isEmpty then usualLevelName else level)
  let console := { s with level := number, handlers := [.console] }
  let opened : Except Failure Setup := match file with
    | none => .ok console
    | some path => if path.isEmpty then .ok console else console.openFile path
  match opened with
  | .error failure => (.error failure, console)
  | .ok ready =>
    (.ok (), { ready with transportLevel := if number ≤ 10 then 10 else usualLevel })

/-- Writes a finished line to the files. -/
def writeFiles (s : Setup) (line : String) : Setup :=
  { s with folder := s.handlers.foldl (fun folder handler =>
      match handler with
      | .file (some name) => folder.append name (line ++ "\n")
      | _ => folder) s.folder }

/-- Takes a line, given its time: what the terminal shows, and the setup after it. -/
def emit (s : Setup) (time : String) (l : Line) : String × Setup :=
  if l.level < s.threshold then ("", s)
  else
    let line := if time.isEmpty then l.text else l.stamped time
    if s.handlers.isEmpty then (if l.level < usualLevel then "" else l.message ++ "\n", s)
    else
      (if s.handlers.contains .console then line ++ "\n" else "", s.writeFiles line)

/-- Takes the records of an operation, none of them with a measured time. -/
def emitRecords (s : Setup) (time : String) (records : List Record) : String × Setup :=
  records.foldl (fun (shown, s) r =>
    let (more, s) := s.emit time (.ofRecord r none)
    (shown ++ more, s)) ("", s)

end Setup

end FormulaDesk.Log
