import FormulaDesk.CommandLine.Usage
import FormulaDesk.Json.Reader
import FormulaDesk.Method.Catalog

/-!
# Commands

The commands that can be given, with the options of each and those common to all. A parameter is a
name and a value with an equals sign between them; the value is read as JSON where it is JSON, and is
a text otherwise.
-/

namespace FormulaDesk.CommandLine

def programName : String := "metodos"

def version : String := "1.0.0"

/-! ## Values of options -/

/-- A parameter: the name without white space around it, and the value. -/
def parameter? (text : String) : Option (String × Json) :=
  match splitEquals text.toList with
  | ([], _) => none
  | (_, none) => none
  | (name, some raw) =>
    some (String.ofList (Text.stripBlank name),
      (Json.ofChars? raw).getD (.str (String.ofList raw)))

def parameterComplaint (text : String) : Option String :=
  if (parameter? text).isSome then none else some ("expected name=value, got '" ++ text ++ "'")

def realComplaint (text : String) : Option String :=
  if (Numeral.readFloat text).isSome then none
  else some ("invalid float value: " ++ Text.quoted text)

/-! ## Usages -/

inductive Format where
  | human
  | json
deriving DecidableEq, Repr, Inhabited

def helpOption : Opt := { names := ["-h", "--help"], takesValue := false, final := true }

def flag (name : String) : Opt := { names := [name], takesValue := false }

/-- The options that reach the service. -/
def serviceOptions : List Opt :=
  [{ names := ["--api-url"] }, { names := ["-t", "--timeout"], complaint := realComplaint }]

/-- Texts in the order of their characters. -/
def sorted (names : List String) : List String := names.mergeSort fun a b => decide (a ≤ b)

def usageOf (name : String) (options : List Opt) (slots : List Slot) : Usage :=
  { program := programName ++ " " ++ name, options := helpOption :: options, slots }

/-- The usage of each command. -/
def usages : List (String × Usage) :=
  [("convert", usageOf "convert" [flag "--check"] [{ name := "markup" }]),
    ("graph", usageOf "graph" [flag "--markup"] [{ name := "expression" }]),
    ("methods", usageOf "methods" [] []),
    ("solve", usageOf "solve"
      ([{ names := ["-e", "--equation"], excludes := ["-m"] },
        { names := ["-m", "--markup"], excludes := ["-e"] },
        { names := ["-g", "--g-function"] },
        { names := ["-p", "--param"], complaint := parameterComplaint },
        { names := ["--example"], complaint := notAmong (sorted ExampleSystem.names) }]
          ++ serviceOptions)
      [{ name := "slug", complaint := notAmong (sorted (Method.all.map (·.slug))) }]),
    ("health", usageOf "health" (flag "--local" :: serviceOptions) []),
    ("plot", usageOf "plot" [flag "--markup", { names := ["-o", "--output"] }]
      [{ name := "expression" }])]

/-- The usage of the program. -/
def mainUsage : Usage where
  program := programName
  options :=
    [helpOption, { names := ["-v", "--version"], takesValue := false, final := true },
      { names := ["--format"], complaint := notAmong ["json", "human"] },
      { names := ["--log-level"], complaint := notAmong ["DEBUG", "INFO", "WARNING", "ERROR"] },
      { names := ["--log-file"] }]
  slots := [{ name := "command", complaint := notAmong (usages.map (·.1)), takesRest := true }]

/-! ## Commands -/

/-- Where the service is, and how long to wait for it. -/
structure Reach where
  url : Option String := none
  timeout : Json := .null
deriving Inhabited

structure SolveArguments where
  slug : String
  equation : Option String := none
  markup : Option String := none
  gFunction : Option String := none
  parameters : Fields := []
  example? : Option String := none
  reach : Reach := {}
deriving Inhabited

inductive Command where
  | convert (markup : String) (check : Bool)
  | graph (expression : String) (isMarkup : Bool)
  | methods
  | solve (arguments : SolveArguments)
  | health (isLocal : Bool) (reach : Reach)
  | plot (expression : String) (isMarkup : Bool) (output : Option String)
deriving Inhabited

/-- A command with the options common to all. -/
structure Invocation where
  format : Format := .human
  logLevel : Option String := none
  logFile : Option String := none
  command : Command
deriving Inhabited

def reachOf (g : Given) : Reach where
  url := g.option? "--api-url"
  timeout := (((g.option? "-t").bind Numeral.readFloat).map Json.float).getD .null

def solveArguments (g : Given) : SolveArguments where
  slug := g.slot "slug"
  equation := g.option? "-e"
  markup := g.option? "-m"
  gFunction := g.option? "-g"
  parameters := (g.values "-p").filterMap parameter?
  example? := g.option? "--example"
  reach := reachOf g

/-- The command with a name, from what was given to it. -/
def commandOf (name : String) (g : Given) : Command :=
  match name with
  | "convert" => .convert (g.slot "markup") (g.has "--check")
  | "graph" => .graph (g.slot "expression") (g.has "--markup")
  | "solve" => .solve (solveArguments g)
  | "health" => .health (g.has "--local") (reachOf g)
  | "plot" => .plot (g.slot "expression") (g.has "--markup") (g.option? "-o")
  | _ => .methods

/-- Reads a command line. Surplus words are found last. -/
def Invocation.ofWords (words : List String) : Except Stop Invocation := do
  let common ← mainUsage.read words
  let name := common.slot "command"
  let own ← ((usages.lookup name).getD mainUsage).read common.rest
  match common.surplus ++ own.surplus with
  | [] =>
    return {
      format := if common.option? "--format" = some "json" then .json else .human
      logLevel := common.option? "--log-level"
      logFile := common.option? "--log-file"
      command := commandOf name own }
  | surplus => mainUsage.misuse ("unrecognized arguments: " ++ " ".intercalate surplus)

end FormulaDesk.CommandLine
