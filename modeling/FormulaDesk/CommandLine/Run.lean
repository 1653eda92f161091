import FormulaDesk.CommandLine.Command
import FormulaDesk.CommandLine.Summary
import FormulaDesk.Graph.Widget
import FormulaDesk.Log.Setup
import FormulaDesk.Plot.Preview
import FormulaDesk.Service.Client

/-!
# Running a command

What a command line shows, sends, writes and ends with. A command that works ends with zero, one
that reports a problem with one, a misused command line with two. A failure that nobody reports ends
the run as it is; what was shown before it stays.
-/

namespace FormulaDesk.CommandLine

/-! ## What a run leaves -/

/-- How a run ends. -/
inductive Ending where
  | exit (code : Nat)
  /-- The command line was misused. -/
  | misused (message : String)
  | failed (failure : Failure)
deriving Inhabited

structure Run where
  shown : String := ""
  /-- What the log shows on the terminal. -/
  logged : String := ""
  ending : Ending
  records : List Record := []
  sent : Option Sent := none
  folder : Folder

/-- What surrounds a run: the algebra engine, how addresses are read, the folder, the service by the
addresses that it is asked for, a name for a temporary image, and the time for the log. -/
structure Surroundings where
  engine : Expression.Engine
  readBase : BaseReader
  folder : Folder
  service : String → Outcome
  freshName : String
  time : String := ""

/-- Exit codes by whether all went well. -/
def exitCode (ok : Bool) : Ending := .exit (if ok then 0 else 1)

def lineText (s : String) : String := s ++ "\n"

def indented (v : Json) : String := lineText (v.render .indented)

/-! ## Conversions and drawings -/

/-- The verdict of the local check on an expression, with its text. -/
def verdict (engine : Expression.Engine) (expression : String) :
    Except Failure (Option String) :=
  match Expression.check engine expression with
  | .ok _ => .ok none
  | .error (.raised failure) => .error failure
  | .error refusal => .ok (some (refusal.message expression))

def verdictFields (problem : Option String) : Fields :=
  match problem with
  | none => [("valid", .bool true)]
  | some message => ("valid", .bool false) :: (if message.isEmpty then [] else [("error", .str message)])

def verdictText (problem : Option String) : String :=
  lineText (match problem with
    | none => "Valid: yes"
    | some message => "Valid: no (" ++ message ++ ")")

def conversionText (c : Conversion) : String :=
  lineText ("Evaluable: " ++ c.evaluable) ++ lineText ("Graphing:  " ++ c.graphing)

def runConvert (s : Surroundings) (format : Format) (markup : String) (check : Bool) : Run :=
  let converted := Conversion.ofMarkup markup
  let c := converted.value
  let problem : Except Failure (Option (Option String)) :=
    if check then (verdict s.engine c.evaluable).map some else .ok none
  match problem with
  -- the check runs before anything is printed, so a fault leaves the terminal empty
  | .error failure =>
    { ending := .failed failure, records := converted.records, folder := s.folder }
  | .ok problem =>
    let shown := match format with
      | .json => indented (.obj (c.fields ++ ((problem.map verdictFields).getD [])))
      | .human => conversionText c ++ ((problem.map verdictText).getD "")
    { shown, ending := exitCode (problem.all Option.isNone), records := converted.records
      folder := s.folder }

/-- The evaluable expression in an argument. -/
def evaluableOf (argument : String) (isMarkup : Bool) : Logged String :=
  if isMarkup then Conversion.evaluableOf argument else return argument

def graphText (r : Graph.Report) : String :=
  if r.ok then lineText ("\n".intercalate (r.commands.getD []))
  else lineText ("Error: " ++ r.error.getD "None")

def runGraph (s : Surroundings) (format : Format) (expression : String) (isMarkup : Bool) : Run :=
  let drawn := (evaluableOf expression isMarkup).bind Graph.preview
  let r := drawn.value
  { shown := match format with
      | .json => indented (.obj r.fields)
      | .human => graphText r
    ending := exitCode r.ok, records := drawn.records, folder := s.folder }

def plotText (r : Plot.Report) : String :=
  if r.ok then lineText ("Plot saved to: " ++ r.path.getD "None")
  else lineText ("Error: " ++ r.error.getD "None")

def runPlot (s : Surroundings) (format : Format) (expression : String) (isMarkup : Bool)
    (output : Option String) : Run :=
  let drawn := (evaluableOf expression isMarkup).bind fun e =>
    Plot.draw s.engine s.folder e output s.freshName {}
  match drawn.value with
  | (.error failure, folder) =>
    { ending := .failed failure, records := drawn.records, folder }
  | (.ok r, folder) =>
    { shown := match format with
        | .json => indented (.obj r.fields)
        | .human => plotText r
      ending := exitCode r.ok, records := drawn.records, folder }

/-! ## The catalog -/

/-- A text with blanks after it up to a width. -/
def padded (width : Nat) (s : String) : String :=
  s ++ String.ofList (List.replicate (width - s.length) ' ')

def methodFields (m : Method) : Json :=
  .obj [("slug", .str m.slug), ("label", .str m.label), ("description", .str m.description),
    ("path", .str m.path), ("kind", .str m.kind.name), ("fields", .arr (m.fieldNames.map .str))]

def methodText (m : Method) : String :=
  lineText (padded 16 m.slug ++ " " ++ padded 16 m.label ++ " " ++ m.description)
    ++ lineText (padded 16 "" ++ " fields: " ++ ", ".intercalate m.fieldNames)

def catalogText : String :=
  String.join (Method.all.map methodText) ++ lineText ""
    ++ lineText ("Example systems: " ++ ", ".intercalate ExampleSystem.names)

def runMethods (s : Surroundings) (format : Format) : Run :=
  { shown := match format with
      | .json => indented (.arr (Method.all.map methodFields))
      | .human => catalogText
    ending := .exit 0, folder := s.folder }

/-! ## Solving -/

/-- The markup of an option in the evaluable dialect, if the option is given. -/
def converted? (markup : Option String) : Logged (Option String) :=
  match markup with
  | some markup => (Conversion.evaluableOf markup).bind fun e => return some e
  | none => return none

/-- The fields of a solve that names no example: the parameters, over which the equation and the
iteration map have precedence. -/
def givenFields (a : SolveArguments) : Logged Fields := do
  let fields := Fields.update [] a.parameters
  let fromMarkup ← converted? a.markup
  let fields := match fromMarkup, a.equation with
    -- set last, over a parameter of the same name; markup goes before an expression
    | some e, _ => fields.set "equation" (.str e)
    | none, some e => fields.set "equation" (.str e)
    | none, none => fields
  let gFunction ← converted? a.gFunction
  return match gFunction with
    | some g => fields.set "g_function" (.str g)
    | none => fields

/-- The example that is named; an empty name names none. -/
def example? (a : SolveArguments) : Option String := a.example?.filter fun name => !name.isEmpty

/-- The request of a solve. An example takes the parameters over its own fields; without one an
equation is needed where the method solves equations. -/
def solveRequest (a : SolveArguments) : Logged (Except Failure Request) :=
  match Method.ofSlug a.slug, example? a with
  -- the slug is checked before any markup is converted
  | .error problem, _ => return .error (.invalid problem)
  | .ok _, some name =>
    return (Request.ofExample a.slug name).bind fun r =>
      Request.build a.slug (r.body.update a.parameters)
  | .ok m, none => do
    let fields ← givenFields a
    if m.kind = .equation ∧ !((fields.get? "equation").getD .null).isPresent then
      return .error (.invalid (.missingEquation a.slug))
    return Request.build a.slug fields

/-- A client for the service that is named. -/
def Reach.client (read : BaseReader) (r : Reach) : Except Failure Client :=
  Client.connect read r.url r.timeout

/-- What the service answers to a request for a path. -/
def answerOf (s : Surroundings) (c : Client) (path : String) : Outcome :=
  s.service (c.base.join path)

/-- Sends the request of a solve. -/
def solveExchange (s : Surroundings) (a : SolveArguments) : Exchange Reply :=
  let request := solveRequest a
  let exchanged : Exchange Reply :=
    match request.value with
    | .error failure => .refused failure
    | .ok r =>
      match a.reach.client s.readBase with
      | .error failure => .refused failure
      | .ok c => c.solve a.slug r (answerOf s c r.method.path)
  { exchanged with records := request.records ++ exchanged.records }

/-- A reply as the format shows it. -/
def replyPrinted (format : Format) (r : Reply) : Printed :=
  match format with
  | .json => .line ((Json.obj r.raw).render .indented)
  | .human => summary r

def runSolve (s : Surroundings) (format : Format) (a : SolveArguments) : Run :=
  let e := solveExchange s a
  let (shown, ending) : String × Ending :=
    match e.result with
    | .error failure =>
      -- any other failure is not the user's, and ends the run as it is
      if failure.isReported then (lineText ("Error: " ++ failure.described), .exit 1)
      else ("", .failed failure)
    | .ok r =>
      let printed := replyPrinted format r
      (printed.text, match printed.fault with
        | some fault => .failed (.value fault)
        | none => .exit 0)
  { shown, ending, records := e.records, sent := e.sent, folder := s.folder }

/-! ## Health -/

/-- The outcome of one local check. -/
structure LocalCheck where
  name : String
  passed : Bool
  info : String

def trialMarkup : String := "\\sqrt\x7bx\x7d+x^\x7b2\x7d"

def trialExpression : String := "x**2-4"

/-- The local parts that a solve needs: the converter, the algebra and the plotting stack. -/
def localChecks (engine : Expression.Engine) : Logged (List LocalCheck) := do
  let e ← Conversion.evaluableOf trialMarkup
  let algebra : LocalCheck :=
    match Expression.check engine trialExpression with
    | .ok p => ⟨"SymPy", true, p.written⟩
    | .error refusal => ⟨"SymPy", false, refusal.message trialExpression⟩
  return [⟨"Converter", e == "sqrt(x)+x**(2)", e⟩, algebra,
    ⟨"Plotting", true, "matplotlib V, numpy V"⟩]

def LocalCheck.text (c : LocalCheck) : String :=
  lineText ((if c.passed then "[OK] " else "[FAIL] ") ++ c.name ++ ": " ++ c.info)

/-- The health of the service as a line or an object. -/
def healthText (format : Format) (fields : Fields) : String :=
  match format with
  | .json => indented (.obj fields)
  | .human =>
    lineText ("[OK] Service: "
      ++ ", ".intercalate (fields.map fun (k, v) => k ++ ": " ++ v.display))

/-- Whether a health command reports the failure; a request that is not even built it does not. -/
def reportsHealth (failure : Failure) : Bool :=
  match failure with
  | .invalid _ => false
  | failure => failure.isReported

def runHealth (s : Surroundings) (format : Format) (isLocal : Bool) (reach : Reach) : Run :=
  let checked := localChecks s.engine
  let opening := lineText "Running health check..." ++ String.join (checked.value.map (·.text))
  let ok := checked.value.all (·.passed)
  if isLocal then
    { shown := opening, ending := exitCode ok, records := checked.records, folder := s.folder }
  else
    let e : Exchange Fields := match reach.client s.readBase with
      | .error failure => .refused failure
      | .ok c => c.health (answerOf s c "/health")
    let (shown, ending) : String × Ending := match e.result with
      | .ok fields => (healthText format fields, exitCode ok)
      | .error failure =>
        if reportsHealth failure then
          (lineText ("[FAIL] Service: " ++ failure.described), .exit 1)
        else ("", .failed failure)
    { shown := opening ++ shown, ending, records := checked.records ++ e.records, sent := e.sent
      folder := s.folder }

/-! ## All commands -/

def runCommand (s : Surroundings) (format : Format) (c : Command) : Run :=
  match c with
  | .convert markup check => runConvert s format markup check
  | .graph expression isMarkup => runGraph s format expression isMarkup
  | .methods => runMethods s format
  | .solve arguments => runSolve s format arguments
  | .health isLocal reach => runHealth s format isLocal reach
  | .plot expression isMarkup output => runPlot s format expression isMarkup output

/-- Sets logging up, runs a command, and writes its records to the log. -/
def runInvocation (s : Surroundings) (i : Invocation) : Run :=
  match Log.Setup.configure { folder := s.folder } i.logLevel i.logFile with
  | (.error failure, setup) => { ending := .failed failure, folder := setup.folder }
  | (.ok (), setup) =>
    let r := runCommand { s with folder := setup.folder } i.format i.command
    -- the records of a command go to the log whether or not it failed
    let (logged, written) :=
      Log.Setup.emitRecords { setup with folder := r.folder } s.time r.records
    { r with logged, folder := written.folder }

/-- Runs a command line. -/
def run (s : Surroundings) (words : List String) : Run :=
  match Invocation.ofWords words with
  | .ok i => runInvocation s i
  | .error (.misuse program message) =>
    { ending := .misused (program ++ ": error: " ++ message), folder := s.folder }
  | .error (.final key) =>
    { shown := if key = "-v" then lineText (programName ++ " " ++ version) else ""
      ending := .exit 0, folder := s.folder }

end FormulaDesk.CommandLine
