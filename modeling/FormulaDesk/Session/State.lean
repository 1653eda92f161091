import FormulaDesk.Graph.Widget
import FormulaDesk.Service.Client
import FormulaDesk.Session.Form

/-!
# Form sessions

A session is one method form with its outcome. The user edits the form, changes tabs and submits.
An equation that is edited is converted and, if a graph widget is attached, drawn.

`Session.perform` runs one operation of the user. `Session.start` and `Session.finish` are the two
steps of a submission: between them the session is loading and no further submission starts. A
failure leaves the user on the input tab with a message; the results tab is reached only with a
result.
-/

namespace FormulaDesk

/-- The tabs of a form. -/
inductive Tab where
  | input
  | results
  | graph
  | theory
deriving DecidableEq, Repr

namespace Tab

def all : List Tab := [.input, .results, .graph, .theory]

def name : Tab → String
  | .input => "input"
  | .results => "results"
  | .graph => "graph"
  | .theory => "theory"

def ofName? (name : String) : Option Tab := all.find? (·.name == name)

end Tab

structure Session where
  method : Method
  client : Client
  board : Option (Graph.Board Unit) := none
  form : Fields
  /-- The markup last typed into each expression field. -/
  markup : Fields := []
  loading : Bool := false
  result : Option Reply := none
  error : Option String := none
  activeTab : Tab := .input

namespace Session

/-- A new session for the method with the given slug. -/
def «open» (slug : String) (client : Client) (board : Option (Graph.Board Unit)) :
    Except Failure Session := do
  let method ← (Method.ofSlug slug).mapError .invalid
  return { method, client, board, form := Form.initial method }

def canSubmit (s : Session) : Bool := !s.loading

/-! ## Editing -/

/-- What may stand for markup: a text, or a value that is taken for one and found to have no
characters. A list or an object is no markup. -/
structure Typed where
  value : Json
  single : value.kind ≠ .list ∧ value.kind ≠ .object

namespace Typed

def str (s : String) : Typed := ⟨.str s, nofun, nofun⟩

instance : Inhabited Typed := ⟨.str ""⟩

/-- A value as markup, unless it is a list or an object. -/
def ofJson? (v : Json) : Option Typed :=
  if h : v.kind ≠ .list ∧ v.kind ≠ .object then some ⟨v, h⟩ else none

end Typed

/-- The text of typed markup; nothing and other empty values are empty text. -/
def markupText (v : Json) : Except ValueFault String :=
  if !v.isPresent then .ok ""
  else match v with
    | .str s => .ok s
    | v => .error (.noSize v.kind)

/-- The name of an expression field of the form. -/
def expressionField (s : Session) (field : Json) : Except Failure String :=
  match field with
  | .arr _ => .error (.value (.unhashable .list))
  | .obj _ => .error (.value (.unhashable .object))
  | field =>
    let name := field.display
    if Form.isExpression name && s.form.contains name then .ok name
    else .error (.invalid (.noExpressionField s.method.slug name))

/-- Draws an equation if there is a widget. -/
def redraw (s : Session) (equation : String) : Logged Session :=
  match s.board with
  | none => return s
  | some board => do
    let (_, drawn) ← board.plot equation
    return { s with board := some drawn }

/-- Stores markup and its conversion. The main equation is redrawn. -/
def setExpression (s : Session) (markup : Typed) (field : Json) :
    Logged (Except Failure String × Session) :=
  match s.expressionField field with
  | .error failure => return (.error failure, s)
  | .ok name =>
    match markupText markup.value with
    | .error fault => return (.error (.value fault), s)
    | .ok text => do
      -- nothing is stored before this point, so a refused call leaves the session alone
      let expression ← Conversion.evaluableOf text
      let stored := { s with
        markup := s.markup.set name markup.value, form := s.form.set name (.str expression) }
      -- the iteration map is stored like the equation but never drawn
      if name = "equation" then
        return (.ok expression, ← stored.redraw expression)
      else return (.ok expression, stored)

/-- Sets one parameter. -/
def updateOne (s : Session) (field : String) (v : Json) : Except Failure Session :=
  if !s.form.contains field || (s.method.kind == .system && Form.isSystemPart field) then
    .error (.invalid (.noField s.method.slug field))
  else
    match Form.parameter field v with
    | .ok stored => .ok { s with form := s.form.set field stored }
    | .error fault => .error (.value fault)

/-- Sets parameters in turn, up to the first that fails. -/
def update (s : Session) : Fields → Except Failure Unit × Session
  | [] => (.ok (), s)
  | (field, v) :: rest =>
    match s.updateOne field v with
    -- the fields before this one stay set
    | .error failure => (.error failure, s)
    | .ok changed => changed.update rest

/-- Takes a changed form, or keeps the session as it is. -/
def withForm (s : Session) (form : Except Failure Fields) : Except Failure Unit × Session :=
  match form with
  | .ok form => (.ok (), { s with form })
  | .error failure => (.error failure, s)

/-- Changes the number of unknowns; the system becomes zeros. -/
def resize (s : Session) (size : Json) : Except Failure Unit × Session :=
  s.withForm do
    if s.method.kind ≠ .system then throw (.invalid (.noMatrix s.method.slug))
    return Form.resized s.method s.form (← Form.sizeOf size)

def setCell (s : Session) (row column v : Json) : Except Failure Unit × Session :=
  s.withForm ((Form.setCell s.form row column v).mapError .value)

def setRhs (s : Session) (index v : Json) : Except Failure Unit × Session :=
  s.withForm ((Form.setEntry s.form "b" index v).mapError .value)

def setGuess (s : Session) (index v : Json) : Except Failure Unit × Session :=
  s.withForm ((Form.setEntry s.form (Form.guessField s.method) index v).mapError .value)

/-- The example system with a name that may be any value. -/
def exampleOf (name : Json) : Except Failure ExampleSystem :=
  match name with
  | .arr _ => .error (.value (.unhashable .list))
  | .obj _ => .error (.value (.unhashable .object))
  | .str s =>
    match ExampleSystem.ofName? s with
    | some system => .ok system
    | none => .error (.invalid (.unknownExample s))
  | v => .error (.invalid (.unknownExample v.display))

/-- Loads an example system; the tolerance and the iteration cap stay. -/
def loadExample (s : Session) (name : Json) : Except Failure Unit × Session :=
  s.withForm do
    if s.method.kind ≠ .system then throw (.invalid (.noMatrix s.method.slug))
    return Form.withExample s.method s.form (← exampleOf name)

/-- Changes the tab; the results tab needs a result. -/
def selectTab (s : Session) (tab : Json) : Except Failure Bool × Session :=
  let found := match tab with
    | .str name => Tab.ofName? name
    | _ => none
  match found with
  | none => (.error (.invalid (.unknownTab tab.display)), s)
  | some tab =>
    -- no failure: the caller is told that the tab did not change
    if tab = .results ∧ s.result.isNone then (.ok false, s)
    else (.ok true, { s with activeTab := tab })

/-! ## Operations -/

/-- What a user does between submissions. -/
inductive Operation where
  | setExpression (markup : Typed) (field : Json)
  | update (fields : Fields)
  | resize (size : Json)
  | setCell (row column value : Json)
  | setRhs (index value : Json)
  | setGuess (index value : Json)
  | loadExample (name : Json)
  | selectTab (tab : Json)
deriving Inhabited

/-- Runs an operation. The value is what it returns, nothing for most. -/
def perform (s : Session) : Operation → Logged (Except Failure Json × Session)
  | .setExpression markup field => do
    let (result, after) ← s.setExpression markup field
    return (result.map .str, after)
  | .update fields => return quiet (s.update fields)
  | .resize size => return quiet (s.resize size)
  | .setCell row column v => return quiet (s.setCell row column v)
  | .setRhs index v => return quiet (s.setRhs index v)
  | .setGuess index v => return quiet (s.setGuess index v)
  | .loadExample name => return quiet (s.loadExample name)
  | .selectTab tab =>
    let (result, after) := s.selectTab tab
    return (result.map .bool, after)
where
  quiet (outcome : Except Failure Unit × Session) : Except Failure Json × Session :=
    (outcome.1.map fun _ => .null, outcome.2)

/-! ## Submitting -/

/-- The first step of a submission: only one may be outstanding. -/
def start (s : Session) : Except Failure Session :=
  if s.loading then
    .error (.inProgress s!"A {s.method.slug} request is already in progress")
  else .ok { s with loading := true, error := none, result := none }

/-- The call that a started submission makes: its body is the form as it stands. -/
def call (s : Session) (outcome : Outcome) : Exchange Reply :=
  match Request.build s.method.slug s.form with
  | .error failure => .refused failure
  | .ok request => s.client.solve s.method.slug request outcome

/-- The last step of a submission: a result on the results tab, or a message on the input tab. -/
def finish (s : Session) (result : Except Failure Reply) : Logged (Option Reply × Session) :=
  match result with
  | .ok reply =>
    return (some reply,
      { s with loading := false, result := some reply, activeTab := .results })
  | .error failure => do
    -- whatever the failure is, it becomes a message and the session can submit again
    let text := failure.described
    .note { level := .info, source := "session", message :=
      s!"Solve {s.method.slug} failed: {text}" }
    return (none, { s with loading := false, error := some text, activeTab := .input })

/-- A whole submission: what it returns, the session after it, and what was sent. -/
structure Submission where
  result : Except Failure (Option Reply)
  session : Session
  records : List Record := []
  sent : Option Sent := none

/-- Submits the form, given what comes back. -/
def submit (s : Session) (outcome : Outcome) : Submission :=
  match s.start with
  -- the submission that is out keeps its state
  | .error failure => { result := .error failure, session := s }
  | .ok started =>
    let exchange := started.call outcome
    let finished := started.finish exchange.result
    { result := .ok finished.value.1, session := finished.value.2,
      records := exchange.records ++ finished.records, sent := exchange.sent }

end Session

end FormulaDesk
