import FormulaDesk.Json.Reader
import FormulaDesk.Log.Record
import FormulaDesk.Method.Request
import FormulaDesk.Service.Detail
import FormulaDesk.Service.Reply

/-!
# The client of the solver service

A request is sent once and never again. What comes back is an answer with a status and some bytes,
or a failure of the layer below. `Client.receive` classifies it: an error status with a JSON body is
a remote failure, an error status without one and every transport fault is a transport failure, and
a good status without a JSON body is a failure nobody described. How addresses are read and put
together is left to the layer below.
-/

namespace FormulaDesk

/-- A request as it leaves. -/
structure Sent where
  verb : String
  url : String
  timeout : Json
  body : String

/-- What the layer below gives back. -/
inductive Outcome where
  | answered (status : Int) (body : List Nat)
  | failed (failure : Failure)
deriving Inhabited

/-- The result of one call, with its records and what was sent. -/
structure Exchange (α : Type) where
  result : Except Failure α
  records : List Record := []
  sent : Option Sent := none

namespace Exchange

variable {α : Type}

/-- A call that failed before anything was sent. -/
def refused (failure : Failure) : Exchange α := { result := .error failure }

end Exchange

/-- A step that may fail and leaves records. -/
abbrev Step := ExceptT Failure Logged

/-- The address of a service, as far as the client uses it. -/
structure Base where
  /-- The address of a path under the service. -/
  join : String → String

/-- How the layer below reads the address of a service. A text that is no address is a failure. -/
abbrev BaseReader := String → Except Failure Base

structure Client where
  base : Base
  timeout : Json

namespace Client

def defaultUrl : String := "http://localhost:8000"

/-- In seconds. -/
def defaultTimeout : Float := 30

/-- A client for a service; nothing stands for the usual service and the usual timeout. -/
def connect (read : BaseReader) (base : Option String) (timeout : Json) :
    Except Failure Client := do
  let text := base.getD ""
  let base ← read (if text.isEmpty then defaultUrl else text)
  return ⟨base, if timeout.isNull then .float defaultTimeout else timeout⟩

def note (level : Level) (message : String) (method path : Option String) (status : Option Int)
    (timed : Bool) : Step Unit :=
  ExceptT.lift (.note { level, source := "client", message, method, path, status, timed })

/-- A record without context. -/
def notePlain (level : Level) (message : String) : Step Unit := note level message none none none false

/-- The request for a path. A body has to be free of infinities and `nan`. -/
def prepare (c : Client) (verb path : String) (body : Option Fields) : Except Failure Sent :=
  match body with
  | none => .ok ⟨verb, c.base.join path, c.timeout, ""⟩
  | some fields =>
    let v := Json.obj fields
    if v.isFinite then .ok ⟨verb, c.base.join path, c.timeout, v.render .compact⟩
    else .error (.value .notCompliant)

/-- The value in a body, unless there is none or it is `null`. -/
def valueOf (bytes : List Nat) : Option Json :=
  (Json.ofBytes? bytes).filter fun v => !v.isNull

def isErrorStatus (status : Int) : Bool := decide (400 ≤ status ∧ status ≤ 599)

/-- The detail of an error body, if it has one. -/
def detail? (v : Json) : Option Json :=
  match v with
  | .obj fields => Fields.get? fields "detail"
  | _ => none

/-- The failure that an error body stands for. -/
def remoteFailure (status : Option Int) (v detail : Json) : Failure :=
  match Detail.text detail with
  | .ok message => .remote message status v
  | .error fault => .value fault

/-- The failure that an error status stands for. -/
def errorFailure (status : Int) (v : Option Json) : Failure :=
  match v with
  -- no body that could be read: as if no answer had arrived
  | none => .transport s!"Request failed with status code {status}"
  | some v =>
    match detail? v with
    | some detail => remoteFailure (some status) v detail
    | none => .remote (v.render .spaced) (some status) v

/-- The text of a transport fault, or its name if it has none. -/
def transportText (fault : HttpFault) (message : String) : String :=
  if message.isEmpty then fault.name else message

/-- The value that an outcome brings. -/
def receive (verb path : String) (outcome : Outcome) : Step Json :=
  match outcome with
  | .failed (.http fault message) => do
    -- only faults by which no answer arrived are noted; all others pass unchanged
    if fault.transport then
      note .error s!"Transport error on {verb}: {message}" none (some path) none false
      throw (.transport (transportText fault message))
    else throw (.http fault message)
  | .failed failure => throw failure
  | .answered status bytes => do
    let v := valueOf bytes
    let noteOutcome (level : Level) (message : String) : Step Unit :=
      note level message none (some path) (some status) true
    -- the status decides before the body is looked at
    if isErrorStatus status then
      noteOutcome .error (verb ++ " failed")
      throw (errorFailure status v)
    else match v with
      | none =>
        noteOutcome .error ("Non-JSON response to " ++ verb)
        throw .unexpectedResponse
      | some v =>
        noteOutcome .debug (verb ++ " succeeded")
        return v

/-- Sends one request and takes what comes back. -/
def exchange {α : Type} (c : Client) (verb path : String) (body : Option Fields)
    (opening : List Record) (outcome : Outcome) (interpret : Json → Step α) : Exchange α :=
  match c.prepare verb path body with
  -- the opening records are written all the same
  | .error failure => { result := .error failure, records := opening }
  | .ok sent =>
    let run : Logged (Except Failure α) := ExceptT.run do
      interpret (← receive verb path outcome)
    { result := run.value, records := opening ++ run.records, sent := some sent }

/-- The reply in a value: an object without a detail. -/
def replyOf (path : String) (v : Json) : Step Reply :=
  match v with
  | .obj fields =>
    match Fields.get? fields "detail" with
    -- an object with a detail tells of a failure, even under a good status
    | some detail => throw (remoteFailure none v detail)
    | none =>
      match Reply.ofFields fields with
      | .ok reply => return reply
      | .error fault => throw (.value fault)
  | v => do
    notePlain .error s!"Unexpected response from {path}: {v.literal}"
    throw .unexpectedResponse

/-- The records that a solve leaves before anything is sent. -/
def opening (m : Method) (body : Fields) : List Record :=
  [{ level := .info, source := "client", message := "POST " ++ m.path, method := some m.slug },
    { level := .debug, source := "client",
      message := "Request body: " ++ (Json.obj body).literal }]

/-- Solves by the method with the given slug; the request need not be one of that method. -/
def solve (c : Client) (slug : String) (request : Request) (outcome : Outcome) :
    Exchange Reply :=
  match Method.ofSlug slug with
  | .error problem => .refused (.invalid problem)
  | .ok m =>
    c.exchange "POST" m.path (some request.body) (opening m request.body) outcome
      (replyOf m.path)

/-- Asks the service how it is. -/
def health (c : Client) (outcome : Outcome) : Exchange Fields :=
  c.exchange "GET" "/health" none [] outcome fun
    | .obj fields => return fields
    | _ => throw .unexpectedResponse

/-- Builds a request from fields and solves it. Without a client of its own the call takes one
among the fields, where nothing stands for a client with the usual settings. -/
def solveFields (read : BaseReader) (c : Option Client) (slug : String) (given : Fields)
    (outcome : Outcome) : Exchange Reply :=
  -- the call itself is checked before the fields it carries
  if c.isSome && given.contains "client" then
    .refused (.value (.arguments "metodos_pkg.api.solve()" (.repeatedKeyword "client")))
  else if given.contains "slug" then
    .refused (.value (.arguments "solve()" (.repeated "slug")))
  else
    match Request.build slug (given.filter fun kv => kv.1 ≠ "client") with
    | .error failure => .refused failure
    | .ok request =>
      match c, (given.get? "client").getD .null with
      | some c, _ => c.solve slug request outcome
      | none, .null =>
        match connect read none .null with
        | .ok usual => usual.solve slug request outcome
        | .error failure => .refused failure
      | none, v => .refused (.value (.noAttribute v.kind "solve"))

end Client

end FormulaDesk
