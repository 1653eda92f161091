import FormulaDesk.Proofs.Session.Requests
import FormulaDesk.Proofs.Session.Submission

/-! # The course of a session

A submission takes two steps, and anything can happen between them. `Course` is a session together
with the request that it waits for and all requests sent so far; `Course.next` is one step. A
submission that sends nothing is over in its first step. `Course.next_submit_complete` shows that a
submission answered at once is `Session.submit`.
-/

namespace FormulaDesk.Session

/-- What can happen to a session. -/
inductive Event where
  | operate (operation : Operation)
  /-- The user asks for a submission. -/
  | submit
  /-- What came back for the request that is out. -/
  | complete (outcome : Outcome)
  /-- The submission ends with nothing that counts as an outcome; only the loading is reset. -/
  | breakOff

namespace Event

/-- The operation that an event is, if it is one. -/
def operation? : Event → Option Operation
  | .operate operation => some operation
  | _ => none

/-- Whether an event ends the submission that is outstanding. -/
def isEnd : Event → Bool
  | .complete _ => true
  | .breakOff => true
  | _ => false

end Event

/-- The request of a submission as built from the form, and as it leaves. -/
def launch (s : Session) : Except Failure (Request × Sent) := do
  let request ← Request.build s.method.slug s.form
  let sent ← s.client.prepare "POST" s.method.path (some request.body)
  return (request, sent)

/-- A session with the request that it waits for and the requests it has sent, in order. -/
structure Course where
  session : Session
  waiting : Option Request := none
  sent : List Sent := []

namespace Course

/-- The course after an event. What ends a submission does nothing if none is outstanding. -/
def next (c : Course) : Event → Course
  | .operate operation => { c with session := c.session.after operation }
  | .submit =>
    match c.session.start with
    | .error _ => c
    | .ok started =>
      match started.launch with
      | .error failure => { c with session := started.finished (.error failure) }
      | .ok (request, sent) =>
        { session := started, waiting := some request, sent := c.sent ++ [sent] }
  | .complete outcome =>
    match c.waiting with
    | none => c
    | some request =>
      let exchange := c.session.client.solve c.session.method.slug request outcome
      { c with session := c.session.finished exchange.result, waiting := none }
  | .breakOff =>
    match c.waiting with
    | none => c
    | some _ => { c with session := { c.session with loading := false }, waiting := none }

/-- The course after events in turn. -/
def run (c : Course) (events : List Event) : Course := events.foldl next c

@[simp]
theorem run_nil (c : Course) : c.run [] = c := rfl

end Course

variable {s : Session} {c : Course} {failure : Failure} {request : Request} {sent : Sent}

/-! ## The two steps of a submission -/

theorem call_of_launch_error (h : s.launch = .error failure) (outcome : Outcome) :
    (s.call outcome).result = .error failure ∧ (s.call outcome).sent = none := by
  obtain hbuild | ⟨request, hbuild, hrest⟩ := bind_eq_error.mp h
  · simp [call, hbuild, Exchange.refused]
  · obtain hprepare | ⟨sent, -, hpair⟩ := bind_eq_error.mp hrest
    · simp [call, hbuild, Client.solve_slug, Client.exchange, hprepare]
    · cases hpair

theorem call_of_launch_ok (h : s.launch = .ok (request, sent)) (outcome : Outcome) :
    (s.call outcome).result = (s.client.solve s.method.slug request outcome).result ∧
      (s.call outcome).sent = some sent := by
  obtain ⟨built, hbuild, h⟩ := bind_eq_ok.mp h
  obtain ⟨left, hprepare, h⟩ := bind_eq_ok.mp h
  cases h
  simp only [call, hbuild, Client.solve_slug, Client.exchange, hprepare]
  exact ⟨trivial, trivial⟩

/-- A submission that is answered at once is a whole submission. -/
theorem Course.next_submit_complete (hidle : c.session.loading = false) (hfree : c.waiting = none)
    (outcome : Outcome) :
    (c.next .submit).next (.complete outcome) =
      { session := (c.session.submit outcome).session, waiting := none,
        sent := c.sent ++ (c.session.submit outcome).sent.toList } := by
  rw [submit_session hidle, submit_sent hidle]
  simp only [next, start_of_idle hidle]
  cases hlaunch : c.session.started.launch with
  | error failure =>
    have hcall := @call_of_launch_error c.session failure hlaunch outcome
    simp [hcall, hfree]
  | ok launched =>
    obtain ⟨request, sent⟩ := launched
    have hcall := @call_of_launch_ok c.session request sent hlaunch outcome
    simp only [hcall]
    rfl

/-! ## Along a course -/

namespace Course

/-- All that an event can do to a course. -/
inductive Step (c : Course) : Event → Course → Prop where
  | operated (operation : Operation) :
    Step c (.operate operation) { c with session := c.session.after operation }
  | refused : c.session.loading = true → Step c .submit c
  | unsent (failure : Failure) : c.session.loading = false →
    c.session.started.launch = .error failure →
    Step c .submit { c with session := c.session.started.finished (.error failure) }
  | launched (request : Request) (sent : Sent) : c.session.loading = false →
    c.session.started.launch = .ok (request, sent) →
    Step c .submit
      { session := c.session.started, waiting := some request, sent := c.sent ++ [sent] }
  | stray (event : Event) : event.isEnd = true → c.waiting = none → Step c event c
  | completed (request : Request) (outcome : Outcome) : c.waiting = some request →
    Step c (.complete outcome)
      { c with
        session := c.session.finished
          (c.session.client.solve c.session.method.slug request outcome).result,
        waiting := none }
  | brokenOff (request : Request) : c.waiting = some request →
    Step c .breakOff { c with session := { c.session with loading := false }, waiting := none }

theorem step_next (c : Course) (event : Event) : c.Step event (c.next event) := by
  cases event with
  | operate operation => exact .operated operation
  | submit =>
    cases hloading : c.session.loading with
    | true =>
      simp only [next, start_of_loading hloading]
      exact .refused hloading
    | false =>
      simp only [next, start_of_idle hloading]
      cases hlaunch : c.session.started.launch with
      | error failure => exact .unsent failure hloading hlaunch
      | ok launched => exact .launched launched.1 launched.2 hloading hlaunch
  | complete outcome =>
    cases hwaiting : c.waiting with
    | none =>
      simp only [next, hwaiting]
      exact .stray _ rfl hwaiting
    | some request =>
      simp only [next, hwaiting]
      exact .completed request outcome hwaiting
  | breakOff =>
    cases hwaiting : c.waiting with
    | none =>
      simp only [next, hwaiting]
      exact .stray _ rfl hwaiting
    | some request =>
      simp only [next, hwaiting]
      exact .brokenOff request hwaiting

/-- What holds all along the course of a session: method and client are those it was opened with,
its form is complete, and it is loading exactly while it waits for a request. -/
structure Sound (m : Method) (client : Client) (c : Course) : Prop where
  method : c.session.method = m
  client : c.session.client = client
  complete : c.session.IsComplete
  waiting : c.session.loading = c.waiting.isSome

theorem Sound.next {m : Method} {client : Client} (h : c.Sound m client) (event : Event) :
    (c.next event).Sound m client := by
  have hstep := c.step_next event
  generalize c.next event = c' at hstep ⊢
  cases hstep with
  | operated operation =>
    have hframe := after_frame c.session operation
    exact ⟨hframe.method.trans h.method, hframe.client.trans h.client,
      complete_after h.complete operation, hframe.loading.trans h.waiting⟩
  | refused _ => exact h
  | unsent failure hidle _ =>
    -- nothing was sent, and the submission is over
    exact ⟨h.method, h.client, h.complete, hidle.symm.trans h.waiting⟩
  | launched request sent _ _ => exact ⟨h.method, h.client, h.complete, rfl⟩
  | stray _ _ _ => exact h
  | completed request outcome _ =>
    have hdraft := sameDraft_finished c.session
      (c.session.client.solve c.session.method.slug request outcome).result
    refine ⟨hdraft.method.trans h.method, (finished_client _ _).trans h.client, ?_,
      finished_loading _ _⟩
    show Form.Complete _ _
    rw [hdraft.method, hdraft.form]
    exact h.complete
  | brokenOff _ _ => exact ⟨h.method, h.client, h.complete, rfl⟩

theorem Sound.run {m : Method} {client : Client} (h : c.Sound m client) (events : List Event) :
    (c.run events).Sound m client := by
  induction events generalizing c with
  | nil => exact h
  | cons event events ih => exact ih (h.next event)

/-- A new session is at the start of a sound course. -/
theorem sound_of_open {slug : String} {client : Client} {board : Option (Graph.Board Unit)}
    (h : Session.open slug client board = .ok s) :
    ∃ m, m.slug = slug ∧ ({ session := s } : Course).Sound m client := by
  obtain ⟨m, hslug, rfl⟩ := open_eq_ok.mp h
  exact ⟨m, hslug, rfl, rfl, Form.complete_initial m, rfl⟩

end Course

end FormulaDesk.Session
