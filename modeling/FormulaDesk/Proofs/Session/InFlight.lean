import FormulaDesk.Proofs.Session.Sending

/-! # While a request is outstanding

Between the two steps of a submission the user may edit, change tabs and try to submit again. Main
results:

* `InFlight.run`: all the while one request is out, with the form as it was at the start, and the
  form, the markup and the widget go the way they go without it;
* `InFlight.refuses`: each further submission is refused and leaves no trace;
* `InFlight.landed`: whatever ends the submission leaves the edits and opens the session for the
  next one.
-/

namespace FormulaDesk.Session

variable {s : Session} {c f d : Course} {edits : List Operation} {event : Event}

/-- The submission that started in `c` is outstanding in `f`; `edits` were run since. -/
structure InFlight (c : Course) (edits : List Operation) (f : Course) : Prop where
  /-- The request holds the form as it was at the start. -/
  waiting : f.waiting = some ⟨c.session.method, c.session.body⟩
  /-- No other request was sent. -/
  sent : f.sent = c.sent ++ [c.session.client.post c.session.method c.session.body]
  loading : f.session.loading = true
  result : f.session.result = none
  error : f.session.error = none
  method : f.session.method = c.session.method
  client : f.session.client = c.session.client
  draft : SameDraft f.session (c.session.afterAll edits)

theorem inFlight_submit (hcomplete : c.session.IsComplete) (hidle : c.session.loading = false)
    (hfinite : (Json.obj c.session.form).isFinite = true) : InFlight c [] (c.next .submit) := by
  have hlaunch : c.session.started.launch
      = .ok (⟨c.session.method, c.session.body⟩,
          c.session.client.post c.session.method c.session.body) :=
    hcomplete.launch_of_isFinite hfinite
  simp only [Course.next, start_of_idle hidle, hlaunch]
  exact ⟨rfl, rfl, rfl, rfl, rfl, rfl, rfl, ⟨rfl, rfl, rfl, rfl⟩⟩

/-- A submission of a form that cannot be sent is over at once. -/
theorem next_submit_of_not_isFinite (hcomplete : c.session.IsComplete)
    (hidle : c.session.loading = false)
    (hinfinite : (Json.obj c.session.form).isFinite = false) :
    (c.next .submit).sent = c.sent ∧ (c.next .submit).waiting = c.waiting ∧
      (c.next .submit).session.loading = false := by
  have hlaunch : c.session.started.launch = .error (.value .notCompliant) :=
    hcomplete.launch_of_not_isFinite hinfinite
  simp only [Course.next, start_of_idle hidle, hlaunch]
  exact ⟨trivial, trivial, rfl⟩

/-! ## In between -/

/-- A second submission raises and changes nothing. -/
theorem InFlight.refuses (h : InFlight c edits f) :
    f.session.canSubmit = false ∧ f.next .submit = f ∧
      ∀ outcome, f.session.submit outcome
        = { result := .error f.session.refusal, session := f.session } := by
  refine ⟨?_, ?_, submit_of_loading h.loading⟩
  · rw [canSubmit, h.loading]
    rfl
  · simp only [Course.next, start_of_loading h.loading]

theorem InFlight.operate (h : InFlight c edits f) (operation : Operation) :
    InFlight c (edits ++ [operation]) (f.next (.operate operation)) where
  waiting := h.waiting
  sent := h.sent
  loading := (after_frame f.session operation).loading.trans h.loading
  result := (after_frame f.session operation).result.trans h.result
  error := (after_frame f.session operation).error.trans h.error
  method := (after_frame f.session operation).method.trans h.method
  client := (after_frame f.session operation).client.trans h.client
  draft := by
    rw [afterAll_append]
    exact h.draft.after operation

theorem InFlight.next (h : InFlight c edits f) (hend : event.isEnd = false) :
    InFlight c (edits ++ event.operation?.toList) (f.next event) := by
  cases event with
  | operate operation => exact h.operate operation
  | submit =>
    rw [h.refuses.2.1]
    simpa [Event.operation?] using h
  | complete outcome => cases hend
  | breakOff => cases hend

/-- The submission stays outstanding through everything that does not end it. -/
theorem InFlight.run (h : InFlight c edits f) (during : List Event)
    (hduring : ∀ event ∈ during, event.isEnd = false) :
    InFlight c (edits ++ during.filterMap Event.operation?) (f.run during) := by
  induction during generalizing f edits with
  | nil => simpa using h
  | cons event during ih =>
    rw [List.forall_mem_cons] at hduring
    -- an attempt to submit adds no operation, all others add one
    have hnext := ih (h.next hduring.1) hduring.2
    have hedits : edits ++ event.operation?.toList ++ during.filterMap Event.operation?
        = edits ++ (event :: during).filterMap Event.operation? := by
      cases hoperation : event.operation? <;> simp [hoperation]
    rw [hedits] at hnext
    exact hnext

/-! ## The end -/

/-- The submission that was outstanding in `f` has ended in `d`. -/
structure Landed (f d : Course) : Prop where
  idle : d.session.loading = false
  canSubmit : d.session.canSubmit = true
  accepted : d.session.start = .ok d.session.started
  waiting : d.waiting = none
  sent : d.sent = f.sent
  draft : SameDraft d.session f.session

theorem landed_of_idle (hidle : d.session.loading = false) (hwaiting : d.waiting = none)
    (hsent : d.sent = f.sent) (hdraft : SameDraft d.session f.session) : Landed f d where
  idle := hidle
  canSubmit := by
    rw [Session.canSubmit, hidle]
    rfl
  accepted := start_of_idle hidle
  waiting := hwaiting
  sent := hsent
  draft := hdraft

/-- What came back is taken for the request that was sent. -/
theorem InFlight.complete (h : InFlight c edits f) (outcome : Outcome) :
    f.next (.complete outcome) =
      { f with
        session := f.session.finished (c.session.client.solve c.session.method.slug
          ⟨c.session.method, c.session.body⟩ outcome).result,
        waiting := none } := by
  simp only [Course.next, h.waiting, h.client, h.method]

theorem InFlight.landed (h : InFlight c edits f) (hend : event.isEnd = true) :
    Landed f (f.next event) := by
  cases event with
  | operate operation => cases hend
  | submit => cases hend
  | complete outcome =>
    rw [h.complete]
    exact landed_of_idle (finished_loading _ _) rfl rfl (sameDraft_finished _ _)
  | breakOff =>
    simp only [Course.next, h.waiting]
    exact landed_of_idle rfl rfl rfl ⟨rfl, rfl, rfl, rfl⟩

/-- At most one request is outstanding, and it carries a snapshot. Let a session that is not loading
start a submission at any point `c` of its course, and let `f` be any point reached from there by
operations and further attempts to submit. A form that can be sent is out in `f`, as it was in `c`,
and nothing else was sent; a further attempt is refused and changes nothing; the form and the markup
are those that the operations make without a submission; and every end of the submission keeps them
and opens the session for the next one. A form that cannot be sent is not outstanding at all. -/
theorem one_request_outstanding {slug : String} {client : Client}
    {board : Option (Graph.Board Unit)} {s₀ : Session}
    (h : Session.open slug client board = .ok s₀) (before during : List Event)
    (hduring : ∀ event ∈ during, event.isEnd = false) :
    let c := ({ session := s₀ } : Course).run before
    let f := (c.next .submit).run during
    c.session.loading = false →
    ((Json.obj c.session.form).isFinite = true →
      c.session.body.Perm c.session.form ∧
      InFlight c (during.filterMap Event.operation?) f ∧
      (f.session.canSubmit = false ∧ f.next .submit = f ∧
        ∀ outcome, f.session.submit outcome
          = { result := .error f.session.refusal, session := f.session }) ∧
      (∀ outcome, (f.next (.complete outcome)).session
        = f.session.finished
            (client.solve slug ⟨c.session.method, c.session.body⟩ outcome).result) ∧
      ∀ event, event.isEnd = true → Landed f (f.next event)) ∧
    ((Json.obj c.session.form).isFinite = false →
      (c.next .submit).sent = c.sent ∧ (c.next .submit).waiting = c.waiting ∧
        (c.next .submit).session.loading = false) := by
  obtain ⟨m, rfl, hstart⟩ := Course.sound_of_open h
  have hsound := hstart.run before
  -- of the course before the submission only its soundness is used
  generalize ({ session := s₀ } : Course).run before = c at hsound
  obtain ⟨rfl, rfl, hcomplete, -⟩ := hsound
  intro c' f hidle
  refine ⟨fun hfinite => ?_, next_submit_of_not_isFinite hcomplete hidle⟩
  have hflight : InFlight c (during.filterMap Event.operation?) f := by
    simpa using (inFlight_submit hcomplete hidle hfinite).run during hduring
  refine ⟨hcomplete.body_perm, hflight, hflight.refuses, fun outcome => ?_,
    fun event hend => hflight.landed hend⟩
  rw [hflight.complete]

/-- An interval that is edited and submitted again while its first request is out. -/
theorem one_request_outstanding_edited :
    let s₀ := opened .bisection Client.usual none
    let c := ({ session := s₀ } : Course).run [.operate (.update [("a", .int 2)])]
    let f := (c.next .submit).run [.operate (.update [("b", .str "5")]), .submit]
    Session.open "biseccion" Client.usual none = .ok s₀ ∧ c.session.loading = false ∧
      (Json.obj c.session.form).isFinite = true ∧ f.sent.length = 1 ∧ f.next .submit = f ∧
      ∀ outcome, (f.next (.complete outcome)).session.loading = false ∧
        (f.next (.complete outcome)).session.form = f.session.form := by
  intro s₀ c f
  have hopen : Session.open "biseccion" Client.usual none = .ok s₀ := rfl
  have hstate : c.session.loading = false ∧ (Json.obj c.session.form).isFinite = true := by
    decide +kernel
  have hcourse := one_request_outstanding hopen [.operate (.update [("a", .int 2)])]
    [.operate (.update [("b", .str "5")]), .submit] (by simp [Event.isEnd]) hstate.1
  obtain ⟨-, hflight, hrefuses, -, hlanded⟩ := hcourse.1 hstate.2
  have hone : f.sent.length = 1 := congrArg List.length hflight.sent
  refine ⟨hopen, hstate.1, hstate.2, hone, hrefuses.2.1, fun outcome => ?_⟩
  have hend := hlanded (.complete outcome) rfl
  exact ⟨hend.idle, hend.draft.form⟩

end FormulaDesk.Session
