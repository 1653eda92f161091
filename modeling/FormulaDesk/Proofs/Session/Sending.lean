import FormulaDesk.Proofs.Session.Course

/-! # What a submission sends

All along its course a session has a complete form, and a complete form is sent as it stands: one
request to the address of the method, with the fields of the form in the order of the method. Only a
form with an infinity or `nan` is held back.
-/

namespace FormulaDesk.Session

variable {s : Session}

/-- The body that a submission makes of the form. -/
def body (s : Session) : Fields := Request.fill s.method.fields s.form

theorem IsComplete.body_perm (h : s.IsComplete) : s.body.Perm s.form := Form.Complete.fill_perm h

theorem IsComplete.build (h : s.IsComplete) :
    Request.build s.method.slug s.form = .ok ⟨s.method, s.body⟩ := Form.Complete.build h

theorem IsComplete.isFinite_body (h : s.IsComplete) :
    (Json.obj s.body).isFinite = (Json.obj s.form).isFinite :=
  Json.isFinite_obj_of_perm h.body_perm

theorem IsComplete.launch_of_isFinite (h : s.IsComplete)
    (hfinite : (Json.obj s.form).isFinite = true) :
    s.launch = .ok (⟨s.method, s.body⟩, s.client.post s.method s.body) := by
  rw [← h.isFinite_body] at hfinite
  simp [launch, h.build, Client.prepare_of_isFinite s.client s.method hfinite, bind, Except.bind,
    pure, Except.pure]

theorem IsComplete.launch_of_not_isFinite (h : s.IsComplete)
    (hinfinite : (Json.obj s.form).isFinite = false) :
    s.launch = .error (.value .notCompliant) := by
  rw [← h.isFinite_body] at hinfinite
  simp [launch, h.build, Client.prepare_of_not_isFinite s.client s.method hinfinite, bind,
    Except.bind]

/-- What a submission does with a complete form, whatever comes back. -/
theorem IsComplete.submit (h : s.IsComplete) (hidle : s.loading = false) (outcome : Outcome) :
    ((Json.obj s.form).isFinite = true →
      (s.submit outcome).sent = some (s.client.post s.method s.body)) ∧
    ((Json.obj s.form).isFinite = false →
      (s.submit outcome).sent = none ∧ (s.submit outcome).result = .ok none ∧
        (s.submit outcome).session.error = some genericMessage) := by
  rw [submit_sent hidle, submit_result hidle, submit_session hidle]
  constructor
  · intro hfinite
    exact (call_of_launch_ok (h.launch_of_isFinite hfinite) outcome).2
  · intro hinfinite
    have hcall := call_of_launch_error (h.launch_of_not_isFinite hinfinite) outcome
    rw [hcall.1, hcall.2]
    exact ⟨rfl, rfl, rfl⟩

/-- Every reachable form is complete and is sent exactly once as it stands. At any point of the
course of a session the form has the fields of its method's request and, for a system, a square
matrix and two vectors of one size. If the session is not loading, the form is a valid request, and
a submission sends one request, to the address of the method and with the fields of the form, unless
the form holds an infinity or `nan`: then it sends nothing and reports the generic message. -/
theorem form_sent_as_it_stands {slug : String} {client : Client}
    {board : Option (Graph.Board Unit)} {s₀ : Session}
    (h : Session.open slug client board = .ok s₀) (events : List Event) :
    let c := ({ session := s₀ } : Course).run events
    let s := c.session
    s.method.slug = slug ∧ Form.Complete s.method s.form ∧
    (s.loading = false → ∃ body, body.Perm s.form ∧
      Request.build slug s.form = .ok ⟨s.method, body⟩ ∧ ∀ outcome,
      let sent : Sent := ⟨"POST", client.base.join ("/metodos/" ++ slug), client.timeout,
        (Json.obj body).render .compact⟩
      ((Json.obj s.form).isFinite = true →
        (s.submit outcome).sent = some sent ∧
          ((c.next .submit).next (.complete outcome)).sent = c.sent ++ [sent]) ∧
      ((Json.obj s.form).isFinite = false →
        (s.submit outcome).sent = none ∧
          ((c.next .submit).next (.complete outcome)).sent = c.sent ∧
          (s.submit outcome).result = .ok none ∧
          (s.submit outcome).session.error = some genericMessage)) := by
  obtain ⟨m, rfl, hstart⟩ := Course.sound_of_open h
  have hsound := hstart.run events
  -- soundness is all that is needed of the events
  generalize ({ session := s₀ } : Course).run events = c at hsound
  obtain ⟨rfl, rfl, hcomplete, hwaiting⟩ := hsound
  refine ⟨rfl, hcomplete, fun hidle => ⟨c.session.body, hcomplete.body_perm, hcomplete.build, ?_⟩⟩
  intro outcome
  have hsubmit := hcomplete.submit hidle outcome
  have hfree : c.waiting = none := by simpa [hidle] using hwaiting.symm
  rw [Course.next_submit_complete hidle hfree outcome]
  constructor
  · intro hfinite
    have hsent := hsubmit.1 hfinite
    exact ⟨hsent, by rw [hsent]; rfl⟩
  · intro hinfinite
    obtain ⟨hsent, hresult, herror⟩ := hsubmit.2 hinfinite
    exact ⟨hsent, by rw [hsent]; simp, hresult, herror⟩

/-- A system of two unknowns is sent after an entry that is no number and a submission that
failed. -/
theorem form_sent_as_it_stands_resized :
    let s₀ := opened .jacobi Client.usual none
    let c := ({ session := s₀ } : Course).run
      [.operate (.resize (.int 2)), .operate (.setCell (.int 0) (.int (-1)) (.str "one")),
        .submit, .operate (.setRhs (.int 5) (.float 1)), .complete (.failed (.transport "down"))]
    Session.open "jacobi" Client.usual none = .ok s₀ ∧ c.session.loading = false ∧
      (Json.obj c.session.form).isFinite = true ∧
      ∃ body, body.Perm c.session.form ∧
        (c.session.submit (.failed (.transport "down"))).sent
          = some ⟨"POST", "http://localhost:8000/metodos/jacobi", Client.usual.timeout,
              (Json.obj body).render .compact⟩ := by
  intro s₀ c
  have hopen : Session.open "jacobi" Client.usual none = .ok s₀ := rfl
  have hstate : c.session.loading = false ∧ (Json.obj c.session.form).isFinite = true := by
    decide +kernel
  have hform := form_sent_as_it_stands hopen
    [.operate (.resize (.int 2)), .operate (.setCell (.int 0) (.int (-1)) (.str "one")),
      .submit, .operate (.setRhs (.int 5) (.float 1)), .complete (.failed (.transport "down"))]
  obtain ⟨body, hperm, -, hsent⟩ := hform.2.2 hstate.1
  exact ⟨hopen, hstate.1, hstate.2, body, hperm, ((hsent _).1 hstate.2).1⟩

end FormulaDesk.Session
