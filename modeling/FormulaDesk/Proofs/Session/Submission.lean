import FormulaDesk.Proofs.Service.Sending
import FormulaDesk.Proofs.Session.Operations

/-! # One submission

A submission is refused while another one is outstanding. Otherwise it clears the outcome, makes its
call, and leaves either a reply on the results tab or a text on the input tab; form, markup and
widget stay as they are.
-/

namespace FormulaDesk

/-- There is always something to tell the user. -/
theorem Failure.described_ne_empty (failure : Failure) : failure.described ≠ "" := by
  unfold described
  split
  · rename_i h
    simp only [Bool.and_eq_true, Bool.not_eq_true', String.isEmpty_eq_false_iff] at h
    exact h.2
  · decide

namespace Session

variable {s : Session}

/-! ## New sessions -/

/-- The new session of a method. -/
def opened (m : Method) (client : Client) (board : Option (Graph.Board Unit)) : Session :=
  { method := m, client, board, form := Form.initial m }

/-- Sessions are there for the methods of the catalog and for no other slug. -/
theorem open_eq_ok {slug : String} {client : Client} {board : Option (Graph.Board Unit)} :
    Session.open slug client board = .ok s ↔ ∃ m, m.slug = slug ∧ s = opened m client board := by
  constructor
  · intro h
    obtain ⟨m, hm, hs⟩ := bind_eq_ok.mp h
    cases hs
    exact ⟨m, Method.slug_of_ofSlug (mapError_eq_ok.mp hm), rfl⟩
  · rintro ⟨m, rfl, rfl⟩
    simp [Session.open, m.ofSlug_slug, opened, bind, Except.bind, pure, Except.pure]

/-! ## The parts of a submission -/

/-- The session while its request is outstanding. -/
def started (s : Session) : Session := { s with loading := true, error := none, result := none }

/-- The refusal of a second submission. -/
def refusal (s : Session) : Failure :=
  .inProgress s!"A {s.method.slug} request is already in progress"

theorem start_of_idle (h : s.loading = false) : s.start = .ok s.started := by
  simp [start, started, h]

theorem start_of_loading (h : s.loading = true) : s.start = .error s.refusal := by
  simp [start, refusal, h]

/-- The session after its call came back. -/
def finished (s : Session) (result : Except Failure Reply) : Session := (s.finish result).value.2

theorem finished_ok (s : Session) (reply : Reply) :
    s.finished (.ok reply)
      = { s with loading := false, result := some reply, activeTab := .results } := rfl

theorem finished_error (s : Session) (failure : Failure) :
    s.finished (.error failure)
      = { s with loading := false, error := some failure.described, activeTab := .input } := rfl

theorem finished_loading (s : Session) (result : Except Failure Reply) :
    (s.finished result).loading = false := by
  cases result <;> rfl

/-- What comes back changes nothing that the user edits. -/
theorem sameDraft_finished (s : Session) (result : Except Failure Reply) :
    SameDraft (s.finished result) s := by
  cases result <;> exact ⟨rfl, rfl, rfl, rfl⟩

theorem finished_client (s : Session) (result : Except Failure Reply) :
    (s.finished result).client = s.client := by
  cases result <;> rfl

/-! ## Whole submissions -/

/-- A submission while another one is outstanding leaves no trace. -/
theorem submit_of_loading (h : s.loading = true) (outcome : Outcome) :
    s.submit outcome = { result := .error s.refusal, session := s } := by
  simp [submit, start_of_loading h]

theorem submit_session (h : s.loading = false) (outcome : Outcome) :
    (s.submit outcome).session = s.started.finished (s.call outcome).result := by
  simp only [submit, start_of_idle h]
  rfl

theorem submit_sent (h : s.loading = false) (outcome : Outcome) :
    (s.submit outcome).sent = (s.call outcome).sent := by
  simp only [submit, start_of_idle h]
  rfl

theorem submit_result (h : s.loading = false) (outcome : Outcome) :
    (s.submit outcome).result = .ok (s.call outcome).result.toOption := by
  simp only [submit, start_of_idle h]
  show Except.ok (s.started.finish (s.call outcome).result).value.1 = _
  cases (s.call outcome).result <;> rfl

end Session

end FormulaDesk
