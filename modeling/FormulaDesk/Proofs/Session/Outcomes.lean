import FormulaDesk.Proofs.Session.Submission

/-! # The outcome of submissions

Result, error and tab over whole runs of completed operations. Between operations a session is
settled: nothing is loading, at most one of result and error is there, and an error says something.
Only submissions change the outcome, each leaves exactly its own, and the results tab is entered
only with a result.
-/

namespace FormulaDesk

theorem Tab.mem_all (tab : Tab) : tab ∈ Tab.all := by
  cases tab <;> decide

namespace Session

variable {s : Session}

/-- An operation that is run to its end; of a submission, with what came back. -/
inductive Action where
  | operate (operation : Operation)
  | submit (outcome : Outcome)

/-- The session after an action. -/
def act (s : Session) : Action → Session
  | .operate operation => s.after operation
  | .submit outcome => (s.submit outcome).session

/-- The session after actions in turn. -/
def run (s : Session) (actions : List Action) : Session := actions.foldl act s

/-- What holds between two operations. -/
structure Settled (s : Session) : Prop where
  idle : s.loading = false
  exclusive : s.result = none ∨ s.error = none
  spoken : s.error ≠ some ""

theorem settled_finished (h : s.error = none) (result : Except Failure Reply)
    (hresult : s.result = none) : (s.finished result).Settled := by
  cases result with
  | ok reply => exact ⟨rfl, Or.inr h, by simp [finished_ok, h]⟩
  | error failure =>
    refine ⟨rfl, Or.inl hresult, ?_⟩
    simp [finished_error, failure.described_ne_empty]

theorem Settled.after (h : s.Settled) (operation : Operation) : (s.after operation).Settled := by
  have hframe := after_frame s operation
  exact ⟨hframe.loading.trans h.idle, hframe.result ▸ hframe.error ▸ h.exclusive,
    hframe.error ▸ h.spoken⟩

theorem Settled.act (h : s.Settled) (action : Action) : (s.act action).Settled := by
  cases action with
  | operate operation => exact h.after operation
  | submit outcome =>
    show (s.submit outcome).session.Settled
    rw [submit_session h.idle]
    exact settled_finished rfl _ rfl

/-- A session stays settled through all operations. -/
theorem Settled.run (h : s.Settled) (actions : List Action) : (s.run actions).Settled := by
  induction actions generalizing s with
  | nil => exact h
  | cons action actions ih => exact ih (h.act action)

theorem settled_open {slug : String} {client : Client} {board : Option (Graph.Board Unit)}
    (h : Session.open slug client board = .ok s) : s.Settled := by
  obtain ⟨m, -, rfl⟩ := open_eq_ok.mp h
  exact ⟨rfl, Or.inl rfl, by simp [opened]⟩

/-- What a submission makes of the outcome of its call, and what it leaves alone. -/
structure Concludes (s : Session) (outcome : Outcome) : Prop where
  reply : ∀ reply, (s.call outcome).result = .ok reply →
    (s.submit outcome).result = .ok (some reply) ∧
      (s.submit outcome).session.result = some reply ∧
      (s.submit outcome).session.error = none ∧
      (s.submit outcome).session.activeTab = .results
  failure : ∀ failure, (s.call outcome).result = .error failure →
    (s.submit outcome).result = .ok none ∧
      (s.submit outcome).session.result = none ∧
      (s.submit outcome).session.error = some failure.described ∧
      (s.submit outcome).session.activeTab = .input
  form : (s.submit outcome).session.form = s.form
  markup : (s.submit outcome).session.markup = s.markup

theorem concludes_of_idle (h : s.loading = false) (outcome : Outcome) : s.Concludes outcome where
  reply := by
    intro reply hcall
    rw [submit_result h, submit_session h, hcall]
    exact ⟨rfl, rfl, rfl, rfl⟩
  failure := by
    intro failure hcall
    rw [submit_result h, submit_session h, hcall]
    exact ⟨rfl, rfl, rfl, rfl⟩
  form := by
    rw [submit_session h]
    exact (sameDraft_finished s.started (s.call outcome).result).form
  markup := by
    rw [submit_session h]
    exact (sameDraft_finished s.started (s.call outcome).result).markup

/-- The results tab is there for a session with a result and for no other. -/
theorem selectTab_results (s : Session) :
    s.selectTab (.str "results") =
      if s.result.isSome then (.ok true, { s with activeTab := .results }) else (.ok false, s) := by
  cases hresult : s.result <;> simp [selectTab, Tab.ofName?, Tab.all, Tab.name, hresult]

/-- The outcome is consistent over whole runs. After every sequence of completed operations on a new
session, whatever came back from each submission: the session is settled; an operation that is no
submission leaves result and error alone; a submission leaves its reply on the results tab or the
text of its failure on the input tab and nothing of the other, and does not touch form or markup;
and the results tab can be selected exactly when there is a result. -/
theorem outcome_consistent {slug : String} {client : Client} {board : Option (Graph.Board Unit)}
    {s₀ : Session} (h : Session.open slug client board = .ok s₀) (actions : List Action) :
    (s₀.run actions).Settled ∧ (s₀.run actions).activeTab ∈ Tab.all ∧
    (∀ operation, ((s₀.run actions).after operation).result = (s₀.run actions).result ∧
      ((s₀.run actions).after operation).error = (s₀.run actions).error) ∧
    (∀ outcome, (s₀.run actions).Concludes outcome) ∧
    (s₀.run actions).selectTab (.str "results") =
      if (s₀.run actions).result.isSome then
        (.ok true, { s₀.run actions with activeTab := .results })
      else (.ok false, s₀.run actions) := by
  have hsettled := (settled_open h).run actions
  refine ⟨hsettled, Tab.mem_all _, ?_, ?_, selectTab_results _⟩
  · intro operation
    have hframe := after_frame (s₀.run actions) operation
    exact ⟨hframe.result, hframe.error⟩
  · intro outcome
    exact concludes_of_idle hsettled.idle outcome

/-- A failure after a success leaves nothing of the success. -/
theorem outcome_consistent_failed :
    let s₀ := opened .secant Client.usual none
    let s := s₀.run [.submit (.answered 200 [123, 125]), .operate (.selectTab (.str "graph")),
      .submit (.failed (.transport "down")), .operate (.selectTab (.str "results"))]
    Session.open "secante" Client.usual none = .ok s₀ ∧
      (s₀.run [.submit (.answered 200 [123, 125])]).result.isSome = true ∧
      s.Settled ∧ s.result.isSome = false ∧ s.error = some "down" ∧ s.activeTab = .input := by
  intro s₀ s
  have hopen : Session.open "secante" Client.usual none
      = .ok s₀ := rfl
  have hstate : s.result.isSome = false ∧ s.error = some "down" ∧ s.activeTab = .input := by
    decide +kernel
  have hsettled := (outcome_consistent hopen [.submit (.answered 200 [123, 125]),
    .operate (.selectTab (.str "graph")), .submit (.failed (.transport "down")),
    .operate (.selectTab (.str "results"))]).1
  exact ⟨hopen, by decide +kernel, hsettled, hstate⟩

end Session

end FormulaDesk
