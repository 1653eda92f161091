import FormulaDesk.Proofs.Session.Forms
import FormulaDesk.Session.State

/-! # Operations on a session

What an operation can do, told once for all eight of them:

* `after_frame`: the method, the client, the outcome and whether the session is loading stay;
* `SameDraft.after`: what becomes of the form, the markup and the widget depends on nothing else;
* `complete_after`: a complete form stays complete, whether the operation succeeds or raises.
-/

namespace FormulaDesk.Session

variable {s t : Session}

/-- The session after an operation, whether it succeeds or raises. -/
def after (s : Session) (operation : Operation) : Session := (s.perform operation).value.2

/-- The session after operations in turn. -/
def afterAll (s : Session) (operations : List Operation) : Session := operations.foldl after s

@[simp]
theorem afterAll_nil (s : Session) : s.afterAll [] = s := rfl

/-- One more operation acts on the session the earlier ones left. -/
@[simp]
theorem afterAll_append (s : Session) (operations : List Operation) (operation : Operation) :
    s.afterAll (operations ++ [operation]) = (s.afterAll operations).after operation := by
  simp [afterAll]

/-! ## Each operation -/

/-- Redrawing touches the board alone. -/
theorem redraw_value (s : Session) (equation : String) :
    (s.redraw equation).value
      = { s with board := s.board.map fun board => (board.plot equation).value.2 } := by
  obtain ⟨method, client, board, form, markup, loading, result, error, activeTab⟩ := s
  cases board <;> rfl

/-- An expression goes to the markup, the form and, if it is the equation, to the widget. -/
def withExpression (s : Session) (markup : Json) (name text : String) : Session :=
  let expression := (Conversion.evaluableOf text).value
  { s with
    markup := s.markup.set name markup, form := s.form.set name (.str expression),
    board := if name = "equation" then
        s.board.map fun board => (board.plot expression).value.2
      else s.board }

/-- Editing an expression takes effect only with a field of the form and a text. -/
theorem after_setExpression (s : Session) (markup : Typed) (field : Json) :
    s.after (.setExpression markup field) =
      match s.expressionField field, markupText markup.value with
      | .ok name, .ok text => s.withExpression markup.value name text
      | _, _ => s := by
  show (s.setExpression markup field).value.2 = _
  unfold setExpression withExpression
  cases s.expressionField field with
  | error failure => rfl
  | ok name =>
    cases markupText markup.value with
    | error fault => rfl
    | ok text =>
      by_cases hname : name = "equation"
      · simp only [hname, if_true]
        exact redraw_value _ _
      · simp only [hname, if_false]
        rfl

/-- A form is taken as a whole or not at all. -/
theorem withForm_session (s : Session) (form : Except Failure Fields) :
    (s.withForm form).2 = { s with form := form.toOption.getD s.form } := by
  cases form <;> rfl

/-- Selecting a tab either changes the tab alone or is refused. -/
theorem after_selectTab (s : Session) (tab : Json) :
    s.after (.selectTab tab) = s ∨
      ∃ found, s.after (.selectTab tab) = { s with activeTab := found } := by
  show (s.selectTab tab).2 = s ∨ ∃ found, (s.selectTab tab).2 = { s with activeTab := found }
  unfold selectTab
  dsimp only
  split
  · exact Or.inl rfl
  · split
    · exact Or.inl rfl
    · exact Or.inr ⟨_, rfl⟩

/-! ## What stays -/

/-- Only submissions touch these parts of a session. -/
structure SameOutcome (s t : Session) : Prop where
  method : t.method = s.method
  client : t.client = s.client
  loading : t.loading = s.loading
  result : t.result = s.result
  error : t.error = s.error

theorem SameOutcome.refl (s : Session) : SameOutcome s s := ⟨rfl, rfl, rfl, rfl, rfl⟩

/-- Keeping the outcome is kept along a course. -/
theorem SameOutcome.trans {u : Session} (hst : SameOutcome s t) (htu : SameOutcome t u) :
    SameOutcome s u where
  method := htu.method.trans hst.method
  client := htu.client.trans hst.client
  loading := htu.loading.trans hst.loading
  result := htu.result.trans hst.result
  error := htu.error.trans hst.error

/-- Whether a form is taken or refused, the outcome stays. -/
theorem sameOutcome_withForm (s : Session) (form : Except Failure Fields) :
    SameOutcome s (s.withForm form).2 := by
  rw [withForm_session]
  exact ⟨rfl, rfl, rfl, rfl, rfl⟩

/-- An update that is accepted writes one field of the form, and none that belongs to a system. -/
theorem updateOne_eq_ok {field : String} {v : Json} (h : s.updateOne field v = .ok t) :
    field ∈ s.form.keys ∧ (s.method.kind = .system → Form.isSystemPart field = false) ∧
      ∃ stored, Form.parameter field v = .ok stored ∧
        t = { s with form := s.form.set field stored } := by
  unfold updateOne at h
  split at h
  · cases h
  · rename_i hfield
    simp only [Bool.or_eq_true, Bool.not_eq_true', Bool.and_eq_true, beq_iff_eq, not_or, not_and,
      Bool.not_eq_false, Bool.not_eq_true] at hfield
    split at h
    · rename_i stored hstored
      cases h
      exact ⟨Fields.contains_iff_mem_keys.mp hfield.1, hfield.2, stored, hstored, rfl⟩
    · cases h

/-- Updating fields keeps the outcome, refused or not. -/
theorem sameOutcome_update (s : Session) (fields : Fields) :
    SameOutcome s (s.update fields).2 := by
  induction fields generalizing s with
  | nil => exact SameOutcome.refl s
  | cons kv rest ih =>
    unfold update
    cases hone : s.updateOne kv.1 kv.2 with
    | error failure => exact SameOutcome.refl s
    | ok changed =>
      obtain ⟨-, -, stored, -, hchanged⟩ := updateOne_eq_ok hone
      -- what was set before a failure stays set
      have hfirst : SameOutcome s changed := hchanged ▸ ⟨rfl, rfl, rfl, rfl, rfl⟩
      exact hfirst.trans (ih changed)

/-- No operation touches the outcome of a submission. -/
theorem after_frame (s : Session) (operation : Operation) : SameOutcome s (s.after operation) := by
  cases operation with
  | setExpression markup field =>
    rw [after_setExpression]
    split
    · exact ⟨rfl, rfl, rfl, rfl, rfl⟩
    · exact SameOutcome.refl s
  | update fields => exact sameOutcome_update s fields
  | resize size => exact sameOutcome_withForm s _
  | setCell row column v => exact sameOutcome_withForm s _
  | setRhs index v => exact sameOutcome_withForm s _
  | setGuess index v => exact sameOutcome_withForm s _
  | loadExample name => exact sameOutcome_withForm s _
  | selectTab tab =>
    rcases after_selectTab s tab with h | ⟨found, h⟩
    · rw [h]
      exact SameOutcome.refl s
    · rw [h]
      exact ⟨rfl, rfl, rfl, rfl, rfl⟩

/-! ## What operations depend on -/

/-- Two sessions with the same form in the making, whatever came of their submissions. -/
structure SameDraft (s t : Session) : Prop where
  method : s.method = t.method
  board : s.board = t.board
  form : s.form = t.form
  markup : s.markup = t.markup

/-- Sessions with the same draft have the same draft after taking the same form. -/
theorem SameDraft.withForm (h : SameDraft s t) (form : Except Failure Fields) :
    SameDraft (s.withForm form).2 (t.withForm form).2 := by
  rw [withForm_session, withForm_session]
  exact ⟨h.method, h.board, congrArg form.toOption.getD h.form, h.markup⟩

/-- Sessions with the same draft have the same draft after the same update. -/
theorem SameDraft.update (h : SameDraft s t) (fields : Fields) :
    SameDraft (s.update fields).2 (t.update fields).2 := by
  induction fields generalizing s t with
  | nil => exact h
  | cons kv rest ih =>
    obtain ⟨field, v⟩ := kv
    unfold Session.update updateOne
    rw [h.form, h.method]
    -- whether a field is taken depends on the form and the method only
    cases hfield :
        (!t.form.contains field || (t.method.kind == .system && Form.isSystemPart field)) with
    | true => exact h
    | false =>
      cases Form.parameter field v with
      | error fault => exact h
      | ok stored => exact ih ⟨rfl, h.board, rfl, h.markup⟩

/-- Operations go the same way on both sessions. -/
theorem SameDraft.after (h : SameDraft s t) (operation : Operation) :
    SameDraft (s.after operation) (t.after operation) := by
  cases operation with
  | setExpression markup field =>
    have hfield : s.expressionField field = t.expressionField field := by
      unfold expressionField
      rw [h.form, h.method]
    rw [after_setExpression, after_setExpression, hfield]
    split
    · unfold withExpression
      exact ⟨h.method, by rw [h.board], by rw [h.form], by rw [h.markup]⟩
    · exact h
  | update fields => exact h.update fields
  | resize size =>
    show SameDraft (s.resize size).2 (t.resize size).2
    unfold resize
    rw [h.form, h.method]
    exact h.withForm _
  | setCell row column v =>
    show SameDraft (s.setCell row column v).2 (t.setCell row column v).2
    unfold setCell
    rw [h.form]
    exact h.withForm _
  | setRhs index v =>
    show SameDraft (s.setRhs index v).2 (t.setRhs index v).2
    unfold setRhs
    rw [h.form]
    exact h.withForm _
  | setGuess index v =>
    show SameDraft (s.setGuess index v).2 (t.setGuess index v).2
    unfold setGuess
    rw [h.form, h.method]
    exact h.withForm _
  | loadExample name =>
    show SameDraft (s.loadExample name).2 (t.loadExample name).2
    unfold loadExample
    rw [h.form, h.method]
    exact h.withForm _
  | selectTab tab =>
    -- the tab may open in one session and not in the other, but no draft has a tab
    have hkeeps : ∀ u : Session, SameDraft (u.after (.selectTab tab)) u := by
      intro u
      rcases after_selectTab u tab with hu | ⟨found, hu⟩ <;> rw [hu] <;> exact ⟨rfl, rfl, rfl, rfl⟩
    exact ⟨(hkeeps s).method.trans (h.method.trans (hkeeps t).method.symm),
      (hkeeps s).board.trans (h.board.trans (hkeeps t).board.symm),
      (hkeeps s).form.trans (h.form.trans (hkeeps t).form.symm),
      (hkeeps s).markup.trans (h.markup.trans (hkeeps t).markup.symm)⟩

/-! ## Complete forms stay complete -/

/-- The form of a session has all that its request needs. -/
def IsComplete (s : Session) : Prop := Form.Complete s.method s.form

/-- A session stays complete when the form it takes is. -/
theorem IsComplete.withForm {form : Except Failure Fields} (h : s.IsComplete)
    (hform : ∀ taken, form = .ok taken → Form.Complete s.method taken) :
    (s.withForm form).2.IsComplete := by
  cases form with
  | error failure => exact h
  | ok taken => exact hform taken rfl

/-- Updating fields keeps the form complete, at a refusal too. -/
theorem IsComplete.update (h : s.IsComplete) (fields : Fields) :
    (s.update fields).2.IsComplete := by
  induction fields generalizing s with
  | nil => exact h
  | cons kv rest ih =>
    unfold Session.update
    cases hone : s.updateOne kv.1 kv.2 with
    | error failure => exact h
    | ok changed =>
      obtain ⟨hkey, hpart, stored, -, rfl⟩ := updateOne_eq_ok hone
      exact ih (Form.Complete.set_parameter h hkey hpart)

/-- A field that can be edited as an expression is an expression field of the form. -/
theorem expressionField_eq_ok {field : Json} {name : String}
    (h : s.expressionField field = .ok name) :
    Form.isExpression name = true ∧ name ∈ s.form.keys := by
  unfold expressionField at h
  split at h
  · cases h
  · cases h
  · dsimp only at h
    split at h
    · rename_i hname
      cases h
      rw [Bool.and_eq_true, Fields.contains_iff_mem_keys] at hname
      exact hname
    · cases h

/-- A name that is accepted is that of a predefined system. -/
theorem exampleOf_eq_ok {name : Json} {system : ExampleSystem} (h : exampleOf name = .ok system) :
    ∃ text, ExampleSystem.ofName? text = some system := by
  unfold exampleOf at h
  split at h
  · cases h
  · cases h
  · rename_i text
    split at h
    · rename_i found hfound
      cases h
      exact ⟨text, hfound⟩
    · cases h
  · cases h

/-- Every operation keeps the form complete, refused or not. -/
theorem complete_after (h : s.IsComplete) (operation : Operation) :
    (s.after operation).IsComplete := by
  cases operation with
  | setExpression markup field =>
    rw [after_setExpression]
    split
    · rename_i name text hname htext
      obtain ⟨hexpression, hkey⟩ := expressionField_eq_ok hname
      -- an expression is no part of a system
      exact Form.Complete.set_parameter h hkey fun _ =>
        Form.isSystemPart_of_isExpression hexpression
    · exact h
  | update fields => exact h.update fields
  | resize size =>
    apply h.withForm
    intro taken htaken
    obtain ⟨hkind, htaken⟩ := guarded_eq_ok.mp htaken
    obtain ⟨n, hn, htaken⟩ := bind_eq_ok.mp htaken
    cases htaken
    exact Form.Complete.resized h (not_not.mp hkind) (Form.sizeOf_pos hn)
  | setCell row column v =>
    apply h.withForm
    intro taken htaken
    exact Form.Complete.setCell h (mapError_eq_ok.mp htaken)
  | setRhs index v =>
    apply h.withForm
    intro taken htaken
    exact Form.Complete.setRhs h (mapError_eq_ok.mp htaken)
  | setGuess index v =>
    apply h.withForm
    intro taken htaken
    exact Form.Complete.setGuess h (mapError_eq_ok.mp htaken)
  | loadExample name =>
    apply h.withForm
    intro taken htaken
    obtain ⟨hkind, htaken⟩ := guarded_eq_ok.mp htaken
    obtain ⟨system, hsystem, htaken⟩ := bind_eq_ok.mp htaken
    cases htaken
    obtain ⟨text, htext⟩ := exampleOf_eq_ok hsystem
    exact Form.Complete.withExample h (not_not.mp hkind) htext
  | selectTab tab =>
    rcases after_selectTab s tab with hs | ⟨found, hs⟩ <;> rw [hs] <;> exact h

end FormulaDesk.Session
