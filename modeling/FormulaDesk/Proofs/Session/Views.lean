import FormulaDesk.Proofs.Graph.Runs
import FormulaDesk.Proofs.Session.Course
import FormulaDesk.Proofs.Session.Failures

/-! # The three views of an equation

A session keeps its equation as typed markup, as the expression in the form and as the drawing on the
widget. Typing writes all three. An update writes the form alone, and the other two stay behind.

`EquationSource` is kept beside the session: the markup last typed and what an update has put over
it since. `Tracks` says what the three views are, given the source; every step of a course keeps it,
and `views_in_step_iff` tells from the source whether the views agree.
-/

namespace FormulaDesk

namespace Graph.Board

/-- A widget that is ready, over a backend that records whatever it is given. -/
structure Recording (b : Board Unit) : Prop where
  attached : b.attached = some ()
  ready : b.ready = true
  accepts : (b.backends ()).refusals = {}

variable {b : Board Unit} {equation : String}

/-- There is nothing to draw of an empty equation. -/
theorem Recording.plot_empty (h : b.Recording) : (b.plot "").value.2 = b := by
  simp only [plot, h.attached]
  rfl

/-- A recorder that is ready notes the plan of every plot. -/
theorem Recording.plot (h : b.Recording) (hequation : equation ≠ "") :
    (b.plot equation).value.2.Recording ∧
      ((b.plot equation).value.2.backends ()).commands = plan equation := by
  have hdrawing : b.control.drawing? (.plot equation) = some ((), equation) := by
    simp [control, Control.drawing?, h.attached, h.ready, hequation]
  have hbackends : (b.plot equation).value.2.backends ()
      = (b.backends ()).drawn equation := by
    have hafter := congrFun (backends_of_drawing hdrawing) ()
    rw [Control.drawing, Function.update_self] at hafter
    exact hafter
  -- the widget is ready, so nothing becomes pending
  have hcontrol : (b.plot equation).value.2.control = b.control := by
    refine (control_after b (.plot equation)).trans ?_
    simp [control, Control.next, h.ready]
  have hreset : (b.backends ()).RecordsAfterReset := by
    intro hrefused
    rw [h.accepts] at hrefused
    exact absurd rfl hrefused
  refine ⟨⟨?_, ?_, ?_⟩, ?_⟩
  · exact (congrArg Control.attached hcontrol).trans h.attached
  · exact (congrArg Control.ready hcontrol).trans h.ready
  · rw [hbackends, Backend.drawn, Backend.draw_refusals]
    exact h.accepts
  · rw [hbackends, hreset.drawn_eq_iff, Backend.report_ok, Backend.refusal, Backend.firstRefused,
      h.accepts]
    simp

end Graph.Board

namespace Session

/-! ## Where the equation comes from -/

/-- What wrote the equation of a session. -/
structure EquationSource where
  /-- The markup last typed. -/
  typed : Option String := none
  /-- What an update has put in the place of its conversion since. -/
  override : Option Json := none

namespace EquationSource

/-- The conversion of the markup last typed. -/
def expression (d : EquationSource) : String := (Conversion.evaluableOf (d.typed.getD "")).value

/-- What stands in the form. -/
def equation (d : EquationSource) : Json := d.override.getD (.str d.expression)

/-- The source after an operation on a session. -/
def after (d : EquationSource) (s : Session) : Operation → EquationSource
  | .setExpression markup field =>
    match s.expressionField field, markupText markup.value with
    | .ok name, .ok text => if name = "equation" then { typed := some text } else d
    | _, _ => d
  | .update fields =>
    { d with override := (Fields.get? (s.written fields).reverse "equation").or d.override }
  | _ => d

/-- The value that an update has put over the conversion is the conversion, or, if nothing was ever
typed, one that is empty or the equation that was drawn before. -/
def Agrees (d : EquationSource) (earlier : List String) : Prop :=
  ∀ v, d.override = some v →
    match d.typed with
    | some _ => v = .str d.expression
    | none => v.isPresent = true → ∃ text, v = .str text ∧ earlier = Graph.plan text

end EquationSource

/-- The source after events in turn. -/
def Course.source (c : Course) (d : EquationSource) : List Event → EquationSource
  | [] => d
  | event :: events =>
    (c.next event).source ((event.operation?.map (d.after c.session)).getD d) events

/-! ## What the views are -/

/-- The views of the equation, given its source and the commands that were drawn before. -/
structure Tracks (earlier : List String) (d : EquationSource) (s : Session) : Prop where
  kind : s.method.kind = .equation
  form : s.form.get? "equation" = some d.equation
  markup : (s.markup.get? "equation").map markupText = d.typed.map .ok
  widget : ∃ b, s.board = some b ∧ b.Recording ∧
    (d.expression ≠ "" → (b.backends ()).commands = Graph.plan d.expression) ∧
    (d.typed = none → (b.backends ()).commands = earlier)

variable {s t : Session} {d : EquationSource} {earlier : List String} {c : Course}

/-- What a session tracks depends on its draft alone. -/
theorem Tracks.of_sameDraft (h : Tracks earlier d s) (hst : SameDraft s t) :
    Tracks earlier d t where
  kind := by rw [← hst.method, h.kind]
  form := by rw [← hst.form, h.form]
  markup := by rw [← hst.markup, h.markup]
  widget := by
    rw [← hst.board]
    exact h.widget

/-- Taking a form with the same equation, or refusing one, keeps the views as they were. -/
theorem Tracks.withForm (h : Tracks earlier d s) {form : Except Failure Fields}
    (hform : ∀ taken, form = .ok taken → taken.get? "equation" = s.form.get? "equation") :
    Tracks earlier d (s.withForm form).2 := by
  cases form with
  | error failure => exact h
  | ok taken => exact ⟨h.kind, (hform taken rfl).trans h.form, h.markup, h.widget⟩

/-- No field of a system is the equation. -/
theorem get?_equation_set_of_isSystemPart {form : Fields} {field : String} (v : Json)
    (hfield : Form.isSystemPart field = true) :
    (form.set field v).get? "equation" = form.get? "equation" := by
  apply Fields.get?_set_of_ne
  rintro rfl
  revert hfield
  decide

/-! ## Typing -/

/-- The expression that was typed is the conversion of its markup. -/
theorem expression_typed (text : String) :
    ({ typed := some text } : EquationSource).expression = (Conversion.evaluableOf text).value :=
  rfl

/-- Typing an equation sets the form and the graph together. -/
theorem Tracks.withExpression (h : Tracks earlier d s) {markup : Json} {text : String}
    (htext : markupText markup = .ok text) :
    Tracks earlier { typed := some text } (s.withExpression markup "equation" text) where
  kind := h.kind
  form := Fields.get?_set_self _ _ _
  markup := by
    show ((s.markup.set "equation" markup).get? "equation").map markupText = _
    rw [Fields.get?_set_self, Option.map_some, htext]
    rfl
  widget := by
    obtain ⟨b, hboard, hrecording, -⟩ := h.widget
    rw [expression_typed]
    refine ⟨(b.plot (Conversion.evaluableOf text).value).value.2, ?_, ?_, ?_, ?_⟩
    · simp only [Session.withExpression, if_true, hboard, Option.map_some]
    · by_cases hempty : (Conversion.evaluableOf text).value = ""
      · rw [hempty, hrecording.plot_empty]
        exact hrecording
      · exact (hrecording.plot hempty).1
    · intro hpresent
      exact (hrecording.plot hpresent).2
    · rintro ⟨⟩

/-- Typing into another field leaves all views of the equation alone. -/
theorem Tracks.withExpression_of_ne (h : Tracks earlier d s) (markup : Json) {name : String}
    (text : String) (hname : name ≠ "equation") :
    Tracks earlier d (s.withExpression markup name text) where
  kind := h.kind
  form := (Fields.get?_set_of_ne _ _ hname.symm).trans h.form
  markup := (congrArg _ (Fields.get?_set_of_ne _ _ hname.symm)).trans h.markup
  widget := by
    have hboard : (s.withExpression markup name text).board = s.board := if_neg hname
    rw [hboard]
    exact h.widget

/-! ## Updating -/

/-- The last override is the one that counts. -/
theorem equation_override (d : EquationSource) (w : Option Json) :
    ({ d with override := w.or d.override } : EquationSource).equation
      = w.getD d.equation := by
  cases w <;> rfl

/-- An update may override the equation, and never redraws. -/
theorem Tracks.update (h : Tracks earlier d s) (fields : Fields) :
    Tracks earlier (d.after s (.update fields)) (s.update fields).2 := by
  rw [update_session]
  refine ⟨h.kind, ?_, h.markup, h.widget⟩
  show Fields.get? (s.form.update (s.written fields)) "equation" = some (EquationSource.equation _)
  rw [EquationSource.after, equation_override, Fields.get?_update, h.form]
  cases Fields.get? (s.written fields).reverse "equation" <;> rfl

/-! ## Steps and runs -/

/-- Every operation moves the source of the equation as `EquationSource.after` says. -/
theorem Tracks.after (h : Tracks earlier d s) (operation : Operation) :
    Tracks earlier (d.after s operation) (s.after operation) := by
  have hkind : s.method.kind ≠ .system := by simp [h.kind]
  cases operation with
  | setExpression markup field =>
    rw [after_setExpression, EquationSource.after]
    cases s.expressionField field with
    | error failure => exact h
    | ok name =>
      cases htext : markupText markup.value with
      | error fault => exact h
      | ok text =>
        by_cases hname : name = "equation"
        · subst hname
          simpa using h.withExpression htext
        · simpa [hname] using h.withExpression_of_ne markup.value text hname
  | update fields => exact h.update fields
  -- there is no system to resize or to load
  | resize size =>
    apply h.withForm
    intro taken htaken
    exact absurd (not_not.mp (guarded_eq_ok.mp htaken).1) hkind
  | loadExample name =>
    apply h.withForm
    intro taken htaken
    exact absurd (not_not.mp (guarded_eq_ok.mp htaken).1) hkind
  | setCell row column v =>
    apply h.withForm
    intro taken htaken
    obtain ⟨rows, i, items, j, x, -, -, rfl⟩ := Form.setCell_eq_ok (mapError_eq_ok.mp htaken)
    exact get?_equation_set_of_isSystemPart _ (by decide)
  | setRhs index v =>
    apply h.withForm
    intro taken htaken
    obtain ⟨items, i, x, -, rfl⟩ := Form.setEntry_eq_ok (mapError_eq_ok.mp htaken)
    exact get?_equation_set_of_isSystemPart _ (by decide)
  | setGuess index v =>
    apply h.withForm
    intro taken htaken
    obtain ⟨items, i, x, -, rfl⟩ := Form.setEntry_eq_ok (mapError_eq_ok.mp htaken)
    apply get?_equation_set_of_isSystemPart
    cases s.method <;> decide
  | selectTab tab =>
    rcases after_selectTab s tab with hs | ⟨found, hs⟩ <;> rw [hs]
    · exact h
    · exact h.of_sameDraft ⟨rfl, rfl, rfl, rfl⟩

/-- An event of a course moves the source as its operation does. -/
theorem Tracks.next (h : Tracks earlier d c.session) (event : Event) :
    Tracks earlier ((event.operation?.map (d.after c.session)).getD d)
      (c.next event).session := by
  have hstep := c.step_next event
  generalize c.next event = c' at hstep ⊢
  cases hstep with
  | operated operation => exact h.after operation
  | refused _ => exact h
  | unsent failure _ _ =>
    exact h.of_sameDraft ⟨rfl, rfl, rfl, rfl⟩
  | launched request sent _ _ => exact h.of_sameDraft ⟨rfl, rfl, rfl, rfl⟩
  | stray event hend _ =>
    -- what ends a submission is no operation
    cases event <;> first | exact h | cases hend
  | completed request outcome _ =>
    have hdraft := sameDraft_finished c.session
      (c.session.client.solve c.session.method.slug request outcome).result
    exact h.of_sameDraft ⟨hdraft.method.symm, hdraft.board.symm, hdraft.form.symm,
      hdraft.markup.symm⟩
  | brokenOff request _ => exact h.of_sameDraft ⟨rfl, rfl, rfl, rfl⟩

/-- After a whole course the session shows the source the course leaves: by induction on its
events. -/
theorem Tracks.run (h : Tracks earlier d c.session) (events : List Event) :
    Tracks earlier (c.source d events) (c.run events).session := by
  induction events generalizing c d with
  | nil => exact h
  | cons event events ih => exact ih (h.next event)

/-- A new session has an empty equation, and nothing was typed. -/
theorem tracks_opened {m : Method} (hkind : m.kind = .equation) (client : Client)
    {b : Graph.Board Unit} (h : b.Recording) :
    Tracks (b.backends ()).commands {} (opened m client (some b)) where
  kind := hkind
  form := by
    cases m with
    | jacobi => cases hkind
    | gaussSeidel => cases hkind
    | _ => rfl
  markup := rfl
  widget := ⟨b, rfl, h, fun hempty => absurd rfl hempty, fun _ => rfl⟩

/-! ## The views in step -/

/-- The equation, unless it is empty, is what is drawn, and it is the conversion of the markup, if
there is any. -/
structure InStep (s : Session) : Prop where
  drawn : ∀ v, s.form.get? "equation" = some v → v.isPresent = true →
    ∃ text b, v = .str text ∧ s.board = some b ∧
      (b.backends ()).commands = Graph.plan text
  typed : ∀ markup, s.markup.get? "equation" = some markup →
    ∃ text, markupText markup = .ok text ∧
      s.form.get? "equation" = some (.str (Conversion.evaluableOf text).value)

/-- The form agrees with the markup exactly when the equation is the one that was typed. -/
theorem Tracks.typed_iff (h : Tracks earlier d s) :
    (∀ markup, s.markup.get? "equation" = some markup →
      ∃ text, markupText markup = .ok text ∧
        s.form.get? "equation" = some (.str (Conversion.evaluableOf text).value)) ↔
      (d.typed ≠ none → d.equation = .str d.expression) := by
  rw [h.form]
  have hmarkup := h.markup
  unfold EquationSource.expression
  cases htyped : d.typed with
  | none =>
    rw [htyped, Option.map_none, Option.map_eq_none_iff] at hmarkup
    simp [hmarkup]
  | some text =>
    rw [htyped, Option.map_some, Option.map_eq_some_iff] at hmarkup
    obtain ⟨markup, hmarkup, htext⟩ := hmarkup
    simp [hmarkup, htext]

/-- An override is what stands in the form. -/
theorem equation_of_override {v : Json} (h : d.override = some v) : d.equation = v := by
  rw [EquationSource.equation, h, Option.getD_some]

/-- With markup the equation is its conversion, whether or not an update wrote it again. -/
theorem EquationSource.Agrees.equation_eq (h : d.Agrees earlier)
    (hor : d.typed ≠ none ∨ d.override = none) : d.equation = .str d.expression := by
  cases hoverride : d.override with
  | none => rw [EquationSource.equation, hoverride, Option.getD_none]
  | some v =>
    obtain ⟨text, htext⟩ := Option.ne_none_iff_exists'.mp (hor.resolve_right (by simp [hoverride]))
    have hv := h v hoverride
    rw [htext] at hv
    rw [equation_of_override hoverride]
    exact hv

/-- Views that are in step agree on the source. -/
theorem Tracks.agrees (h : Tracks earlier d s) (hstep : s.InStep) : d.Agrees earlier := by
  obtain ⟨b, hboard, -, -, hearlier⟩ := h.widget
  intro v hoverride
  have hequation := equation_of_override hoverride
  split
  · next text hsome =>
    rw [← hequation]
    exact h.typed_iff.mp hstep.typed (by simp [hsome])
  · next hnone =>
    intro hpresent
    obtain ⟨text, b', hv, hb', hcommands⟩ := hstep.drawn v (hequation ▸ h.form) hpresent
    cases hboard.symm.trans hb'
    exact ⟨text, hv, (hearlier hnone).symm.trans hcommands⟩

/-- Views that agree on the source are in step. -/
theorem Tracks.inStep (h : Tracks earlier d s) (hagrees : d.Agrees earlier) : s.InStep := by
  obtain ⟨b, hboard, -, hdrawn, hearlier⟩ := h.widget
  refine ⟨?_, h.typed_iff.mpr fun hsome => hagrees.equation_eq (.inl hsome)⟩
  intro v hv hpresent
  obtain rfl : d.equation = v := Option.some.inj (h.form.symm.trans hv)
  -- either the equation is what was typed last, or an update put one over it
  by_cases hwritten : d.typed ≠ none ∨ d.override = none
  · rw [hagrees.equation_eq hwritten] at hpresent ⊢
    have hempty : d.expression ≠ "" := by simpa [Json.isPresent] using hpresent
    exact ⟨_, b, rfl, hboard, hdrawn hempty⟩
  · -- nothing was ever typed: the drawing is the one from before
    rw [not_or, not_not] at hwritten
    obtain ⟨w, hoverride⟩ := Option.ne_none_iff_exists'.mp hwritten.2
    have hw := hagrees w hoverride
    rw [hwritten.1] at hw
    rw [equation_of_override hoverride] at hpresent ⊢
    obtain ⟨text, hwtext, htext⟩ := hw hpresent
    exact ⟨text, b, hwtext, hboard, (hearlier hwritten.1).trans htext⟩

/-- Being in step is agreeing on the source. -/
theorem Tracks.inStep_iff (h : Tracks earlier d s) : s.InStep ↔ d.Agrees earlier :=
  ⟨h.agrees, h.inStep⟩

/-- Only updates that name the equation put anything over what was typed. -/
theorem override_after (hoverride : d.override = none) (s : Session) {operation : Operation}
    (h : ∀ fields, operation = .update fields → "equation" ∉ fields.keys) :
    (d.after s operation).override = none := by
  cases operation with
  | setExpression markup field =>
    unfold EquationSource.after
    dsimp only
    split
    · split
      · rfl
      · exact hoverride
    · exact hoverride
  | update fields =>
    -- what an update stores is among what it is given
    have hwritten : Fields.get? (s.written fields).reverse "equation" = none := by
      rw [Fields.get?_eq_none_iff, Fields.keys, List.map_reverse, List.mem_reverse]
      intro hmem
      exact h fields rfl ((prefix_keys_written s fields).subset hmem)
    rw [EquationSource.after, hwritten, hoverride, Option.none_or]
  | _ => exact hoverride

/-- A course that never updates the equation leaves no override. -/
theorem Course.source_override {events : List Event} (hoverride : d.override = none)
    (hevents : ∀ fields, .operate (.update fields) ∈ events → "equation" ∉ fields.keys) :
    (c.source d events).override = none := by
  induction events generalizing c d with
  | nil => exact hoverride
  | cons event events ih =>
    apply ih
    · cases event with
      | operate operation =>
        apply override_after hoverride c.session
        rintro fields rfl
        exact hevents fields List.mem_cons_self
      | _ => exact hoverride
    · exact fun fields hmem => hevents fields (List.mem_cons_of_mem _ hmem)

/-- A session for an equation with a widget that is ready, over a recording backend. After every
course of operations and submissions the views of the equation agree exactly if its source does: no
update has written the equation since it was typed, or one has written what is typed, or, where
nothing ever was, what was drawn before. So they agree as long as no update names the equation. -/
theorem views_in_step_iff {slug : String} {client : Client} {b : Graph.Board Unit}
    (hopen : Session.open slug client (some b) = .ok s) (hkind : s.method.kind = .equation)
    (hb : b.Recording) (events : List Event) :
    let c : Course := { session := s }
    ((c.run events).session.InStep ↔ (c.source {} events).Agrees (b.backends ()).commands) ∧
    ((∀ fields, .operate (.update fields) ∈ events → "equation" ∉ fields.keys) →
      (c.run events).session.InStep) := by
  intro c
  obtain ⟨m, -, rfl⟩ := open_eq_ok.mp hopen
  have htracks : Tracks _ {} c.session := tracks_opened hkind client hb
  have hiff := (htracks.run events).inStep_iff
  refine ⟨hiff, fun hevents => hiff.mpr fun v hv => ?_⟩
  rw [Course.source_override rfl hevents] at hv
  cases hv

/-- An equation that an update writes is not drawn. -/
theorem views_in_step_iff_updated :
    let b : Graph.Board Unit := { backends := fun _ => {}, attached := some (), ready := true }
    let s := opened .bisection Client.usual (some b)
    let events := [Event.operate (.update [("equation", .str "x-1")])]
    Session.open "biseccion" Client.usual (some b) = .ok s ∧ s.method.kind = .equation ∧
      b.Recording ∧ ¬ (Course.run { session := s } events).session.InStep := by
  intro b s events
  have hopen : Session.open "biseccion" Client.usual (some b) = .ok s :=
    open_eq_ok.mpr ⟨.bisection, rfl, rfl⟩
  have hb : b.Recording := ⟨rfl, rfl, rfl⟩
  refine ⟨hopen, rfl, hb, fun hstep => ?_⟩
  have hagrees := (views_in_step_iff hopen rfl hb events).1.mp hstep
  obtain ⟨text, -, hplan⟩ := hagrees (.str "x-1") rfl rfl
  exact Graph.plan_ne_nil text hplan.symm

end Session

end FormulaDesk
