import FormulaDesk.Proofs.Method.RootProblem
import FormulaDesk.Proofs.Session.Sending

/-! # Filling in a form

A root problem can be entered in any order and in any portions. Each operation writes its portion
into the form as it is (`form_after`), so all of them together write the problem over the defaults
(`form_afterAll`), and the form says to the method what the problem says (`body_afterAll`).
-/

namespace FormulaDesk

namespace Form

variable {m : Method} {f : Method.Field} {v : Json}

/-- A new form of an equation has every default, and no text for the equation. -/
theorem get?_initial (hkind : m.kind = .equation) (hf : f ∈ m.fields) :
    (initial m).get? f.name = some (f.default.getD (.str "")) := by
  have hinitial : initial m = m.fields.map fun f => (f.name, f.default.getD (.str "")) := by
    cases m <;> first | rfl | cases hkind
  rw [hinitial]
  exact Fields.get?_map _ m.nodup_fieldNames hf

theorem parameter_of_isExpression {k : String} (hk : isExpression k = true) (v : Json) :
    parameter k v = .ok v := by
  rw [parameter, if_pos hk]

/-- Only an expression is kept as a text. -/
theorem isExpression_of_parameter {k e : String} (h : parameter k (.str e) = .ok (.str e)) :
    isExpression k = true := by
  by_contra hk
  rw [parameter, if_neg hk] at h
  split at h
  · obtain ⟨n, -, hn⟩ := map_eq_ok.mp h
    cases hn
  · obtain ⟨x, -, hx⟩ := map_eq_ok.mp h
    cases hx

/-- A number that suits a field is stored as it is. -/
theorem parameter_of_suits (hf : f ∈ m.fields) (hv : f.Suits v) : parameter f.name v = .ok v := by
  have hexpression : isExpression f.name = false := by
    simpa [isExpression] using hv.name_ne hf
  -- the whole fields are those whose default is a whole number
  have hall : m.fields.all (fun f => f.default.all fun usual =>
      if usual.kind == .int then isWhole f.name else !(usual.kind == .float && isWhole f.name)) =
        true := by
    cases m <;> decide +kernel
  have hfield := List.all_eq_true.mp hall f hf
  rw [parameter, hexpression, if_neg Bool.false_ne_true]
  cases hv with
  | @real name usual x hx =>
    have hwhole : isWhole name = false := by simpa [Json.kind] using hfield
    rw [hwhole, if_neg Bool.false_ne_true]
    rfl
  | @whole name usual n hn =>
    have hwhole : isWhole name = true := by simpa [Json.kind] using hfield
    rw [hwhole, if_pos rfl]
    rfl

end Form

theorem RootProblem.parameter_of_mem {m : Method} {p : RootProblem m} {kv : String × Json}
    (h : kv ∈ p.fields) : Form.parameter kv.1 kv.2 = .ok kv.2 := by
  rcases List.mem_append.mp h with h | h
  · apply Form.parameter_of_isExpression
    rw [Form.isExpression, decide_eq_true_eq]
    exact (mem_expressions h).2.1
  · obtain ⟨f, hf, hname, hsuits⟩ := p.suits kv h
    rw [← hname]
    exact Form.parameter_of_suits hf hsuits

namespace Session

variable {s : Session} {operation : Operation} {portion : Fields}

/-- What an operation enters: an expression in the evaluable dialect, or parameters. -/
inductive Operation.Enters : Operation → Fields → Prop
  | expression (markup field : String) :
    Enters (.setExpression (.str markup) (.str field))
      [(field, .str (Conversion.evaluableOf markup).value)]
  | parameters (fields : Fields) : Enters (.update fields) fields

/-- The form has the fields and stores their values as they are. -/
def Accepts (s : Session) (fields : Fields) : Prop :=
  ∀ kv ∈ fields, kv.1 ∈ s.form.keys ∧ Form.parameter kv.1 kv.2 = .ok kv.2

theorem update_accepted (hkind : s.method.kind = .equation) {fields : Fields}
    (h : s.Accepts fields) : (s.update fields).2 = { s with form := s.form.update fields } := by
  induction fields generalizing s with
  | nil => rfl
  | cons kv rest ih =>
    obtain ⟨hkey, hstored⟩ := h kv List.mem_cons_self
    have hone : s.updateOne kv.1 kv.2 = .ok { s with form := s.form.set kv.1 kv.2 } := by
      rw [updateOne, hstored, Fields.contains_iff_mem_keys.mpr hkey, hkind]
      rfl
    -- what is stored does not change which fields the form has
    have hrest : ({ s with form := s.form.set kv.1 kv.2 } : Session).Accepts rest := by
      intro kv' hkv'
      obtain ⟨hkey', hstored'⟩ := h kv' (List.mem_cons_of_mem _ hkv')
      refine ⟨?_, hstored'⟩
      rw [Fields.keys_set kv.2 hkey]
      exact hkey'
    unfold update
    rw [hone]
    exact ih hkind hrest

theorem markupText_str (markup : String) : markupText (.str markup) = .ok markup := by
  unfold markupText
  split
  · rename_i habsent
    have hempty : markup = "" := by simpa [Json.isPresent] using habsent
    rw [hempty]
  · rfl

/-- An operation writes what it enters. -/
theorem form_after (hkind : s.method.kind = .equation) (h : operation.Enters portion)
    (haccepts : s.Accepts portion) : (s.after operation).form = s.form.update portion := by
  cases h with
  | expression markup field =>
    obtain ⟨hkey, hstored⟩ := haccepts _ List.mem_cons_self
    have hfield : s.expressionField (.str field) = .ok field := by
      have hexpression := Form.isExpression_of_parameter hstored
      have hcontains := Fields.contains_iff_mem_keys.mpr hkey
      simp only [expressionField, Json.display, hexpression, hcontains, Bool.and_self, if_true]
    rw [after_setExpression, hfield, Typed.str, markupText_str]
    rfl
  | parameters fields =>
    show (s.update portion).2.form = _
    rw [update_accepted hkind haccepts]

theorem form_afterAll (hs : s.IsComplete) (hkind : s.method.kind = .equation)
    {operations : List Operation} {portions : List Fields}
    (h : List.Forall₂ Operation.Enters operations portions)
    (haccepts : s.Accepts portions.flatten) :
    (s.afterAll operations).form = s.form.update portions.flatten := by
  induction h generalizing s with
  | nil => rfl
  | @cons operation portion operations portions hfirst _ ih =>
    have hportion : s.Accepts portion := fun kv hkv =>
      haccepts kv (List.mem_append_left portions.flatten hkv)
    have hframe := after_frame s operation
    have hcomplete := complete_after hs operation
    -- an operation keeps the method, and with it the names in the form
    have hrest : (s.after operation).Accepts portions.flatten := by
      intro kv hkv
      obtain ⟨hkey, hstored⟩ := haccepts kv (List.mem_append_right portion hkv)
      refine ⟨?_, hstored⟩
      rw [Form.Complete.mem_keys hcomplete, hframe.method]
      exact (Form.Complete.mem_keys hs).mp hkey
    have hafter := ih hcomplete (hframe.method ▸ hkind) hrest
    rw [List.flatten_cons, Fields.update_append, ← form_after hkind hfirst hportion]
    exact hafter

theorem afterAll_frame (s : Session) (operations : List Operation) :
    SameOutcome s (s.afterAll operations) := by
  induction operations generalizing s with
  | nil => exact SameOutcome.refl s
  | cons operation operations ih => exact (after_frame s operation).trans (ih (s.after operation))

theorem complete_afterAll (hs : s.IsComplete) (operations : List Operation) :
    (s.afterAll operations).IsComplete := by
  induction operations generalizing s with
  | nil => exact hs
  | cons operation operations ih => exact ih (complete_after hs operation)

/-- Once a problem is entered the form says what the problem says. -/
theorem body_afterAll {m : Method} (p : RootProblem m) (client : Client)
    (board : Option (Graph.Board Unit)) {operations : List Operation} {portions : List Fields}
    (h : List.Forall₂ Operation.Enters operations portions)
    (hportions : portions.flatten.Perm p.fields) :
    ((opened m client board).afterAll operations).body = p.body := by
  have hnodup : (Fields.keys portions.flatten).Nodup :=
    (hportions.map Prod.fst).nodup_iff.mpr p.nodup_fields
  have hopened : (opened m client board).IsComplete := Form.complete_initial m
  have haccepts : (opened m client board).Accepts portions.flatten := by
    intro kv hkv
    have hmem := hportions.mem_iff.mp hkv
    refine ⟨?_, RootProblem.parameter_of_mem hmem⟩
    exact (Form.Complete.mem_keys hopened).mpr (p.known _ (List.mem_map_of_mem hmem))
  have hform := form_afterAll hopened p.kind h haccepts
  have hcomplete := complete_afterAll hopened operations
  have hmethod := (afterAll_frame (opened m client board) operations).method
  generalize (opened m client board).afterAll operations = s at hform hcomplete hmethod
  have htakes : Request.Takes m s.form := by
    have htaken := Form.Complete.takes hcomplete
    rwa [hmethod] at htaken
  show Request.fill s.method.fields s.form = Request.fill m.fields p.fields
  rw [hmethod]
  show Request.fill m.fields s.form = _
  rw [Request.fill_eq htakes, Request.fill_eq p.takes]
  apply List.map_congr_left
  intro f hf
  have hget : s.form.get? f.name = (p.fields.get? f.name).or (some (f.default.getD (.str ""))) := by
    rw [hform, Fields.get?_update_of_nodup _ hnodup, Fields.get?_of_perm hnodup hportions]
    exact congrArg _ (Form.get?_initial p.kind hf)
  cases hgiven : p.fields.get? f.name with
  | some v =>
    rw [hgiven, Option.some_or] at hget
    rw [Request.taken_of_get? hget, Request.taken_of_get? hgiven]
  | none =>
    rw [hgiven, Option.none_or] at hget
    rw [Request.taken_of_get? hget]
    cases hdefault : f.default with
    | some v => simp [Request.taken, hgiven, hdefault]
    | none =>
      -- what has no default is needed, and the problem has it
      have hneeded := p.takes.needed f.name (Method.mem_requiredNames.mpr ⟨f, hf, hdefault, rfl⟩)
      exact absurd hneeded (Fields.get?_eq_none_iff.mp hgiven)

/-! ## Sending -/

namespace Course

theorem run_append (c : Course) (events more : List Event) :
    c.run (events ++ more) = (c.run events).run more := List.foldl_append

/-- Operations send nothing. -/
theorem run_operations (c : Course) (operations : List Operation) :
    c.run (operations.map .operate) = { c with session := c.session.afterAll operations } := by
  induction operations generalizing c with
  | nil => rfl
  | cons operation operations ih => exact ih (c.next (.operate operation))

/-- A problem that is entered and submitted is sent once. -/
theorem sent_of_problem {m : Method} (p : RootProblem m) {client : Client}
    {board : Option (Graph.Board Unit)} {s : Session}
    (hopen : Session.open m.slug client board = .ok s)
    {operations : List Operation} {portions : List Fields}
    (h : List.Forall₂ Operation.Enters operations portions)
    (hportions : portions.flatten.Perm p.fields) (outcome : Outcome) :
    (({ session := s } : Course).run
      (operations.map .operate ++ [.submit, .complete outcome])).sent = [client.post m p.body] := by
  obtain ⟨m', hslug, rfl⟩ := open_eq_ok.mp hopen
  obtain rfl := Method.slug_inj hslug
  have hbody := body_afterAll p client board h hportions
  have hopened : (opened m' client board).IsComplete := Form.complete_initial m'
  have hcomplete := complete_afterAll hopened operations
  have hframe := afterAll_frame (opened m' client board) operations
  rw [run_append, run_operations]
  dsimp only
  -- from here on only the form counts, and that it can be sent
  generalize (opened m' client board).afterAll operations = s at hbody hcomplete hframe
  have hidle : s.loading = false := hframe.loading
  have hfinite : (Json.obj s.form).isFinite = true := by
    rw [← hcomplete.isFinite_body, hbody]
    exact p.isFinite_body
  have hsent := (hcomplete.submit hidle outcome).1 hfinite
  show ((({ session := s } : Course).next .submit).next (.complete outcome)).sent = _
  rw [next_submit_complete hidle rfl, hsent, hframe.client, hframe.method, hbody]
  rfl

end Course

end Session

end FormulaDesk
