import FormulaDesk.Proofs.Session.Submission

/-! # Operations that raise

All operations but one look at everything first and write then. An update takes its fields in turn:
`written` is what it has stored by the time it ends, and an update that raises keeps it.

* `update_session`, `update_eq_error`: what an update leaves, and where it raises;
* `raise_keeps_session`: every other operation that raises leaves the session as it was, and an
  update does so exactly if what it had stored was there before.
-/

namespace FormulaDesk.Session

variable {s t : Session} {field : String} {v stored : Json} {fields : Fields} {failure : Failure}

/-! ## One field -/

/-- The value that a session stores for a field, or why it refuses the field. -/
def taken (s : Session) (field : String) (v : Json) : Except Failure Json :=
  if !s.form.contains field || (s.method.kind == .system && Form.isSystemPart field) then
    .error (.invalid (.noField s.method.slug field))
  else (Form.parameter field v).mapError .value

/-- The session with a value in a field of its form. -/
def withValue (s : Session) (field : String) (stored : Json) : Session :=
  { s with form := s.form.set field stored }

theorem updateOne_eq (s : Session) (field : String) (v : Json) :
    s.updateOne field v = (s.taken field v).map (s.withValue field) := by
  unfold updateOne taken
  split
  · rfl
  · cases Form.parameter field v <;> rfl

/-- Sessions of one method with the same fields take and refuse the same. -/
theorem taken_congr (hmethod : t.method = s.method) (hkeys : t.form.keys = s.form.keys) :
    t.taken = s.taken := by
  funext field v
  have hcontains : t.form.contains field = s.form.contains field := by
    rw [Bool.eq_iff_iff, Fields.contains_iff_mem_keys, Fields.contains_iff_mem_keys, hkeys]
  unfold taken
  rw [hmethod, hcontains]

theorem mem_keys_of_taken (h : s.taken field v = .ok stored) : field ∈ s.form.keys := by
  unfold taken at h
  split at h
  · cases h
  · rename_i hfield
    simp only [Bool.or_eq_true, not_or, Bool.not_eq_true', Bool.not_eq_false] at hfield
    exact Fields.contains_iff_mem_keys.mp hfield.1

/-- Whatever was stored so far, the next field is judged the same. -/
theorem taken_withValue (h : s.taken field v = .ok stored) :
    (s.withValue field stored).taken = s.taken :=
  taken_congr rfl (Fields.keys_set stored (mem_keys_of_taken h))

/-! ## Updates -/

/-- What an update stores: the values of its fields up to the first that is refused. -/
def written (s : Session) : Fields → Fields
  | [] => []
  | (field, v) :: rest =>
    match s.taken field v with
    | .ok stored => (field, stored) :: s.written rest
    | .error _ => []

theorem written_congr (h : t.taken = s.taken) (fields : Fields) :
    t.written fields = s.written fields := by
  induction fields with
  | nil => rfl
  | cons kv rest ih => rw [written, written, h, ih]

/-- An update stores what it takes and changes nothing else, whether or not it raises. -/
theorem update_session (s : Session) (fields : Fields) :
    (s.update fields).2 = { s with form := s.form.update (s.written fields) } := by
  induction fields generalizing s with
  | nil => rfl
  | cons kv rest ih =>
    obtain ⟨field, v⟩ := kv
    rw [update, updateOne_eq, written]
    cases htaken : s.taken field v with
    | error failure => rfl
    | ok stored =>
      simp only [Except.map, ih, written_congr (taken_withValue htaken)]
      rfl

theorem update_result (s : Session) (fields : Fields) :
    (s.update fields).1 = (fields.mapM fun kv => s.taken kv.1 kv.2).map fun _ => () := by
  induction fields generalizing s with
  | nil => rfl
  | cons kv rest ih =>
    obtain ⟨field, v⟩ := kv
    rw [update, updateOne_eq, List.mapM_cons]
    cases htaken : s.taken field v with
    | error failure => rfl
    | ok stored =>
      simp only [Except.map, ih, taken_withValue htaken]
      cases rest.mapM fun kv => s.taken kv.1 kv.2 <;> rfl

theorem keys_written_append {before rest : Fields}
    (hbefore : ∀ kv ∈ before, ∃ stored, s.taken kv.1 kv.2 = .ok stored)
    (hrefused : s.taken field v = .error failure) :
    (s.written (before ++ (field, v) :: rest)).keys = before.keys := by
  induction before with
  | nil => simp [written, hrefused, Fields.keys]
  | cons kv before ih =>
    rw [List.forall_mem_cons] at hbefore
    obtain ⟨⟨stored, hstored⟩, hbefore⟩ := hbefore
    simp [written, hstored, ih hbefore]

/-- An update raises at the first field that is refused, when those before it are stored. -/
theorem update_eq_error (h : (s.update fields).1 = .error failure) :
    ∃ before field v rest, fields = before ++ (field, v) :: rest ∧
      (s.written fields).keys = Fields.keys before ∧ s.taken field v = .error failure := by
  rw [update_result, map_eq_error, mapM_eq_error] at h
  obtain ⟨before, ⟨field, v⟩, rest, rfl, hbefore, hrefused⟩ := h
  exact ⟨before, field, v, rest, rfl, keys_written_append hbefore hrefused, hrefused⟩

theorem prefix_keys_written (s : Session) (fields : Fields) :
    (s.written fields).keys <+: fields.keys := by
  induction fields with
  | nil => exact List.prefix_rfl
  | cons kv rest ih =>
    rw [written]
    cases s.taken kv.1 kv.2 with
    | error failure => exact List.nil_prefix
    | ok stored => exact List.prefix_cons_inj _ |>.mpr ih

/-! ## All operations -/

theorem withForm_of_error {form : Except Failure Fields}
    (h : (s.withForm form).1 = .error failure) : (s.withForm form).2 = s := by
  cases form with
  | error refusal => rfl
  | ok taken => cases h

theorem selectTab_of_error {tab : Json} (h : (s.selectTab tab).1 = .error failure) :
    (s.selectTab tab).2 = s := by
  unfold selectTab at h ⊢
  dsimp only at h ⊢
  split at h
  · rfl
  · split at h <;> cases h

theorem setExpression_of_error {markup : Typed} {expression : Json}
    (h : (s.setExpression markup expression).value.1 = .error failure) :
    (s.setExpression markup expression).value.2 = s := by
  unfold setExpression at h ⊢
  cases hname : s.expressionField expression with
  | error refusal => rfl
  | ok name =>
    cases htext : markupText markup.value with
    | error fault => rfl
    | ok text =>
      -- once the field and the markup are accepted the operation returns the conversion
      simp only [hname, htext] at h
      split at h <;> cases h

/-- An operation that raises leaves the session as it was, unless it is an update. An update that
raises leaves everything but the form, and there it has stored the fields before the one that is
refused; so it leaves the session as it was exactly if their values were there already. -/
theorem raise_keeps_session (s : Session) (operation : Operation) {failure : Failure}
    (hraise : (s.perform operation).value.1 = .error failure) :
    match operation with
    | .update fields =>
      s.after operation = { s with form := s.form.update (s.written fields) } ∧
      (∃ before field v rest, fields = before ++ (field, v) :: rest ∧
        (s.written fields).keys = Fields.keys before ∧ s.taken field v = .error failure) ∧
      (fields.keys.Nodup →
        (s.after operation = s ↔ ∀ kv ∈ s.written fields, s.form.get? kv.1 = some kv.2))
    | _ => s.after operation = s := by
  cases operation with
  | setExpression markup field => exact setExpression_of_error (map_eq_error.mp hraise)
  | update fields =>
    have hafter : s.after (.update fields) = _ := s.update_session fields
    refine ⟨hafter, update_eq_error (map_eq_error.mp hraise), fun hnames => ?_⟩
    -- the stored fields are some of those given, so their names are distinct too
    have hwritten := (s.prefix_keys_written fields).sublist.nodup hnames
    rw [hafter, ← Fields.update_eq_self_iff hwritten]
    constructor
    · intro hsame
      exact congrArg Session.form hsame
    · intro hform
      rw [hform]
  | resize size => exact withForm_of_error (map_eq_error.mp hraise)
  | setCell row column v => exact withForm_of_error (map_eq_error.mp hraise)
  | setRhs index v => exact withForm_of_error (map_eq_error.mp hraise)
  | setGuess index v => exact withForm_of_error (map_eq_error.mp hraise)
  | loadExample name => exact withForm_of_error (map_eq_error.mp hraise)
  | selectTab tab => exact selectTab_of_error (map_eq_error.mp hraise)

/-- The iteration cap is changed although the update raises. -/
theorem raise_keeps_session_halfDone :
    let s := opened .bisection Client.usual none
    let fields := [("max_iter", Json.int 50), ("zzz", .int 1)]
    ∃ failure, (s.perform (.update fields)).value.1 = .error failure ∧
      failure.message = "biseccion has no field 'zzz'" ∧ s.after (.update fields) ≠ s := by
  intro s fields
  have hraise : (s.perform (.update fields)).value.1
      = .error (.invalid (.noField "biseccion" "zzz")) := rfl
  refine ⟨_, hraise, by decide, fun hsame => ?_⟩
  have hold := (((raise_keeps_session s (.update fields) hraise).2.2 (by decide)).mp hsame)
    ("max_iter", .int 50) List.mem_cons_self
  cases hold

end FormulaDesk.Session
