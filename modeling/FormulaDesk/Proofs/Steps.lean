import FormulaDesk.Failure

/-! # Steps that can fail

How a sequence of steps succeeds and how it fails: a `_eq_ok` lemma takes a success apart into those
of its steps, a `_eq_error` lemma names the step at which it failed.
-/

namespace FormulaDesk

variable {ε ε' α β : Type} {x : Except ε α} {e : ε}

theorem exists_ok_iff : (∃ a, x = .ok a) ↔ ∀ e, x ≠ .error e := by
  cases x <;> simp

theorem exists_ok_of_any {test : α → Bool} (h : x.toOption.any test = true) :
    ∃ a, x = .ok a ∧ test a = true := by
  cases x with
  | error e => cases h
  | ok a => exact ⟨a, rfl, h⟩

/-! ## One step after another -/

theorem bind_eq_ok {f : α → Except ε β} {b : β} :
    (x >>= f) = .ok b ↔ ∃ a, x = .ok a ∧ f a = .ok b := by
  cases x <;> simp [bind, Except.bind]

theorem bind_eq_error {f : α → Except ε β} :
    (x >>= f) = .error e ↔ x = .error e ∨ ∃ a, x = .ok a ∧ f a = .error e := by
  cases x <;> simp [bind, Except.bind]

/-- What stands behind a check only counts if the check passes. -/
theorem guarded_eq_ok {c : Prop} [Decidable c] {a : α} :
    (do
      if c then throw e
      x) = .ok a ↔ ¬ c ∧ x = .ok a := by
  by_cases hc : c
  · simp [hc, throw, throwThe, MonadExceptOf.throw, bind, Except.bind]
  · simp [hc]

/-! ## Changes of a result -/

theorem map_eq_ok {f : α → β} {b : β} : x.map f = .ok b ↔ ∃ a, x = .ok a ∧ f a = b := by
  cases x <;> simp [Except.map]

theorem map_eq_error {f : α → β} : x.map f = .error e ↔ x = .error e := by
  cases x <;> simp [Except.map]

@[simp]
theorem mapError_ok (f : ε → ε') (a : α) : (Except.ok a).mapError f = .ok a := rfl

@[simp]
theorem mapError_error (f : ε → ε') (e : ε) :
    (Except.error e : Except ε α).mapError f = .error (f e) := rfl

/-- A change of every result of the second step is a change of the result. -/
theorem bind_eq_map_bind {γ : Type} {f : α → Except ε β} {g : α → Except ε γ} {u : β → γ}
    (h : ∀ a, g a = (f a).map u) : (x >>= g) = (x >>= f).map u := by
  cases x with
  | error e => rfl
  | ok a => exact h a

theorem mapError_eq_ok {f : ε → ε'} {a : α} : x.mapError f = .ok a ↔ x = .ok a := by
  cases x <;> simp

/-! ## Lists -/

/-- A walk over a list fails at the first item that fails. -/
theorem mapM_eq_error {f : α → Except ε β} {items : List α} :
    items.mapM f = .error e ↔ ∃ before item after, items = before ++ item :: after ∧
      (∀ x ∈ before, ∃ y, f x = .ok y) ∧ f item = .error e := by
  induction items with
  | nil => simp [pure, Except.pure]
  | cons x rest ih =>
    -- the walk fails at the head or, if the head passes, where the tail fails
    rw [List.mapM_cons, bind_eq_error]
    constructor
    · rintro (hx | ⟨y, hx, hrest⟩)
      · exact ⟨[], x, rest, rfl, by simp, hx⟩
      · obtain hrest | ⟨_, _, hpure⟩ := bind_eq_error.mp hrest
        · obtain ⟨before, item, after, rfl, hbefore, hitem⟩ := ih.mp hrest
          refine ⟨x :: before, item, after, rfl, ?_, hitem⟩
          exact List.forall_mem_cons.mpr ⟨⟨y, hx⟩, hbefore⟩
        · cases hpure
    · rintro ⟨before, item, after, heq, hbefore, hitem⟩
      cases before with
      | nil =>
        cases heq
        exact .inl hitem
      | cons z before =>
        cases heq
        obtain ⟨⟨y, hx⟩, hbefore⟩ := List.forall_mem_cons.mp hbefore
        have hrest := ih.mpr ⟨before, item, after, rfl, hbefore, hitem⟩
        exact .inr ⟨y, hx, bind_eq_error.mpr (.inl hrest)⟩

end FormulaDesk
