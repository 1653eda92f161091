import FormulaDesk.Method.Catalog

/-! # The catalog of methods

A slug stands for one method at most, and the names of a method's fields are all different. None of
them is a name that a call takes for itself.
-/

namespace FormulaDesk.Method

variable {m : Method} {slug guess : String}

theorem ofSlug_slug (m : Method) : ofSlug m.slug = .ok m := by
  cases m <;> rfl

theorem slug_of_ofSlug (h : ofSlug slug = .ok m) : m.slug = slug := by
  unfold ofSlug at h
  split at h
  · rename_i found hfound
    cases h
    have hslug := List.find?_some hfound
    exact beq_iff_eq.mp hslug
  · cases h

theorem slug_inj {m' : Method} (h : m'.slug = m.slug) : m' = m := by
  have hm := ofSlug_slug m'
  rw [h, ofSlug_slug m, Except.ok.injEq] at hm
  exact hm.symm

/-- Only a slug of the catalog is known. -/
theorem ofSlug_of_forall_ne (h : ∀ m : Method, m.slug ≠ slug) :
    ofSlug slug = .error (.unknownMethod slug (all.map (·.slug))) := by
  cases hslug : ofSlug slug with
  | ok m => exact absurd (slug_of_ofSlug hslug) (h m)
  | error problem =>
    unfold ofSlug at hslug
    split at hslug
    · cases hslug
    · rw [Except.error.injEq] at hslug
      rw [hslug]

theorem nodup_fieldNames (m : Method) : m.fieldNames.Nodup := by
  cases m <;> decide

theorem requiredNames_subset (m : Method) : m.requiredNames ⊆ m.fieldNames := by
  cases m <;> decide

theorem mem_requiredNames {name : String} :
    name ∈ m.requiredNames ↔ ∃ f ∈ m.fields, f.default = none ∧ f.name = name := by
  simp [requiredNames, and_assoc]

/-- No field has the name of the argument that every request takes first. -/
theorem self_not_mem (m : Method) : "self" ∉ m.fieldNames := by
  cases m <;> decide

theorem slug_not_mem (m : Method) : "slug" ∉ m.fieldNames := by
  cases m <;> decide

/-! ## Systems -/

/-- A system needs its matrix and its right-hand side; an absent start vector is empty. -/
theorem system_fields (h : m.guess? = some guess) :
    (⟨"A", none⟩ ∈ m.fields ∧ ⟨"b", none⟩ ∈ m.fields ∧ ⟨guess, some (.arr [])⟩ ∈ m.fields) ∧
      guess ≠ "A" ∧ guess ≠ "b" := by
  cases m <;> simp only [guess?, reduceCtorEq, Option.some.injEq] at h <;> subst h <;>
    simp [fields, stopFields]

/-- No start vector has the name of a field with an expression. -/
theorem guess?_ne_equation (m : Method) :
    m.guess? ≠ some "equation" ∧ m.guess? ≠ some "g_function" := by
  cases m <;> simp [guess?]

theorem kind_of_guess? (h : m.guess? = some guess) : m.kind = .system := by
  cases m <;> simp [guess?, kind] at h ⊢

theorem kind_of_guess?_none (h : m.guess? = none) : m.kind = .equation := by
  cases m <;> simp [guess?, kind] at h ⊢

end FormulaDesk.Method
