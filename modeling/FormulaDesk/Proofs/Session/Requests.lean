import FormulaDesk.Proofs.Method.Building
import FormulaDesk.Proofs.Session.Forms

/-! # Requests from complete forms

A complete form passes every check on the way to a request: its names are those of the method
(`Complete.takes`), its start vector is present, and its system has a shape. The request has the
values of the form, in the order of the method's fields.
-/

namespace FormulaDesk.Form

variable {m : Method} {form : Fields} {n : Nat} {v : Json}

/-! ## Names and values -/

theorem Complete.takes (h : Complete m form) : Request.Takes m form where
  known := by
    intro name hname
    exact h.mem_keys.mp hname
  needed := by
    intro name hname
    exact h.mem_keys.mpr (m.requiredNames_subset hname)

/-- The request takes every value as the form has it. -/
theorem Complete.fill_perm (h : Complete m form) : (Request.fill m.fields form).Perm form := by
  have hkeys := Request.keys_fill h.takes
  apply Fields.perm_of_get?
  · rw [hkeys]
    exact m.nodup_fieldNames
  · exact h.keys.nodup_iff.mpr m.nodup_fieldNames
  intro k
  by_cases hk : k ∈ m.fieldNames
  · obtain ⟨v, hv⟩ := Fields.get?_of_mem_keys (h.mem_keys.mpr hk)
    obtain ⟨f, hf, rfl⟩ := List.mem_map.mp hk
    rw [Request.get?_fill h.takes hf, Request.taken_of_get? hv, hv]
  · have hfill : k ∉ (Request.fill m.fields form).keys := hkeys ▸ hk
    rw [Fields.get?_eq_none_iff.mpr hfill, eq_comm, Fields.get?_eq_none_iff, h.mem_keys]
    exact hk

/-! ## The shape of the system -/

theorem IsVector.size? (h : IsVector n v) : v.size? = some n := by
  obtain ⟨items, rfl, rfl, -⟩ := h
  rfl

theorem IsVector.isPresent (h : IsVector n v) (hn : 1 ≤ n) : v.isPresent = true := by
  obtain ⟨items, rfl, rfl, -⟩ := h
  cases items with
  | nil => simp at hn
  | cons item items => rfl

theorem IsMatrix.isSquare (h : IsMatrix n v) (hn : 1 ≤ n) : Request.IsSquare n v := by
  obtain ⟨rows, rfl, hlength, hrows⟩ := h
  refine ⟨Nat.one_le_iff_ne_zero.mp hn, congrArg some hlength, ?_⟩
  intro row hrow
  exact (hrows row hrow).size?

/-! ## Building -/

/-- A complete form is a request. -/
theorem Complete.build (h : Complete m form) :
    Request.build m.slug form = .ok ⟨m, Request.fill m.fields form⟩ := by
  have hslug : "slug" ∉ form.keys := fun hmem => m.slug_not_mem (h.mem_keys.mp hmem)
  cases hguess : m.guess? with
  | none =>
    rw [Request.build_equation hslug h.takes hguess, Request.sent_of_equation h.takes hguess]
  | some guess =>
    obtain ⟨hkind, rfl⟩ := Method.guess?_eq_some_iff.mp hguess
    obtain ⟨n, hn⟩ := h.system hkind
    obtain ⟨a, ha, hmatrix⟩ := hn.matrix
    obtain ⟨b, hb, hrhs⟩ := hn.rhs
    obtain ⟨x, hx, hstart⟩ := hn.guess
    have hgiven : Request.givenStart form (guessField m) = x := by simp [Request.givenStart, hx]
    -- a vector of at least one number is present, so no zeros take its place
    have hsent : Request.startOf form (guessField m) = .ok x := by
      rw [Request.startOf, hgiven, if_pos (hstart.isPresent hn.pos)]
    have hshape : Request.checkSystem (Request.valueOf form "A") (Request.valueOf form "b") x =
        .ok () := by
      simp only [Request.valueOf, ha, hb, Option.getD_some]
      exact Request.checkSystem_of_fits (hmatrix.isSquare hn.pos) hrhs.size? hstart.size?
    rw [Request.build_system hslug h.takes hguess, hsent, ← Request.sent_givenStart h.takes hguess,
      hgiven]
    simp only [hshape, Except.map]

end FormulaDesk.Form
