import FormulaDesk.Proofs.Json.Fields
import FormulaDesk.Proofs.Method.Catalog
import FormulaDesk.Proofs.Session.Entries

/-! # Complete forms

A form is complete when it has the fields of its request and no others and, for a system, a square
matrix and two vectors of one size. New forms are complete, and whatever changes a form keeps it so:
`Complete.set` asks only that the key is there and that the system stays one.
-/

namespace FormulaDesk

namespace Method

/-- Only the system methods have a starting guess, under the name the form uses for it. -/
theorem guess?_eq_some_iff {m : Method} {guess : String} :
    m.guess? = some guess ↔ m.kind = .system ∧ Form.guessField m = guess := by
  cases m <;> simp [guess?, kind, Form.guessField, fieldNames, fields, stopFields]

/-- The form of a system method has a field for the matrix, for the right-hand side and for the
guess. -/
theorem system_names_mem {m : Method} (h : m.kind = .system) :
    "A" ∈ m.fieldNames ∧ "b" ∈ m.fieldNames ∧ Form.guessField m ∈ m.fieldNames := by
  cases m <;> simp [kind, Form.guessField, fieldNames, fields, stopFields] at h ⊢

end Method

namespace Form

variable {m : Method} {form after : Fields} {guess k : String} {n : Nat} {v : Json}

/-! ## Vectors and matrices -/

/-- A list of `n` numbers. -/
def IsVector (n : Nat) (v : Json) : Prop :=
  ∃ items, v = .arr items ∧ items.length = n ∧ ∀ item ∈ items, ∃ x, item = .float x

/-- A list of `n` rows, each of `n` numbers. -/
def IsMatrix (n : Nat) (v : Json) : Prop :=
  ∃ rows, v = .arr rows ∧ rows.length = n ∧ ∀ row ∈ rows, IsVector n row

/-- The zeros a resized form starts from are a vector of its size. -/
theorem isVector_zeros (n : Nat) : IsVector n (Request.zeros n) := by
  refine ⟨_, rfl, by simp, ?_⟩
  intro item hitem
  exact ⟨0, List.eq_of_mem_replicate hitem⟩

/-- The zero matrix a resized form starts from is square. -/
theorem isMatrix_zeroMatrix (n : Nat) : IsMatrix n (zeroMatrix n) := by
  refine ⟨_, rfl, by simp, ?_⟩
  intro row hrow
  rw [List.eq_of_mem_replicate hrow]
  exact isVector_zeros n

/-- A list of an example's coefficients is a vector of their number. -/
theorem isVector_coefficients (cs : List Int) :
    IsVector cs.length (.arr (cs.map ExampleSystem.coefficient)) := by
  refine ⟨_, rfl, by simp, ?_⟩
  intro item hitem
  obtain ⟨c, -, rfl⟩ := List.mem_map.mp hitem
  exact ⟨_, rfl⟩

/-- Writing one entry leaves a vector of the same size. -/
theorem IsVector.set {items : List Json} (h : IsVector n (.arr items)) (i : Nat) (x : Float) :
    IsVector n (.arr (items.set i (.float x))) := by
  obtain ⟨_, heq, hlength, hnumbers⟩ := h
  cases heq
  refine ⟨_, rfl, by simpa using hlength, ?_⟩
  intro item hitem
  rcases List.mem_or_eq_of_mem_set hitem with hold | rfl
  · exact hnumbers item hold
  · exact ⟨x, rfl⟩

/-- A row of a square matrix has the matrix's size. -/
theorem IsMatrix.row {rows : List Json} {row : Json} (h : IsMatrix n (.arr rows))
    (hrow : row ∈ rows) : IsVector n row := by
  obtain ⟨_, heq, -, hrows⟩ := h
  cases heq
  exact hrows row hrow

/-- Replacing a row by one of the right size leaves a square matrix. -/
theorem IsMatrix.set {rows : List Json} {row : Json} (h : IsMatrix n (.arr rows)) (i : Nat)
    (hrow : IsVector n row) : IsMatrix n (.arr (rows.set i row)) := by
  obtain ⟨_, heq, hlength, hrows⟩ := h
  cases heq
  refine ⟨_, rfl, by simpa using hlength, ?_⟩
  intro other hother
  rcases List.mem_or_eq_of_mem_set hother with hold | rfl
  · exact hrows other hold
  · exact hrow

/-! ## Systems -/

/-- A form holds a linear system of `n` unknowns, with the start vector under `guess`. -/
structure HoldsSystem (n : Nat) (guess : String) (form : Fields) : Prop where
  pos : 1 ≤ n
  matrix : ∃ v, form.get? "A" = some v ∧ IsMatrix n v
  rhs : ∃ v, form.get? "b" = some v ∧ IsVector n v
  guess : ∃ v, form.get? guess = some v ∧ IsVector n v

/-- Whether a form holds a system depends on its three fields alone. -/
theorem HoldsSystem.of_get? (h : HoldsSystem n guess form) (hA : after.get? "A" = form.get? "A")
    (hb : after.get? "b" = form.get? "b") (hguess : after.get? guess = form.get? guess) :
    HoldsSystem n guess after :=
  ⟨h.pos, hA ▸ h.matrix, hb ▸ h.rhs, hguess ▸ h.guess⟩

/-- A write beside the three fields of the system leaves the system as it was. -/
theorem HoldsSystem.set_other (h : HoldsSystem n guess form) (v : Json) (hA : k ≠ "A")
    (hb : k ≠ "b") (hguess : k ≠ guess) : HoldsSystem n guess (form.set k v) :=
  h.of_get? (Fields.get?_set_of_ne form v hA.symm) (Fields.get?_set_of_ne form v hb.symm)
    (Fields.get?_set_of_ne form v hguess.symm)

/-- The guess is called either `x0` or `initial_guess`. -/
theorem guessField_eq (m : Method) : guessField m = "x0" ∨ guessField m = "initial_guess" := by
  unfold guessField
  split <;> simp

/-- The guess has a field of its own. -/
theorem guessField_ne (m : Method) : guessField m ≠ "A" ∧ guessField m ≠ "b" := by
  rcases guessField_eq m with h | h <;> simp [h]

/-- Another matrix of the same size leaves a system of that size. -/
theorem HoldsSystem.set_matrix (h : HoldsSystem n (guessField m) form) (hv : IsMatrix n v) :
    HoldsSystem n (guessField m) (form.set "A" v) where
  pos := h.pos
  matrix := ⟨v, Fields.get?_set_self form "A" v, hv⟩
  rhs := by
    rw [Fields.get?_set_of_ne form v (by simp)]
    exact h.rhs
  guess := by
    rw [Fields.get?_set_of_ne form v (guessField_ne m).1]
    exact h.guess

/-- Another right-hand side of the same size leaves a system of that size. -/
theorem HoldsSystem.set_rhs (h : HoldsSystem n (guessField m) form) (hv : IsVector n v) :
    HoldsSystem n (guessField m) (form.set "b" v) where
  pos := h.pos
  matrix := by
    rw [Fields.get?_set_of_ne form v (by simp)]
    exact h.matrix
  rhs := ⟨v, Fields.get?_set_self form "b" v, hv⟩
  guess := by
    rw [Fields.get?_set_of_ne form v (guessField_ne m).2]
    exact h.guess

/-- Another guess of the same size leaves a system of that size. -/
theorem HoldsSystem.set_guess (h : HoldsSystem n (guessField m) form) (hv : IsVector n v) :
    HoldsSystem n (guessField m) (form.set (guessField m) v) where
  pos := h.pos
  matrix := by
    rw [Fields.get?_set_of_ne form v (guessField_ne m).1.symm]
    exact h.matrix
  rhs := by
    rw [Fields.get?_set_of_ne form v (guessField_ne m).2.symm]
    exact h.rhs
  guess := ⟨v, Fields.get?_set_self form (guessField m) v, hv⟩

/-- A resized form holds the zero system of that size, whatever it held before. -/
theorem holdsSystem_resized (m : Method) (form : Fields) (hn : 1 ≤ n) :
    HoldsSystem n (guessField m) (resized m form n) where
  pos := hn
  matrix := by
    refine ⟨zeroMatrix n, ?_, isMatrix_zeroMatrix n⟩
    unfold resized
    rw [Fields.get?_set_of_ne _ _ (guessField_ne m).1.symm, Fields.get?_set_of_ne _ _ (by simp),
      Fields.get?_set_self]
  rhs := by
    refine ⟨Request.zeros n, ?_, isVector_zeros n⟩
    unfold resized
    rw [Fields.get?_set_of_ne _ _ (guessField_ne m).2.symm, Fields.get?_set_self]
  guess := ⟨Request.zeros n, Fields.get?_set_self _ _ _, isVector_zeros n⟩

/-! ## Completeness -/

/-- A form has exactly the fields of its request and, for a system, a system of some size. -/
structure Complete (m : Method) (form : Fields) : Prop where
  keys : form.keys.Perm m.fieldNames
  system : m.kind = .system → ∃ n, HoldsSystem n (guessField m) form

/-- A complete form has the fields of its method and no other. -/
theorem Complete.mem_keys (h : Complete m form) : k ∈ form.keys ↔ k ∈ m.fieldNames :=
  h.keys.mem_iff

/-- A session starts with a complete form. -/
theorem complete_initial (m : Method) : Complete m (initial m) where
  keys := by cases m <;> decide
  system := by
    intro hkind
    refine ⟨defaultSize, ?_⟩
    unfold initial
    rw [hkind]
    exact holdsSystem_resized m _ (by decide)

/-- A key that is there may be written as long as the system stays one. -/
theorem Complete.set (h : Complete m form) (hk : k ∈ form.keys)
    (hsystem : ∀ n, m.kind = .system → HoldsSystem n (guessField m) form →
      HoldsSystem n (guessField m) (form.set k v)) : Complete m (form.set k v) where
  keys := Fields.keys_set_perm h.keys (h.mem_keys.mp hk) v
  system := by
    intro hkind
    obtain ⟨n, hn⟩ := h.system hkind
    exact ⟨n, hsystem n hkind hn⟩

/-- Writing a field that is no part of the system keeps the form complete: nothing is asked of the
value. -/
theorem Complete.set_parameter (h : Complete m form) (hk : k ∈ form.keys)
    (hpart : m.kind = .system → isSystemPart k = false) : Complete m (form.set k v) := by
  apply h.set hk
  intro n hkind hn
  have hnames := hpart hkind
  simp only [isSystemPart, List.contains_eq_mem, List.mem_cons, List.not_mem_nil, or_false,
    decide_eq_false_iff_not, not_or] at hnames
  obtain ⟨hA, hb, hx0, hinitial⟩ := hnames
  rcases guessField_eq m with hguess | hguess
  · exact hn.set_other v hA hb (hguess ▸ hx0)
  · exact hn.set_other v hA hb (hguess ▸ hinitial)

/-- The field of an expression is no part of a system. -/
theorem isSystemPart_of_isExpression (h : isExpression k = true) : isSystemPart k = false := by
  simp only [isExpression, decide_eq_true_eq] at h
  rcases h with rfl | rfl <;> decide

/-- Resizing to at least one unknown keeps the form complete. -/
theorem Complete.resized (h : Complete m form) (hkind : m.kind = .system) (hn : 1 ≤ n) :
    Complete m (resized m form n) where
  keys := by
    obtain ⟨hA, hb, hguess⟩ := Method.system_names_mem hkind
    have hmatrix := Fields.keys_set_perm h.keys hA (zeroMatrix n)
    have hrhs := Fields.keys_set_perm hmatrix hb (Request.zeros n)
    exact Fields.keys_set_perm hrhs hguess (Request.zeros n)
  system := fun _ => ⟨n, holdsSystem_resized m form hn⟩

/-- An edit of one matrix cell that is accepted keeps the form complete. -/
theorem Complete.setCell {row column : Json} (h : Complete m form)
    (hset : setCell form row column v = .ok after) : Complete m after := by
  obtain ⟨rows, i, items, j, x, hrows, hitems, rfl⟩ := setCell_eq_ok hset
  apply h.set (Fields.mem_keys_of_get? hrows)
  intro n _ hn
  obtain ⟨_, hmatrix, hshape⟩ := hn.matrix
  obtain rfl := Option.some.inj (hmatrix.symm.trans hrows)
  have hrow := hshape.row (List.mem_of_getElem? hitems)
  exact hn.set_matrix (hshape.set i (hrow.set j x))

/-- An edit of one entry of the right-hand side that is accepted keeps the form complete. -/
theorem Complete.setRhs {index : Json} (h : Complete m form)
    (hset : setEntry form "b" index v = .ok after) : Complete m after := by
  obtain ⟨items, i, x, hitems, rfl⟩ := setEntry_eq_ok hset
  apply h.set (Fields.mem_keys_of_get? hitems)
  intro n _ hn
  obtain ⟨_, hrhs, hshape⟩ := hn.rhs
  obtain rfl := Option.some.inj (hrhs.symm.trans hitems)
  exact hn.set_rhs (hshape.set i x)

/-- An edit of one entry of the guess that is accepted keeps the form complete. -/
theorem Complete.setGuess {index : Json} (h : Complete m form)
    (hset : setEntry form (guessField m) index v = .ok after) : Complete m after := by
  obtain ⟨items, i, x, hitems, rfl⟩ := setEntry_eq_ok hset
  apply h.set (Fields.mem_keys_of_get? hitems)
  intro n _ hn
  obtain ⟨_, hguess, hshape⟩ := hn.guess
  obtain rfl := Option.some.inj (hguess.symm.trans hitems)
  exact hn.set_guess (hshape.set i x)

/-- Loading a predefined system keeps the form complete. -/
theorem Complete.withExample {name : String} {system : ExampleSystem} (h : Complete m form)
    (hkind : m.kind = .system) (hsystem : ExampleSystem.ofName? name = some system) :
    Complete m (withExample m form system) := by
  obtain ⟨hpos, hrows, hsquare⟩ := ExampleSystem.square_of_ofName? hsystem
  have hresized := h.resized hkind hpos
  have hmatrix : IsMatrix system.rhs.length system.matrixValue := by
    refine ⟨_, rfl, by simpa using hrows, ?_⟩
    intro row hrow
    obtain ⟨cs, hcs, rfl⟩ := List.mem_map.mp hrow
    exact hsquare cs hcs ▸ isVector_coefficients cs
  have hrhs : IsVector system.rhs.length system.rhsValue := isVector_coefficients system.rhs
  obtain ⟨hA, hb, -⟩ := Method.system_names_mem hkind
  have hkeys := Fields.keys_set_perm hresized.keys hA system.matrixValue
  constructor
  · exact Fields.keys_set_perm hkeys hb system.rhsValue
  · intro _
    have hzeros := holdsSystem_resized m form hpos
    exact ⟨system.rhs.length, (hzeros.set_matrix hmatrix).set_rhs hrhs⟩

end Form

end FormulaDesk
