import FormulaDesk.Method.Request
import FormulaDesk.Proofs.Steps

/-! # The shape of a linear system

The check of a system asks one value after the other for its size, whatever these values are. It
passes exactly for a square matrix with two vectors of its size (`checkSystem_eq_ok`). Otherwise
it stops at a value that has no size (`Unsized`) or at one of another size (`Mismatched`), and
`checkSystem_eq_error` tells which.
-/

namespace FormulaDesk.Request

variable {matrix rhs guess v : Json} {rows : List Json} {n k : Nat} {failure : Failure}

/-! ## Sizes -/

theorem sizeOf_of_some (h : v.size? = some n) : sizeOf v = .ok n := by
  simp [sizeOf, h]

theorem sizeOf_of_none (h : v.size? = none) : sizeOf v = .error (.noSize v.kind) := by
  simp [sizeOf, h]

theorem sizeOf_eq_ok : sizeOf v = .ok n ↔ v.size? = some n := by
  cases h : v.size? with
  | none => simp [sizeOf_of_none h]
  | some k => simp [sizeOf_of_some h]

/-- The first row that has not the size asked for. -/
def firstOther (n : Nat) (rows : List Json) : Option Json :=
  rows.find? fun row => row.size? ≠ some n

/-- No row is of another size exactly when all have the size. -/
theorem firstOther_eq_none : firstOther n rows = none ↔ ∀ row ∈ rows, row.size? = some n := by
  simp [firstOther]

/-- A walk over the rows ends at the first other row, and there only its size counts. -/
theorem someRowDiffers_eq_firstOther (n : Nat) (rows : List Json) :
    someRowDiffers n rows =
      match firstOther n rows with
      | none => .ok false
      | some row => (sizeOf row).map fun _ => true := by
  induction rows with
  | nil => rfl
  | cons row rows ih =>
    unfold someRowDiffers firstOther
    cases hsize : row.size? with
    | none => simp [sizeOf_of_none hsize, hsize, bind, Except.bind, Except.map]
    | some k =>
      by_cases hk : k = n
      · simpa [sizeOf_of_some hsize, hsize, hk, bind, Except.bind, firstOther] using ih
      · simp [sizeOf_of_some hsize, hsize, hk, bind, Except.bind, Except.map, pure, Except.pure]

/-- What has no size is a fault, not a finding. -/
theorem checkVector_of_none {problem : Nat → Nat → Problem} (h : v.size? = none) :
    checkVector problem n v = .error (.value (.noSize v.kind)) := by
  simp [checkVector, sizeOf_of_none h, bind, Except.bind]

/-- A size that differs is the finding it was checked for. -/
theorem checkVector_of_some {problem : Nat → Nat → Problem} (h : v.size? = some k) :
    checkVector problem n v = if k = n then .ok () else .error (.invalid (problem k n)) := by
  by_cases hk : k = n <;>
    simp [checkVector, sizeOf_of_some h, hk, bind, Except.bind, pure, Except.pure, throw, throwThe,
      MonadExceptOf.throw]

/-! ## Systems -/

/-- The rows that a walk over the matrix meets. -/
def rowsOf (matrix : Json) : List Json := matrix.entries?.getD []

/-- A matrix that is not empty, with rows of its own size. -/
structure IsSquare (n : Nat) (matrix : Json) : Prop where
  pos : n ≠ 0
  size : matrix.size? = some n
  rows : ∀ row ∈ rowsOf matrix, row.size? = some n

/-- The value that stops the check because it has no size. -/
inductive Unsized (matrix rhs guess : Json) : Json → Prop
  | matrix (h : matrix.size? = none) : Unsized matrix rhs guess matrix
  | row {n : Nat} {row : Json} (pos : n ≠ 0) (size : matrix.size? = some n)
      (first : firstOther n (rowsOf matrix) = some row) (h : row.size? = none) :
      Unsized matrix rhs guess row
  | rhs {n : Nat} (square : IsSquare n matrix) (h : rhs.size? = none) :
      Unsized matrix rhs guess rhs
  | guess {n : Nat} (square : IsSquare n matrix) (size : rhs.size? = some n)
      (h : guess.size? = none) : Unsized matrix rhs guess guess

/-- The problem that the check reports when the sizes do not match. -/
inductive Mismatched (matrix rhs guess : Json) : Problem → Prop
  | empty (h : matrix.size? = some 0) : Mismatched matrix rhs guess .emptySystem
  | row {n k : Nat} {row : Json} (pos : n ≠ 0) (size : matrix.size? = some n)
      (first : firstOther n (rowsOf matrix) = some row) (h : row.size? = some k) :
      Mismatched matrix rhs guess (.notSquare n)
  | rhs {n k : Nat} (square : IsSquare n matrix) (h : rhs.size? = some k) (hk : k ≠ n) :
      Mismatched matrix rhs guess (.rhsSize k n)
  | guess {n k : Nat} (square : IsSquare n matrix) (size : rhs.size? = some n)
      (h : guess.size? = some k) (hk : k ≠ n) : Mismatched matrix rhs guess (.guessSize k n)

/-! ## The check -/

/-- The check of a matrix that is not square ends at the first other row. -/
theorem checkSystem_of_other {row : Json} (pos : n ≠ 0) (size : matrix.size? = some n)
    (first : firstOther n (rowsOf matrix) = some row) :
    checkSystem matrix rhs guess =
      match row.size? with
      | none => .error (.value (.noSize row.kind))
      | some _ => .error (.invalid (.notSquare n)) := by
  unfold rowsOf at first
  cases hrow : row.size? with
  | none =>
    simp [checkSystem, sizeOf_of_some size, pos, someRowDiffers_eq_firstOther, first,
      sizeOf_of_none hrow, bind, Except.bind, Except.map]
  | some k =>
    simp [checkSystem, sizeOf_of_some size, pos, someRowDiffers_eq_firstOther, first,
      sizeOf_of_some hrow, bind, Except.bind, Except.map, throw, throwThe, MonadExceptOf.throw]

/-- Behind a square matrix only the vectors are left to check. -/
theorem checkSystem_of_square (h : IsSquare n matrix) :
    checkSystem matrix rhs guess = (do
      checkVector .rhsSize n rhs
      checkVector .guessSize n guess) := by
  have first := firstOther_eq_none.mpr h.rows
  unfold rowsOf at first
  simp [checkSystem, sizeOf_of_some h.size, h.pos, someRowDiffers_eq_firstOther, first, bind,
    Except.bind]

/-- A system that fits passes the check. -/
theorem checkSystem_of_fits (h : IsSquare n matrix) (hrhs : rhs.size? = some n)
    (hguess : guess.size? = some n) : checkSystem matrix rhs guess = .ok () := by
  rw [checkSystem_of_square h, checkVector_of_some hrhs, checkVector_of_some hguess, if_pos rfl,
    if_pos rfl]
  rfl

/-- A part without a size leaves the check with a fault. -/
theorem checkSystem_of_unsized (h : Unsized matrix rhs guess v) :
    checkSystem matrix rhs guess = .error (.value (.noSize v.kind)) := by
  cases h with
  | matrix h => simp [checkSystem, sizeOf_of_none h, bind, Except.bind]
  | row pos size first h => rw [checkSystem_of_other pos size first, h]
  | rhs square h =>
    rw [checkSystem_of_square square, checkVector_of_none h]
    rfl
  | guess square size h =>
    rw [checkSystem_of_square square, checkVector_of_some size, if_pos rfl, checkVector_of_none h]
    rfl

/-- A part of another size is the first finding in the order of the check. -/
theorem checkSystem_of_mismatched {problem : Problem} (h : Mismatched matrix rhs guess problem) :
    checkSystem matrix rhs guess = .error (.invalid problem) := by
  cases h with
  | empty h =>
    simp [checkSystem, sizeOf_of_some h, bind, Except.bind, throw, throwThe, MonadExceptOf.throw]
  | row pos size first h => rw [checkSystem_of_other pos size first, h]
  | rhs square h hk =>
    rw [checkSystem_of_square square, checkVector_of_some h, if_neg hk]
    rfl
  | guess square size h hk =>
    rw [checkSystem_of_square square, checkVector_of_some size, if_pos rfl, checkVector_of_some h,
      if_neg hk]
    rfl

/-- Three values fit together, or one of them stops the check. -/
theorem shape_cases (matrix rhs guess : Json) :
    (∃ n, IsSquare n matrix ∧ rhs.size? = some n ∧ guess.size? = some n) ∨
      (∃ v, Unsized matrix rhs guess v) ∨ ∃ problem, Mismatched matrix rhs guess problem := by
  -- the checks are made in this order, so each case has those before it passed
  cases hsize : matrix.size? with
  | none => exact .inr (.inl ⟨_, .matrix hsize⟩)
  | some n =>
    by_cases hn : n = 0
    · exact .inr (.inr ⟨_, .empty (hn ▸ hsize)⟩)
    cases hfirst : firstOther n (rowsOf matrix) with
    | some row =>
      cases hrow : row.size? with
      | none => exact .inr (.inl ⟨_, .row hn hsize hfirst hrow⟩)
      | some k => exact .inr (.inr ⟨_, .row hn hsize hfirst hrow⟩)
    | none =>
      have square : IsSquare n matrix := ⟨hn, hsize, firstOther_eq_none.mp hfirst⟩
      cases hrhs : rhs.size? with
      | none => exact .inr (.inl ⟨_, .rhs square hrhs⟩)
      | some k =>
        by_cases hk : k = n
        · subst hk
          cases hguess : guess.size? with
          | none => exact .inr (.inl ⟨_, .guess square hrhs hguess⟩)
          | some j =>
            by_cases hj : j = k
            · exact .inl ⟨k, square, rfl, hj ▸ rfl⟩
            · exact .inr (.inr ⟨_, .guess square hrhs hguess hj⟩)
        · exact .inr (.inr ⟨_, .rhs square hrhs hk⟩)

/-- The check passes exactly for systems that fit. -/
theorem checkSystem_eq_ok : checkSystem matrix rhs guess = .ok () ↔
    ∃ n, IsSquare n matrix ∧ rhs.size? = some n ∧ guess.size? = some n := by
  constructor
  · intro h
    rcases shape_cases matrix rhs guess with hfits | ⟨v, hv⟩ | ⟨problem, hproblem⟩
    · exact hfits
    · rw [checkSystem_of_unsized hv] at h
      cases h
    · rw [checkSystem_of_mismatched hproblem] at h
      cases h
  · rintro ⟨n, square, hrhs, hguess⟩
    exact checkSystem_of_fits square hrhs hguess

/-- The check fails exactly for parts without a size and for mismatches, with the error of each. -/
theorem checkSystem_eq_error : checkSystem matrix rhs guess = .error failure ↔
    (∃ v, Unsized matrix rhs guess v ∧ failure = .value (.noSize v.kind)) ∨
      ∃ problem, Mismatched matrix rhs guess problem ∧ failure = .invalid problem := by
  constructor
  · intro h
    rcases shape_cases matrix rhs guess with ⟨n, square, hrhs, hguess⟩ | ⟨v, hv⟩ | ⟨problem, hp⟩
    · rw [checkSystem_of_fits square hrhs hguess] at h
      cases h
    · rw [checkSystem_of_unsized hv] at h
      cases h
      exact .inl ⟨v, hv, rfl⟩
    · rw [checkSystem_of_mismatched hp] at h
      cases h
      exact .inr ⟨problem, hp, rfl⟩
  · rintro (⟨v, hv, rfl⟩ | ⟨problem, hp, rfl⟩)
    · exact checkSystem_of_unsized hv
    · exact checkSystem_of_mismatched hp

end FormulaDesk.Request
