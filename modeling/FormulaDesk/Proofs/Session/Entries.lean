import FormulaDesk.Session.Form
import FormulaDesk.Proofs.Steps

/-! # What entries change

A typed value lands in one place of a form or nowhere. `setCell_eq_ok` and `setEntry_eq_ok` say all
that a successful change can be: one number of the matrix, or one number of a vector.
-/

namespace FormulaDesk

namespace Entry

theorem position_lt {size i : Nat} {index : Json} {outside : ValueFault}
    (h : position size index outside = .ok i) : i < size := by
  -- an index below zero counts from the end, once
  have hplace : ∀ n : Int, position.place size outside n = .ok i → i < size := by
    intro n hn
    unfold position.place at hn
    split at hn
    · cases hn
    · dsimp only at hn
      generalize (if n < 0 then n + (size : Int) else n) = fromStart at hn
      split at hn
      · cases hn
        omega
      · cases hn
  unfold position at h
  split at h
  · exact hplace _ h
  · exact hplace _ h
  · cases h

theorem item_eq_ok {v index cell : Json} {i : Nat} (h : item v index = .ok (i, cell)) :
    ∃ items, v = .arr items ∧ items[i]? = some cell := by
  unfold item at h
  split at h
  · rename_i items
    obtain ⟨j, hposition, hcell⟩ := bind_eq_ok.mp h
    cases hcell
    have hj := position_lt hposition
    exact ⟨items, rfl, by simp [hj]⟩
  · cases h

theorem assign_eq_ok {v index changed : Json} {x : Float} (h : assign v index x = .ok changed) :
    ∃ items i, v = .arr items ∧ changed = .arr (items.set i (.float x)) := by
  unfold assign at h
  split at h
  · rename_i items
    obtain ⟨i, -, hchanged⟩ := bind_eq_ok.mp h
    cases hchanged
    exact ⟨items, i, rfl, rfl⟩
  · cases h

end Entry

namespace Form

variable {form after : Fields} {field : String} {index row column v : Json}

theorem value_eq_ok (h : value form field = .ok v) : form.get? field = some v := by
  unfold value at h
  split at h
  · cases h
    assumption
  · cases h

/-- A change of the matrix replaces one number of one row. -/
theorem setCell_eq_ok (h : setCell form row column v = .ok after) :
    ∃ rows i items j x, form.get? "A" = some (.arr rows) ∧ rows[i]? = some (.arr items) ∧
      after = form.set "A" (.arr (rows.set i (.arr (items.set j (.float x))))) := by
  unfold setCell at h
  obtain ⟨x, -, h⟩ := bind_eq_ok.mp h
  obtain ⟨matrix, hmatrix, h⟩ := bind_eq_ok.mp h
  obtain ⟨⟨i, cells⟩, hcells, h⟩ := bind_eq_ok.mp h
  obtain ⟨changed, hchanged, h⟩ := bind_eq_ok.mp h
  obtain ⟨rows, rfl, hrow⟩ := Entry.item_eq_ok hcells
  obtain ⟨items, j, rfl, rfl⟩ := Entry.assign_eq_ok hchanged
  cases h
  exact ⟨rows, i, items, j, x, value_eq_ok hmatrix, hrow, rfl⟩

/-- A change of a vector replaces one of its numbers. -/
theorem setEntry_eq_ok (h : setEntry form field index v = .ok after) :
    ∃ items i x, form.get? field = some (.arr items) ∧
      after = form.set field (.arr (items.set i (.float x))) := by
  unfold setEntry at h
  obtain ⟨x, -, h⟩ := bind_eq_ok.mp h
  obtain ⟨vector, hvector, h⟩ := bind_eq_ok.mp h
  obtain ⟨changed, hchanged, h⟩ := bind_eq_ok.mp h
  obtain ⟨items, i, rfl, rfl⟩ := Entry.assign_eq_ok hchanged
  cases h
  exact ⟨items, i, x, value_eq_ok hvector, rfl⟩

/-- A size that is accepted is positive. -/
theorem sizeOf_pos {n : Nat} (h : sizeOf v = .ok n) : 1 ≤ n := by
  have hint : ∀ z : Int, sizeOf.ofInt z = .ok n → 1 ≤ n := by
    intro z hz
    unfold sizeOf.ofInt at hz
    split at hz
    · cases hz
    · split at hz
      · cases hz
      · split at hz
        · cases hz
        · cases hz
          omega
  unfold sizeOf at h
  split at h
  · exact hint _ h
  · exact hint _ h
  · split at h <;> cases h
  · cases h

end Form

/-- The example systems are square and not empty. -/
theorem ExampleSystem.square_of_ofName? {name : String} {system : ExampleSystem}
    (h : ofName? name = some system) :
    1 ≤ system.rhs.length ∧ system.matrix.length = system.rhs.length ∧
      ∀ row ∈ system.matrix, row.length = system.rhs.length := by
  have hall : ∀ entry ∈ all, 1 ≤ entry.2.rhs.length ∧
      entry.2.matrix.length = entry.2.rhs.length ∧
      ∀ row ∈ entry.2.matrix, row.length = entry.2.rhs.length := by decide
  obtain ⟨before, after, hsplit, -⟩ := List.lookup_eq_some_iff.mp h
  exact hall (name, system) (by simp [hsplit])

end FormulaDesk
