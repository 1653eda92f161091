import FormulaDesk.Graph.Widget
import Mathlib.Data.List.Infix
import Mathlib.Data.List.TakeWhile

/-! # What a drawing leaves on a backend

A backend executes commands up to the first one that it refuses, after a reset that it may refuse as
well. Whatever it refuses, `Backend.draw_commands` says what is recorded and `Backend.draw_refusal`
which refusal is reported.
-/

namespace FormulaDesk.Graph

/-- The commands that draw an evaluable expression. -/
def plan (equation : String) : List String := commands (Conversion.graphingOf equation).value

/-- The commands that set the axes up are always there. -/
theorem plan_ne_nil (equation : String) : plan equation ≠ [] := by
  unfold plan commands
  split <;> simp [axesCommands]

namespace Backend

variable {x : Backend} {cs : List String}

/-- The first command that a backend refuses, with the text of the refusal. -/
def firstRefused (x : Backend) (cs : List String) : Option String :=
  cs.findSome? x.refusals.command

/-- What a backend refuses of a drawing: the reset before it, or else its first refused command. -/
def refusal (x : Backend) (cs : List String) : Option String :=
  x.refusals.reset.or (x.firstRefused cs)

theorem execute_refusal (x : Backend) (cs : List String) :
    (x.execute cs).2 = x.firstRefused cs := by
  induction cs generalizing x with
  | nil => rfl
  | cons c cs ih =>
    unfold execute
    cases hc : x.refusals.command c with
    | some cause => simp [firstRefused, hc]
    | none =>
      have hrest := ih { x with commands := x.commands ++ [c] }
      simpa [firstRefused, hc] using hrest

/-- Commands are recorded behind those that are there, up to the first refusal. -/
theorem execute_commands (x : Backend) (cs : List String) :
    (x.execute cs).1.commands
      = x.commands ++ cs.takeWhile fun c => (x.refusals.command c).isNone := by
  induction cs generalizing x with
  | nil => simp [execute]
  | cons c cs ih =>
    unfold execute
    cases hc : x.refusals.command c with
    | some cause => simp [hc]
    | none =>
      have hrest := ih { x with commands := x.commands ++ [c] }
      simpa [hc] using hrest

@[simp]
theorem execute_refusals (x : Backend) (cs : List String) :
    (x.execute cs).1.refusals = x.refusals := by
  induction cs generalizing x with
  | nil => rfl
  | cons c cs ih =>
    unfold execute
    split
    · rfl
    · exact ih _

/-- A drawing does not change what the backend refuses. -/
@[simp]
theorem draw_refusals (x : Backend) (cs : List String) : (x.draw cs).1.refusals = x.refusals := by
  unfold draw
  split
  · rfl
  · simp

theorem draw_refusal (x : Backend) (cs : List String) : (x.draw cs).2 = x.refusal cs := by
  unfold draw refusal
  cases hreset : x.refusals.reset with
  | some cause => rfl
  | none =>
    have hrest := execute_refusal { x with resets := x.resets + 1, commands := [] } cs
    simpa [firstRefused] using hrest

/-! ## One drawing -/

/-- The backend after the drawing of an equation. -/
def drawn (x : Backend) (equation : String) : Backend := (x.draw (plan equation)).1

theorem drawn_refusal (x : Backend) (equation : String) (cs : List String) :
    (x.drawn equation).refusal cs = x.refusal cs := by
  simp [drawn, refusal, firstRefused]

/-- The report of a drawing tells the first refusal. -/
def report (x : Backend) (equation : String) : Report :=
  match x.refusal (plan equation) with
  | some cause => .refused (Conversion.graphingOf equation).value cause
  | none => .drawn (Conversion.graphingOf equation).value (plan equation)

theorem report_ok (x : Backend) (equation : String) :
    (x.report equation).ok = true ↔ x.refusal (plan equation) = none := by
  unfold report
  cases x.refusal (plan equation) <;> simp [Report.refused, Report.drawn]

theorem report_error (x : Backend) (equation : String) :
    (x.report equation).error = x.refusal (plan equation) := by
  unfold report
  cases x.refusal (plan equation) <;> rfl

/-! ## What is recorded -/

/-- A backend that refuses the reset has nothing recorded. -/
def RecordsAfterReset (x : Backend) : Prop := x.refusals.reset ≠ none → x.commands = []

theorem RecordsAfterReset.drawn (h : x.RecordsAfterReset) (equation : String) :
    (x.drawn equation).RecordsAfterReset := by
  intro hreset
  unfold Backend.drawn at hreset ⊢
  rw [draw_refusals] at hreset
  unfold draw
  cases hx : x.refusals.reset with
  | some cause => exact h hreset
  | none => exact absurd hx hreset

/-- What is recorded are the commands before the first refusal. -/
theorem RecordsAfterReset.drawn_prefix (h : x.RecordsAfterReset) (equation : String) :
    (x.drawn equation).commands <+: plan equation := by
  unfold Backend.drawn draw
  cases hreset : x.refusals.reset with
  | some cause =>
    have hnil : x.commands = [] := h (by simp [hreset])
    simp [hnil]
  | none =>
    have hcommands :=
      execute_commands { x with resets := x.resets + 1, commands := [] } (plan equation)
    simp only [List.nil_append] at hcommands
    rw [hcommands]
    exact List.takeWhile_prefix _

/-- All commands are recorded exactly when the drawing is reported as done. -/
theorem RecordsAfterReset.drawn_eq_iff (h : x.RecordsAfterReset) (equation : String) :
    (x.drawn equation).commands = plan equation ↔ (x.report equation).ok = true := by
  rw [report_ok]
  unfold Backend.drawn draw refusal
  cases hreset : x.refusals.reset with
  | some cause =>
    have hnil : x.commands = [] := h (by simp [hreset])
    simp [hnil, (plan_ne_nil equation).symm]
  | none =>
    have hcommands :=
      execute_commands { x with resets := x.resets + 1, commands := [] } (plan equation)
    simp only [List.nil_append] at hcommands
    rw [hcommands, List.takeWhile_eq_self_iff]
    simp [firstRefused, List.findSome?_eq_none_iff, Option.isNone_iff_eq_none]

end Backend

end FormulaDesk.Graph
