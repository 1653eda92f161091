import FormulaDesk.Proofs.Graph.Drawing

/-! # Calls on a widget

What each of the four calls does, told in two parts. `Control` is the widget itself, `Control.next`
what becomes of it and `Control.drawing?` the one drawing that a call makes, if it makes any; no
backend has a say in this. `Control.call_of_quiet` and `Control.call_of_drawing` say all that a call
does to the backends: nothing, or that one drawing.
-/

namespace FormulaDesk

namespace Graph

/-- A call on a widget. -/
inductive Call (ι : Type) where
  | attach (i : ι)
  | markReady
  | plot (equation : String)
  | dispose
deriving DecidableEq, Repr

/-! ## The widget itself -/

/-- What a widget is attached to, whether it is ready, and what is pending. -/
structure Control (ι : Type) where
  attached : Option ι := none
  ready : Bool := false
  pending : Option String := none
deriving DecidableEq

namespace Control

variable {ι : Type}

/-- The widget after a call. -/
def next (w : Control ι) : Call ι → Control ι
  | .attach i =>
    match w.attached with
    | none => { w with attached := some i, ready := false }
    | some _ => w
  | .markReady =>
    match w.attached with
    | none => w
    | some _ => { w with ready := true, pending := none }
  | .plot equation =>
    if w.attached.isSome && !w.ready && !equation.isEmpty then { w with pending := some equation }
    else w
  | .dispose => {}

/-- The backend and the equation of the drawing that a call makes, if it makes one. -/
def drawing? (w : Control ι) : Call ι → Option (ι × String)
  | .markReady => do
    let i ← w.attached
    let equation ← w.pending
    if equation.isEmpty then none else return (i, equation)
  | .plot equation => do
    let i ← w.attached
    if w.ready && !equation.isEmpty then return (i, equation) else none
  | _ => none

/-- The widget after a sequence of calls. -/
def run (w : Control ι) (cs : List (Call ι)) : Control ι := cs.foldl next w

@[simp]
theorem run_nil (w : Control ι) : w.run [] = w := rfl

@[simp]
theorem run_append (w : Control ι) (cs : List (Call ι)) (c : Call ι) :
    w.run (cs ++ [c]) = (w.run cs).next c := by
  simp [run]

/-- What holds of a widget between its calls. -/
structure Gated (w : Control ι) : Prop where
  attached_of_ready : w.ready = true → w.attached ≠ none
  attached_of_pending : w.pending ≠ none → w.attached ≠ none
  pending_of_ready : w.ready = true → w.pending = none
  pending_ne_empty : w.pending ≠ some ""

theorem gated_start : Gated ({} : Control ι) := by
  constructor <;> simp

theorem Gated.next {w : Control ι} (h : w.Gated) (c : Call ι) : (w.next c).Gated := by
  cases c with
  | attach i =>
    cases hattached : w.attached with
    | some j => simpa [Control.next, hattached] using h
    | none =>
      -- nothing can be pending before a backend is attached
      have hpending : w.pending = none := by
        by_contra hsome
        exact h.attached_of_pending hsome hattached
      constructor <;> simp [Control.next, hattached, hpending]
  | markReady =>
    cases hattached : w.attached with
    | none => simpa [Control.next, hattached] using h
    | some j => constructor <;> simp [Control.next, hattached]
  | plot equation =>
    by_cases hdefer : (w.attached.isSome && !w.ready && !equation.isEmpty) = true
    · simp only [Control.next, hdefer, if_true]
      simp only [Bool.and_eq_true, Bool.not_eq_true', String.isEmpty_eq_false_iff] at hdefer
      obtain ⟨⟨hattached, hwaiting⟩, hequation⟩ := hdefer
      have hne : w.attached ≠ none := Option.isSome_iff_ne_none.mp hattached
      constructor <;> simp [hwaiting, hequation, hne]
    · simpa [Control.next, hdefer] using h
  | dispose => exact gated_start

/-- A widget stays gated through all calls. -/
theorem Gated.run {w : Control ι} (h : w.Gated) (cs : List (Call ι)) : (w.run cs).Gated := by
  induction cs using List.reverseRecOn with
  | nil => exact h
  | append_singleton cs c ih =>
    rw [run_append]
    exact ih.next c

end Control

namespace Board

variable {ι : Type} [DecidableEq ι]

/-- What a call returns, if anything, and the board that it leaves. -/
def call (b : Board ι) : Call ι → Logged (Option Report × Board ι)
  | .attach i => do return (none, ← b.attach i)
  | .markReady => b.markReady
  | .plot equation => do
    let (report, after) ← b.plot equation
    return (some report, after)
  | .dispose => return (none, b.dispose)

/-- The board after a call. -/
def after (b : Board ι) (c : Call ι) : Board ι := (b.call c).value.2

/-- The board after a sequence of calls. -/
def run (b : Board ι) (cs : List (Call ι)) : Board ι := cs.foldl after b

@[simp]
theorem run_nil (b : Board ι) : b.run [] = b := rfl

@[simp]
theorem run_append (b : Board ι) (cs : List (Call ι)) (c : Call ι) :
    b.run (cs ++ [c]) = (b.run cs).after c := by
  simp [run]

def control (b : Board ι) : Control ι := ⟨b.attached, b.ready, b.pending⟩

end Board

/-- The widget with its backends. -/
def Control.board {ι : Type} (w : Control ι) (backends : ι → Backend) : Board ι :=
  ⟨backends, w.attached, w.ready, w.pending⟩

/-! ## One call -/

namespace Control

variable {ι : Type} [DecidableEq ι] {w : Control ι} {c : Call ι} {i : ι} {equation : String}

/-- The backends after a drawing on one of them. -/
def drawing (backends : ι → Backend) (i : ι) (equation : String) : ι → Backend :=
  Function.update backends i ((backends i).drawn equation)

/-- A drawing leaves the widget as it is, and only its own backend has a say in it. -/
theorem drawOn_board (w : Control ι) (i : ι) (equation : String) :
    ∃ records : Backend → List Record, ∀ backends,
      (w.board backends).drawOn i equation
        = ⟨((backends i).report equation, w.board (drawing backends i equation)),
          records (backends i)⟩ := by
  -- with nothing but that backend on the board the records are the same
  refine ⟨fun x => ((w.board fun _ => x).drawOn i equation).records, fun backends => ?_⟩
  have hrefusal := Backend.draw_refusal (backends i) (plan equation)
  have hupdate :
      ∀ x, (fun j => if j = i then x else backends j) = Function.update backends i x := by
    intro x
    funext j
    rw [Function.update_apply]
  unfold drawing Backend.report Backend.drawn
  rw [← hrefusal]
  unfold plan Board.drawOn board Board.replace
  simp only [bind, Logged.bind, hupdate]
  cases ((backends i).draw (commands (Conversion.graphingOf equation).value)).2 <;> rfl

/-- A plot on a widget that is ready is a drawing. -/
theorem plot_of_ready (hattached : w.attached = some i) (hready : w.ready = true)
    (hequation : equation.isEmpty = false) (backends : ι → Backend) :
    (w.board backends).plot equation = (w.board backends).drawOn i equation := by
  simp [Board.plot, board, hattached, hready, hequation]

/-- A call that draws makes one drawing and returns its report. -/
theorem call_of_drawing (h : w.drawing? c = some (i, equation)) :
    ∃ records : Backend → List Record, ∀ backends,
      (w.board backends).call c
        = ⟨(some ((backends i).report equation), (w.next c).board (drawing backends i equation)),
          records (backends i)⟩ := by
  obtain ⟨attached, ready, pending⟩ := w
  cases c with
  | attach j => simp [drawing?] at h
  | dispose => simp [drawing?] at h
  | plot e =>
    obtain ⟨rfl, ⟨rfl, hempty⟩, rfl⟩ : attached = some i ∧ (ready = true ∧ e.isEmpty = false) ∧
        e = equation := by
      cases attached with
      | none => simp [drawing?] at h
      | some j =>
        simp only [drawing?, Option.bind_eq_bind, Option.bind_some, Option.pure_def,
          Option.ite_none_right_eq_some, Bool.and_eq_true, Bool.not_eq_true', Option.some.injEq,
          Prod.mk.injEq] at h
        exact ⟨congrArg some h.2.1, h.1, h.2.2⟩
    obtain ⟨records, hrecords⟩ := drawOn_board ⟨some i, true, pending⟩ i e
    refine ⟨fun x => records x ++ [], fun backends => ?_⟩
    rw [Board.call, plot_of_ready rfl rfl hempty, hrecords]
    rfl
  | markReady =>
    obtain ⟨rfl, rfl, hempty⟩ : attached = some i ∧ pending = some equation ∧
        equation.isEmpty = false := by
      cases attached with
      | none => simp [drawing?] at h
      | some j =>
        cases pending with
        | none => simp [drawing?] at h
        | some e =>
          simp only [drawing?, Option.bind_eq_bind, Option.bind_some, Option.pure_def,
            Option.ite_none_left_eq_some, Bool.not_eq_true, Option.some.injEq,
            Prod.mk.injEq] at h
          obtain ⟨hempty, rfl, rfl⟩ := h
          exact ⟨rfl, rfl, hempty⟩
    -- the drawing is made on the widget that is ready by then
    obtain ⟨records, hrecords⟩ := drawOn_board ⟨some i, true, none⟩ i equation
    have hplot := @plot_of_ready _ _ (⟨some i, true, none⟩ : Control ι) i equation rfl rfl hempty
    refine ⟨fun x => records x ++ [], fun backends => ?_⟩
    have hdrawn := (hplot backends).trans (hrecords backends)
    simp only [board] at hdrawn
    simp only [Board.call, Board.markReady, board, hdrawn]
    rfl

/-- A call that does not draw asks nothing of any backend. -/
theorem call_of_quiet (h : w.drawing? c = none) :
    ∃ answer records, ∀ backends,
      (w.board backends).call c = ⟨(answer, (w.next c).board backends), records⟩ := by
  -- answer and records are those of a board with backends that refuse nothing
  refine ⟨((w.board fun _ => {}).call c).value.1, ((w.board fun _ => {}).call c).records,
    fun backends => ?_⟩
  obtain ⟨attached, ready, pending⟩ := w
  cases c with
  | attach j => cases attached <;> rfl
  | dispose => rfl
  | plot e =>
    cases attached with
    | none => rfl
    | some j =>
      cases hempty : e.isEmpty with
      | true =>
        simp only [Board.call, Board.plot, board, next, hempty, if_true, Bool.not_true,
          Bool.and_false, Bool.false_eq_true, if_false]
        rfl
      | false =>
        obtain rfl : ready = false := by simpa [drawing?, hempty] using h
        simp only [Board.call, Board.plot, board, next, hempty]
        rfl
  | markReady =>
    cases attached with
    | none => rfl
    | some j =>
      cases pending with
      | none => rfl
      | some e =>
        have hempty : e.isEmpty = true := by simpa [drawing?] using h
        simp only [Board.call, Board.markReady, Board.plot, board, next, hempty, if_true]
        rfl

end Control

end Graph

end FormulaDesk
