import FormulaDesk.Proofs.Graph.Calls

/-! # Runs of a widget

What holds after every sequence of calls on one widget, whatever its backends refuse:

* `Control.run_attached`: an attached backend was attached to a free widget, and a widget that is
  ready was reported so since;
* `Board.run_recorded`: a backend has the commands of its last drawing up to the first refusal;
* `Board.run_gates_and_isolates`: both together, and that no backend has a say in what becomes of
  the widget.
-/

namespace FormulaDesk.Graph

/-! ## Whose turn it is -/

/-- The calls let a widget draw on the backend: it was attached while the widget was free, and since
then the widget was reported ready and not disposed of. -/
def Cleared {ι : Type} (j : ι) (cs : List (Call ι)) : Prop :=
  ∃ before since, cs = before ++ .attach j :: since ∧
    (({} : Control ι).run before).attached = none ∧ .markReady ∈ since ∧ .dispose ∉ since

namespace Control

variable {ι : Type} {w : Control ι} {i j : ι} {equation : String}

theorem drawing?_attached {c : Call ι} (h : w.drawing? c = some (i, equation)) :
    w.attached = some i := by
  cases hattached : w.attached with
  | none => cases c <;> simp [drawing?, hattached] at h
  | some k =>
    cases c with
    | attach l => simp [drawing?] at h
    | dispose => simp [drawing?] at h
    | plot e => simp_all [drawing?]
    | markReady => cases hpending : w.pending <;> simp_all [drawing?]

theorem drawing?_ready {c : Call ι} (h : w.drawing? c = some (i, equation)) :
    w.ready = true ∨ c = .markReady := by
  cases c with
  | attach l => simp [drawing?] at h
  | dispose => simp [drawing?] at h
  | markReady => exact Or.inr rfl
  | plot e =>
    left
    cases hattached : w.attached <;> simp_all [drawing?]

theorem drawing?_dispose : w.drawing? .dispose = none := rfl

/-- How the attached backend came to be attached. -/
theorem run_attached (cs : List (Call ι)) (h : (({} : Control ι).run cs).attached = some j) :
    ∃ before since, cs = before ++ .attach j :: since ∧
      (({} : Control ι).run before).attached = none ∧ .dispose ∉ since ∧
      ((({} : Control ι).run cs).ready = true → .markReady ∈ since) := by
  induction cs using List.reverseRecOn with
  | nil => simp at h
  | append_singleton cs c ih =>
    rw [run_append] at h ⊢
    generalize hw : ({} : Control ι).run cs = w at h ih ⊢
    -- a call that keeps the attached backend only makes the time since longer
    have hlonger : w.attached = some j → c ≠ .dispose →
        ((w.next c).ready = true → w.ready = true ∨ c = .markReady) →
        ∃ before since, cs ++ [c] = before ++ .attach j :: since ∧
          (({} : Control ι).run before).attached = none ∧ .dispose ∉ since ∧
          ((w.next c).ready = true → .markReady ∈ since) := by
      intro hattached hc hready
      obtain ⟨before, since, rfl, hfree, hdispose, hsince⟩ := ih hattached
      refine ⟨before, since ++ [c], by simp, hfree, by simp [hdispose, hc.symm], fun hnext => ?_⟩
      rcases hready hnext with hold | rfl
      · exact List.mem_append_left _ (hsince hold)
      · simp
    cases c with
    | dispose => simp [next] at h
    | markReady =>
      cases hattached : w.attached with
      | none => simp [next, hattached] at h
      | some k =>
        simp only [next, hattached] at h
        exact hlonger (hattached.trans h) (by simp) fun _ => Or.inr rfl
    | plot e =>
      have hkeeps : (w.next (.plot e)).attached = w.attached ∧
          (w.next (.plot e)).ready = w.ready := by
        simp only [next]
        split <;> exact ⟨rfl, rfl⟩
      exact hlonger (hkeeps.1.symm.trans h) (by simp) fun hnext => Or.inl (hkeeps.2 ▸ hnext)
    | attach k =>
      cases hattached : w.attached with
      | some l =>
        have hkeeps : w.next (.attach k) = w := by simp [next, hattached]
        rw [hkeeps] at h
        exact hlonger h (by simp) fun hnext => Or.inl (hkeeps ▸ hnext)
      | none =>
        simp only [next, hattached, Option.some.injEq] at h
        subst h
        exact ⟨cs, [], rfl, hw ▸ hattached, by simp, by simp [next, hattached]⟩

/-- A widget draws only on a backend that the calls have cleared. -/
theorem cleared_of_drawing {cs : List (Call ι)} {c : Call ι}
    (h : (({} : Control ι).run cs).drawing? c = some (j, equation)) : Cleared j (cs ++ [c]) := by
  obtain ⟨before, since, hcs, hfree, hdispose, hready⟩ := run_attached cs (drawing?_attached h)
  have hc : c ≠ .dispose := by
    rintro rfl
    simp [drawing?_dispose] at h
  refine ⟨before, since ++ [c], by simp [hcs], hfree, ?_, by simp [hdispose, hc.symm]⟩
  rcases drawing?_ready h with hnow | rfl
  · exact List.mem_append_left _ (hready hnow)
  · simp

end Control

namespace Board

variable {ι : Type} [DecidableEq ι] {b : Board ι} {c : Call ι} {i j : ι} {equation : String}

/-! ## One call -/

/-- A call asks nothing of a backend and leaves it alone: with any other backend in its place the
call returns and notes the same and leaves that one as it is. -/
def Untouched (b : Board ι) (c : Call ι) (j : ι) : Prop :=
  ∀ x, (b.replace j x).call c
    = ⟨((b.call c).value.1, (b.call c).value.2.replace j x), (b.call c).records⟩

theorem replace_board (w : Control ι) (backends : ι → Backend) (j : ι) (x : Backend) :
    (w.board backends).replace j x = w.board (Function.update backends j x) := by
  unfold replace Control.board
  congr 1
  funext k
  rw [Function.update_apply]

theorem control_after (b : Board ι) (c : Call ι) : (b.after c).control = b.control.next c := by
  unfold after
  cases h : b.control.drawing? c with
  | none =>
    obtain ⟨answer, records, hcall⟩ := Control.call_of_quiet h
    exact congrArg (fun y => y.value.2.control) (hcall b.backends)
  | some target =>
    obtain ⟨records, hcall⟩ := Control.call_of_drawing h
    exact congrArg (fun y => y.value.2.control) (hcall b.backends)

theorem backends_of_quiet (h : b.control.drawing? c = none) :
    (b.after c).backends = b.backends := by
  obtain ⟨answer, records, hcall⟩ := Control.call_of_quiet h
  exact congrArg (fun y => y.value.2.backends) (hcall b.backends)

theorem backends_of_drawing (h : b.control.drawing? c = some (i, equation)) :
    (b.after c).backends = Control.drawing b.backends i equation := by
  obtain ⟨records, hcall⟩ := Control.call_of_drawing h
  exact congrArg (fun y => y.value.2.backends) (hcall b.backends)

theorem answer_of_drawing (h : b.control.drawing? c = some (i, equation)) :
    (b.call c).value.1 = some ((b.backends i).report equation) := by
  obtain ⟨records, hcall⟩ := Control.call_of_drawing h
  exact congrArg (fun y => y.value.1) (hcall b.backends)

/-- Only the backend that a call draws on is asked anything. -/
theorem untouched_of_not_drawing (h : ∀ equation, b.control.drawing? c ≠ some (j, equation)) :
    b.Untouched c j := by
  intro x
  have hreplace := replace_board b.control b.backends j x
  cases hdrawing : b.control.drawing? c with
  | none =>
    obtain ⟨answer, records, hcall⟩ := Control.call_of_quiet hdrawing
    have hthis : b.call c = _ := hcall b.backends
    have hother : (b.replace j x).call c = _ := (congrArg (·.call c) hreplace).trans (hcall _)
    rw [hother, hthis, replace_board]
  | some target =>
    obtain ⟨i, equation⟩ := target
    have hne : i ≠ j := by
      rintro rfl
      exact h equation hdrawing
    obtain ⟨records, hcall⟩ := Control.call_of_drawing hdrawing
    have hthis : b.call c = _ := hcall b.backends
    have hother : (b.replace j x).call c = _ := (congrArg (·.call c) hreplace).trans (hcall _)
    -- the two backends are changed one independently of the other
    have hcomm : Control.drawing (Function.update b.backends j x) i equation
        = Function.update (Control.drawing b.backends i equation) j x := by
      unfold Control.drawing
      rw [Function.update_of_ne hne, Function.update_comm hne]
    rw [hother, hthis, replace_board, hcomm, Function.update_of_ne hne]

/-! ## Runs -/

/-- A free widget, with backends on which nothing was done yet. -/
def start (refusals : ι → Refusals) : Board ι := { backends := fun i => { refusals := refusals i } }

/-- The equation that a call draws on a backend, with what the call returns. -/
def drawnBy (b : Board ι) (j : ι) (c : Call ι) : Option (String × Option Report) :=
  match b.control.drawing? c with
  | some (i, equation) => if i = j then some (equation, (b.call c).value.1) else none
  | none => none

/-- The last equation that a sequence of calls draws on a backend, with what that call returns. -/
def lastDrawn (b : Board ι) (j : ι) : List (Call ι) → Option (String × Option Report)
  | [] => none
  | c :: cs => ((b.after c).lastDrawn j cs).or (b.drawnBy j c)

theorem lastDrawn_append (b : Board ι) (j : ι) (cs : List (Call ι)) (c : Call ι) :
    b.lastDrawn j (cs ++ [c]) = ((b.run cs).drawnBy j c).or (b.lastDrawn j cs) := by
  induction cs generalizing b with
  | nil => simp [lastDrawn]
  | cons c' cs ih =>
    rw [List.cons_append, lastDrawn, ih, lastDrawn, Option.or_assoc]
    rfl

/-- What a backend has recorded, given the last drawing on it: the commands of that drawing up to
the first refusal, which the report tells, and all of them exactly when the report says so. -/
def Recorded (x : Backend) : Option (String × Option Report) → Prop
  | none => x.commands = []
  | some (equation, answer) => ∃ report, answer = some report ∧
    x.commands <+: plan equation ∧ (x.commands = plan equation ↔ report.ok = true) ∧
    report.error = x.refusal (plan equation)

theorem control_run (b : Board ι) (cs : List (Call ι)) :
    (b.run cs).control = b.control.run cs := by
  induction cs using List.reverseRecOn with
  | nil => rfl
  | append_singleton cs c ih => rw [run_append, control_after, ih, Control.run_append]

/-- After every run a backend has recorded its last drawing. -/
theorem run_recorded (refusals : ι → Refusals) (cs : List (Call ι)) (j : ι) :
    (((start refusals).run cs).backends j).RecordsAfterReset ∧
      Recorded (((start refusals).run cs).backends j) ((start refusals).lastDrawn j cs) := by
  induction cs using List.reverseRecOn with
  | nil => exact ⟨fun _ => rfl, rfl⟩
  | append_singleton cs c ih =>
    rw [run_append, lastDrawn_append]
    -- all that counts of the run so far is the board it left
    generalize (start refusals).run cs = b at ih ⊢
    obtain ⟨hreset, hrecorded⟩ := ih
    cases hdrawing : b.control.drawing? c with
    | none => simpa [drawnBy, hdrawing, backends_of_quiet hdrawing] using ⟨hreset, hrecorded⟩
    | some target =>
      obtain ⟨i, equation⟩ := target
      rw [backends_of_drawing hdrawing, Control.drawing]
      by_cases hij : i = j
      · subst hij
        have hanswer := answer_of_drawing hdrawing
        simp only [drawnBy, hdrawing, if_true, Option.some_or, Function.update_self]
        refine ⟨hreset.drawn equation, _, hanswer, hreset.drawn_prefix equation,
          hreset.drawn_eq_iff equation, ?_⟩
        rw [Backend.report_error, Backend.drawn_refusal]
      · rw [Function.update_of_ne (Ne.symm hij)]
        simpa [drawnBy, hdrawing, hij] using ⟨hreset, hrecorded⟩

/-- The widget gates and isolates every command. After every sequence of calls on a new widget, over
backends that refuse what they like: the widget is attached when it is ready or has an equation
pending, never both, and never an empty one; a further call asks nothing of a backend unless the
backend is cleared; every backend has recorded its last drawing up to the first refusal, which the
report of that drawing tells; and the widget is what it would be had the backends refused
otherwise. -/
theorem run_gates_and_isolates (refusals : ι → Refusals) (cs : List (Call ι)) :
    ((start refusals).run cs).control.Gated ∧
    (∀ c j, ((start refusals).run cs).Untouched c j ∨ Cleared j (cs ++ [c])) ∧
    (∀ j, Recorded (((start refusals).run cs).backends j) ((start refusals).lastDrawn j cs)) ∧
    ∀ refusals' : ι → Refusals,
      ((start refusals').run cs).control = ((start refusals).run cs).control := by
  have hcontrol : ∀ refusals' : ι → Refusals,
      ((start refusals').run cs).control = ({} : Control ι).run cs := by
    intro refusals'
    exact control_run (start refusals') cs
  refine ⟨?_, ?_, fun j => (run_recorded refusals cs j).2, ?_⟩
  · rw [hcontrol]
    exact Control.gated_start.run cs
  · intro c j
    -- a call that draws clears the backend first, and any other call leaves all backends alone
    by_cases hdrawing :
        ∃ equation, ((start refusals).run cs).control.drawing? c = some (j, equation)
    · obtain ⟨equation, hdrawing⟩ := hdrawing
      rw [hcontrol] at hdrawing
      exact Or.inr (Control.cleared_of_drawing hdrawing)
    · rw [not_exists] at hdrawing
      exact Or.inl (untouched_of_not_drawing hdrawing)
  · intro refusals'
    rw [hcontrol, hcontrol]

end Board

end FormulaDesk.Graph
