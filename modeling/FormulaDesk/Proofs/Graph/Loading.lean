import FormulaDesk.Proofs.Graph.Runs

/-! # When a widget finishes loading

An attached widget is asked for drawings while it loads and after. What it shows in the end is the
last equation that was asked for, and not when it became ready: a drawing asked for early waits, the
next one takes its place, and a drawing made late starts from an empty script again.

* `Shows` is all that a widget remembers of the calls since it was attached;
* `Shows.plot`, `Shows.plot_empty` and `Shows.markReady` say how one call changes it;
* `Board.loading_time_immaterial` compares two runs.
-/

namespace FormulaDesk.Graph

/-! ## The calls -/

section

variable {ι : Type}

/-- The equation that a call asks to plot. -/
def Call.plotted? : Call ι → Option String
  | .plot equation => some equation
  | _ => none

/-- The calls plot these equations one after the other, and in between, before or behind they report
once or more that the widget is ready. -/
structure Delivers (equations : List String) (cs : List (Call ι)) : Prop where
  plots : cs.filterMap Call.plotted? = equations
  calls : ∀ c ∈ cs, c = .markReady ∨ ∃ equation, c = .plot equation
  ready : .markReady ∈ cs

end

/-- The last equation that is not empty. -/
def wanted (equations : List String) : Option String :=
  (equations.filter fun equation => !equation.isEmpty).getLast?

theorem wanted_append (equations : List String) (equation : String) :
    wanted (equations ++ [equation])
      = if equation.isEmpty then wanted equations else some equation := by
  unfold wanted
  cases hempty : equation.isEmpty <;> simp [hempty]

theorem isEmpty_of_wanted {equations : List String} {equation : String}
    (h : wanted equations = some equation) : equation.isEmpty = false := by
  have hmem := List.mem_of_getLast? h
  simpa using (List.mem_filter.mp hmem).2

/-! ## What is executed -/

/-- The commands of a drawing up to the first that is refused, and none if the reset before them
is. -/
def Refusals.executed (r : Refusals) (equation : String) : List String :=
  if r.reset.isSome then [] else (plan equation).takeWhile fun c => (r.command c).isNone

/-- Whatever was recorded before, only the last drawing is left. -/
theorem Backend.RecordsAfterReset.drawn_commands {x : Backend} (h : x.RecordsAfterReset)
    (equation : String) : (x.drawn equation).commands = x.refusals.executed equation := by
  unfold Backend.drawn draw Refusals.executed
  cases hreset : x.refusals.reset with
  | some cause =>
    have hnil : x.commands = [] := h (by simp [hreset])
    simp [hnil]
  | none =>
    have hcommands :=
      execute_commands { x with resets := x.resets + 1, commands := [] } (plan equation)
    simpa using hcommands

/-! ## What a widget remembers -/

namespace Board

variable {ι : Type} {b : Board ι} {i : ι} {r : Refusals} {ready : Bool} {last : Option String}
  {equation : String}

/-- The widget is attached to a backend, and all that was asked of it has come down to one equation,
if there is any: it is pending while the widget loads and drawn when the widget is ready. -/
structure Shows (b : Board ι) (i : ι) (r : Refusals) (ready : Bool) (last : Option String) :
    Prop where
  control : b.control = ⟨some i, ready, if ready then none else last⟩
  refusals : (b.backends i).refusals = r
  commands : (b.backends i).commands = (if ready then last else none).elim [] r.executed

theorem Shows.recordsAfterReset (h : b.Shows i r ready last) :
    (b.backends i).RecordsAfterReset := by
  intro hreset
  rw [h.refusals, Option.ne_none_iff_isSome] at hreset
  rw [h.commands]
  cases (if ready then last else none) with
  | none => rfl
  | some equation => simp [Refusals.executed, hreset]

variable [DecidableEq ι]

/-- A call that draws nothing. -/
theorem Shows.of_quiet {c : Call ι} {ready' : Bool} {last' : Option String}
    (h : b.Shows i r ready last) (hquiet : b.control.drawing? c = none)
    (hnext : b.control.next c = ⟨some i, ready', if ready' then none else last'⟩)
    (hdrawn : (if ready then last else none) = if ready' then last' else none) :
    (b.after c).Shows i r ready' last' := by
  have hbackends := backends_of_quiet hquiet
  refine ⟨(control_after b c).trans hnext, ?_, ?_⟩
  · rw [hbackends, h.refusals]
  · rw [hbackends, h.commands, hdrawn]

/-- A call that draws on the backend. -/
theorem Shows.of_drawing {c : Call ι} (h : b.Shows i r ready last)
    (hdrawing : b.control.drawing? c = some (i, equation))
    (hnext : b.control.next c = ⟨some i, true, none⟩) :
    (b.after c).Shows i r true (some equation) := by
  have hbackends := backends_of_drawing hdrawing
  have hdrawn : (b.after c).backends i = (b.backends i).drawn equation := by
    rw [hbackends, Control.drawing, Function.update_self]
  refine ⟨(control_after b c).trans hnext, ?_, ?_⟩
  · rw [hdrawn, Backend.drawn, Backend.draw_refusals, h.refusals]
  · rw [hdrawn, h.recordsAfterReset.drawn_commands, h.refusals]
    rfl

/-- An empty equation is not drawn, now or later. -/
theorem Shows.plot_empty (h : b.Shows i r ready last) (hempty : equation.isEmpty = true) :
    (b.after (.plot equation)).Shows i r ready last := by
  refine h.of_quiet ?_ ?_ rfl
  · simp [h.control, Control.drawing?, hempty]
  · simp [h.control, Control.next, hempty]

/-- An equation takes the place of the one before it, drawn or pending. -/
theorem Shows.plot (h : b.Shows i r ready last) (hequation : equation.isEmpty = false) :
    (b.after (.plot equation)).Shows i r ready (some equation) := by
  cases ready with
  | true =>
    refine h.of_drawing ?_ ?_
    · simp [h.control, Control.drawing?, hequation]
    · simp [h.control, Control.next]
  | false =>
    refine h.of_quiet ?_ ?_ rfl
    · simp [h.control, Control.drawing?]
    · simp [h.control, Control.next, hequation]

/-- What was pending is drawn; a widget that is ready already stays as it is. -/
theorem Shows.markReady (h : b.Shows i r ready last)
    (hlast : ∀ equation, last = some equation → equation.isEmpty = false) :
    (b.after .markReady).Shows i r true last := by
  cases ready with
  | true =>
    refine h.of_quiet ?_ ?_ rfl
    · simp [h.control, Control.drawing?]
    · simp [h.control, Control.next]
  | false =>
    cases last with
    | none =>
      refine h.of_quiet ?_ ?_ rfl
      · simp [h.control, Control.drawing?]
      · simp [h.control, Control.next]
    | some equation =>
      have hequation := hlast equation rfl
      refine h.of_drawing ?_ ?_
      · simpa [h.control, Control.drawing?] using hequation
      · simp [h.control, Control.next]

/-! ## Runs -/

theorem shows_attached (refusals : ι → Refusals) (i : ι) :
    ((start refusals).after (.attach i)).Shows i (refusals i) false none := by
  have hquiet : (start refusals).control.drawing? (.attach i) = none := rfl
  have hbackends := backends_of_quiet hquiet
  refine ⟨control_after _ _, ?_, ?_⟩ <;> rw [hbackends] <;> rfl

/-- After every sequence of these calls the widget is ready if one of them has reported so, and
shows the last equation that is not empty. -/
theorem shows_run (refusals : ι → Refusals) (i : ι) {cs : List (Call ι)}
    (hcs : ∀ c ∈ cs, c = .markReady ∨ ∃ equation, c = .plot equation) :
    ((start refusals).run (.attach i :: cs)).Shows i (refusals i) (decide (.markReady ∈ cs))
      (wanted (cs.filterMap Call.plotted?)) := by
  -- by the last call: `Shows` tells what all calls before it have left
  induction cs using List.reverseRecOn with
  | nil => exact shows_attached refusals i
  | append_singleton cs c ih =>
    have hshows := ih fun c hc => hcs c (List.mem_append_left _ hc)
    rw [← List.cons_append, run_append]
    rcases hcs c (by simp) with rfl | ⟨equation, rfl⟩
    · have hready := hshows.markReady fun equation => isEmpty_of_wanted
      have hplots : (cs ++ [Call.markReady]).filterMap Call.plotted?
          = cs.filterMap Call.plotted? := by
        rw [List.filterMap_append]
        exact List.append_nil _
      rw [hplots]
      simpa using hready
    · have hplots : (cs ++ [Call.plot equation]).filterMap Call.plotted?
          = cs.filterMap Call.plotted? ++ [equation] := by
        rw [List.filterMap_append]
        rfl
      rw [hplots, wanted_append]
      cases hempty : equation.isEmpty with
      | true => simpa using hshows.plot_empty hempty
      | false => simpa using hshows.plot hempty

/-- It does not matter when a widget finishes loading. Whatever its backend refuses, the script that
is left, and whether the widget is ready or has an equation pending, are the same for all calls that
plot the same equations and report at some time that the widget is ready: the script is the drawing
of the last equation that is not empty, up to the first command that is refused, and nothing is
pending. -/
theorem loading_time_immaterial (refusals : ι → Refusals) (i : ι) {equations : List String}
    {cs cs' : List (Call ι)} (h : Delivers equations cs) (h' : Delivers equations cs') :
    let b := (start refusals).run (.attach i :: cs)
    let b' := (start refusals).run (.attach i :: cs')
    ((b.backends i).script = (b'.backends i).script ∧ b.ready = b'.ready ∧ b.pending = b'.pending) ∧
      (b.backends i).commands = (wanted equations).elim [] (refusals i).executed ∧
      b.ready = true ∧ b.pending = none := by
  have houtcome : ∀ {cs : List (Call ι)}, Delivers equations cs →
      let b := (start refusals).run (.attach i :: cs)
      (b.backends i).commands = (wanted equations).elim [] (refusals i).executed ∧
        b.ready = true ∧ b.pending = none := by
    intro cs h
    have hshows := shows_run refusals i h.calls
    rw [h.plots, decide_eq_true h.ready] at hshows
    exact ⟨hshows.commands, congrArg Control.ready hshows.control,
      congrArg Control.pending hshows.control⟩
  obtain ⟨hcommands, hready, hpending⟩ := houtcome h
  obtain ⟨hcommands', hready', hpending'⟩ := houtcome h'
  refine ⟨⟨?_, hready.trans hready'.symm, hpending.trans hpending'.symm⟩, hcommands, hready,
    hpending⟩
  rw [Backend.script, Backend.script, hcommands, hcommands']

/-- Two equations and an empty one, on a backend that refuses the colour: all of them drawn at once,
or the widget ready, twice, after all of them. -/
theorem loading_time_immaterial_refused :
    let refusals : Unit → Refusals := fun _ =>
      { command := fun c => if c = "SetColor(f, 255, 0, 0)" then some "no colour" else none }
    let early := (start refusals).run [.attach (), .markReady, .plot "x", .plot "2*x", .plot ""]
    let late := (start refusals).run
      [.attach (), .plot "x", .plot "2*x", .plot "", .markReady, .markReady]
    (early.backends ()).script = (late.backends ()).script ∧
      (late.backends ()).commands = axesCommands ++ ["f(x) = 2*x"] := by
  intro refusals early late
  have hearly : Delivers ["x", "2*x", ""]
      ([.markReady, .plot "x", .plot "2*x", .plot ""] : List (Call Unit)) :=
    ⟨rfl, by simp, by simp⟩
  have hlate : Delivers ["x", "2*x", ""]
      ([.plot "x", .plot "2*x", .plot "", .markReady, .markReady] : List (Call Unit)) :=
    ⟨rfl, by simp, by simp⟩
  obtain ⟨⟨hscript, -, -⟩, -⟩ := loading_time_immaterial refusals () hearly hlate
  obtain ⟨-, hcommands, -⟩ := loading_time_immaterial refusals () hlate hearly
  refine ⟨hscript, hcommands.trans ?_⟩
  decide +kernel

end Board

end FormulaDesk.Graph
