import FormulaDesk.Proofs.CommandLine.Solving

/-! # Replies that cannot be shown

A reply keeps any list as its trace, but a table needs objects: the keys of the first entry are its
columns, and every entry is asked for them. `Untabled` lists the traces that stop a table. Whatever
else a reply holds is shown, so only these break a summary off.
-/

namespace FormulaDesk.CommandLine

variable {ps : List Printed} {p q : Printed} {fault : ValueFault} {trace : List Json} {v : Json}
  {keys : List String}

/-! ## Writing -/

namespace Printed

/-- The first print that breaks off is the one that counts. -/
theorem followedBy_fault (p q : Printed) : (p.followedBy q).fault = p.fault.or q.fault := by
  cases h : p.fault <;> simp [followedBy, h]

/-- Behind a print that breaks off nothing more is printed. -/
theorem followedBy_lines (h : p.fault = none) : (p.followedBy q).lines = p.lines ++ q.lines := by
  simp [followedBy, h]

theorem all_cons (p : Printed) (ps : List Printed) : all (p :: ps) = p.followedBy (all ps) := rfl

/-- Writing is stopped by the first part that stops. -/
theorem all_fault (ps : List Printed) : (all ps).fault = ps.findSome? (·.fault) := by
  induction ps with
  | nil => rfl
  | cons p ps ih =>
    rw [all_cons, followedBy_fault, ih, List.findSome?_cons]
    cases p.fault <;> rfl

/-- The last part is written behind the others if none of them stops. -/
theorem all_concat_lines (h : ∀ p ∈ ps, p.fault = none) :
    (all (ps ++ [q])).lines = (all ps).lines ++ q.lines := by
  induction ps with
  | nil => cases hq : q.fault <;> simp [all, followedBy, hq, nothing]
  | cons p ps ih =>
    obtain ⟨hp, hrest⟩ := List.forall_mem_cons.mp h
    rw [List.cons_append, all_cons, all_cons, followedBy_lines hp, followedBy_lines hp, ih hrest,
      List.append_assoc]

end Printed

/-- A line with a label prints every value. -/
theorem valueLine_fault (label : String) (v : Json) : (valueLine label v).fault = none := by
  unfold valueLine
  split <;> rfl

/-! ## Tables -/

/-- A trace that stops its table: the first entry has no keys or, where there are keys, a later
entry is the first to have nothing under them. -/
inductive Untabled : List Json → ValueFault → Prop
  | columns {first : Json} {rest : List Json} (h : ∀ fields, first ≠ .obj fields) :
      Untabled (first :: rest) (.noAttribute first.kind "keys")
  | cells {fields : Fields} {before after : List Json} {entry : Json} (keyed : fields ≠ [])
      (objects : ∀ x ∈ before, ∃ fields, x = .obj fields) (h : ∀ fields, entry ≠ .obj fields) :
      Untabled (.obj fields :: (before ++ entry :: after)) (.noAttribute entry.kind "get")

/-- An object has a cell for every column, the missing ones empty. -/
theorem mapM_cell_obj (fields : Fields) (keys : List String) :
    keys.mapM (cell (.obj fields)) =
      .ok (keys.map fun key => shown ((Fields.get? fields key).getD .null)) := by
  induction keys with
  | nil => rfl
  | cons key keys ih =>
    rw [List.mapM_cons, ih]
    rfl

/-- A row of an object is always printed. -/
theorem row_obj_fault (fields : Fields) (keys : List String) :
    (row keys (.obj fields)).fault = none := by
  rw [row, mapM_cell_obj]
  rfl

theorem row_nil_fault (v : Json) : (row [] v).fault = none := rfl

/-- An entry that is no object fails at its first cell. -/
theorem row_other_fault (hkeys : keys ≠ []) (h : ∀ fields, v ≠ .obj fields) :
    (row keys v).fault = some (.noAttribute v.kind "get") := by
  cases keys with
  | nil => exact absurd rfl hkeys
  | cons key keys =>
    cases v with
    | obj fields => exact absurd rfl (h fields)
    | _ => rfl

/-- A row breaks off exactly when its entry is no object and there is a column to look up. -/
theorem row_fault_iff : (row keys v).fault = some fault ↔
    keys ≠ [] ∧ (∀ fields, v ≠ .obj fields) ∧ fault = .noAttribute v.kind "get" := by
  by_cases hkeys : keys = []
  · simp [hkeys, row_nil_fault]
  · by_cases h : ∃ fields, v = .obj fields
    · obtain ⟨fields, rfl⟩ := h
      simp [row_obj_fault]
    · rw [not_exists] at h
      simp [row_other_fault hkeys h, hkeys, h, eq_comm]

/-- A row is printed exactly when its entry is an object or the table has no column. -/
theorem row_fault_none_iff : (row keys v).fault = none ↔ keys = [] ∨ ∃ fields, v = .obj fields := by
  constructor
  · intro hnone
    by_contra hneither
    rw [not_or, not_exists] at hneither
    rw [row_other_fault hneither.1 hneither.2] at hnone
    cases hnone
  · rintro (rfl | ⟨fields, rfl⟩)
    · exact row_nil_fault v
    · exact row_obj_fault fields keys

/-- Behind a first object the table breaks off at the first row that does. -/
theorem table_obj_fault (fields : Fields) (rest : List Json) :
    (table (.obj fields :: rest)).fault =
      rest.findSome? fun entry => (row (Fields.keys fields) entry).fault := by
  have htable : table (.obj fields :: rest) = .all (.line "" :: .line (rowText (Fields.keys fields))
      :: (Json.obj fields :: rest).map (row (Fields.keys fields))) := rfl
  rw [htable, Printed.all_fault]
  simp [Printed.line, row_obj_fault, List.findSome?_map, Function.comp_def]

/-- The exact traces whose table breaks off, and the error it ends with. -/
theorem table_fault_iff : (table trace).fault = some fault ↔ Untabled trace fault := by
  constructor
  · intro h
    cases trace with
    | nil => cases h
    | cons first rest =>
      -- the columns are the keys of the first entry, which has some only if it is an object
      by_cases hfirst : ∃ fields, first = .obj fields
      · obtain ⟨fields, rfl⟩ := hfirst
        rw [table_obj_fault, List.findSome?_eq_some_iff] at h
        obtain ⟨before, entry, after, rfl, hentry, hbefore⟩ := h
        obtain ⟨hkeys, hother, rfl⟩ := row_fault_iff.mp hentry
        refine .cells (by simpa [Fields.keys] using hkeys) (fun x hx => ?_) hother
        -- there is a column to ask for, so an entry that is written is an object
        exact (row_fault_none_iff.mp (hbefore x hx)).resolve_left hkeys
      · rw [not_exists] at hfirst
        cases first with
        | obj fields => exact absurd rfl (hfirst fields)
        | _ =>
          cases h
          exact .columns hfirst
  · rintro (@⟨first, rest, hfirst⟩ | ⟨keyed, objects, hentry⟩)
    · cases first with
      | obj fields => exact absurd rfl (hfirst fields)
      | _ => rfl
    · rw [table_obj_fault, List.findSome?_eq_some_iff]
      refine ⟨_, _, _, rfl, row_fault_iff.mpr ⟨?_, hentry, rfl⟩, fun x hx => ?_⟩
      · simpa [Fields.keys] using keyed
      · exact row_fault_none_iff.mpr (.inr (objects x hx))

/-! ## Summaries -/

/-- The parts of a summary that stand over the table. -/
def heading (r : Reply) : List Printed :=
  [valueLine "Root" r.root,
    valueLine "Solution" r.solution,
    match r.converged with
      | some b => .line ("Converged: " ++ yesNo b)
      | none => .nothing,
    match r.iterationCount with
      | some n => .line ("Iterations: " ++ toString n)
      | none => .nothing,
    valueLine "Error estimate" r.error,
    if r.message.isPresent then .line ("Message: " ++ r.message.display) else .nothing,
    .all (r.warnings.map fun v => .line ("Warning: " ++ v.display))]

theorem summary_eq (r : Reply) : summary r = .all (heading r ++ [table r.trace]) := rfl

/-- Every value has a text, whatever its type. -/
theorem heading_fault (r : Reply) : ∀ p ∈ heading r, p.fault = none := by
  have hconverged : (match r.converged with
      | some b => Printed.line ("Converged: " ++ yesNo b)
      | none => .nothing).fault = none := by cases r.converged <;> rfl
  have hcount : (match r.iterationCount with
      | some n => Printed.line ("Iterations: " ++ toString n)
      | none => .nothing).fault = none := by cases r.iterationCount <;> rfl
  have hmessage : (if r.message.isPresent then Printed.line ("Message: " ++ r.message.display)
      else .nothing).fault = none := by split <;> rfl
  have hwarnings : (Printed.all (r.warnings.map fun v =>
      .line ("Warning: " ++ v.display))).fault = none := by
    rw [Printed.all_fault, List.findSome?_map, List.findSome?_eq_none_iff]
    exact fun v _ => rfl
  simp only [heading, List.forall_mem_cons, valueLine_fault, hconverged, hcount, hmessage,
    hwarnings, true_and]
  exact List.forall_mem_nil _

/-- Only the table of a summary can break off. -/
theorem summary_fault (r : Reply) : (summary r).fault = (table r.trace).fault := by
  have hheading : (heading r).findSome? (·.fault) = none :=
    List.findSome?_eq_none_iff.mpr (heading_fault r)
  rw [summary_eq, Printed.all_fault, List.findSome?_append, hheading, Option.none_or,
    List.findSome?_cons, List.findSome?_nil]
  cases (table r.trace).fault <;> rfl

/-- What is printed in front of the table does not depend on the trace. -/
theorem summary_lines (r : Reply) :
    (summary r).lines = (summary { r with trace := [] }).lines ++ (table r.trace).lines := by
  rw [summary_eq, summary_eq, Printed.all_concat_lines (heading_fault r),
    Printed.all_concat_lines (heading_fault { r with trace := [] })]
  have hnone : (table []).lines = [] := rfl
  simp only [hnone, List.append_nil]
  rfl

/-! ## Solves -/

/-- A solve that was answered prints its reply, and its status tells whether the print was
finished. -/
theorem runSolve_ending {s : Surroundings} {a : SolveArguments} {r : Reply} (format : Format)
    (h : (solveExchange s a).result = .ok r) :
    (runSolve s format a).shown = (replyPrinted format r).text ∧
      (runSolve s format a).ending = match (replyPrinted format r).fault with
        | some fault => .failed (.value fault)
        | none => .exit 0 := by
  cases hfault : (replyPrinted format r).fault <;> simp [runSolve, h, hfault]

/-- The summary of a reply has the parts over the table in any case, and then as much of the table
as can be written: it breaks off for an untabled trace, with the fault that `Untabled` names, and for
no other. A solve that brings the reply shows this summary. It breaks off with it, and exits with
zero otherwise. The object itself is always shown. -/
theorem summary_breaks_off_iff (r : Reply) :
    (summary r).lines = (summary { r with trace := [] }).lines ++ (table r.trace).lines ∧
    (∀ fault, (summary r).fault = some fault ↔ Untabled r.trace fault) ∧
    ∀ s a, (solveExchange s a).result = .ok r →
      (runSolve s .human a).shown = (summary r).text ∧
      (∀ fault, (runSolve s .human a).ending = .failed (.value fault) ↔ Untabled r.trace fault) ∧
      ((runSolve s .human a).ending = .exit 0 ↔ ∀ fault, ¬ Untabled r.trace fault) ∧
      (runSolve s .json a).ending = .exit 0 := by
  have hfault : (replyPrinted .human r).fault = (table r.trace).fault := summary_fault r
  refine ⟨summary_lines r, fun fault => ?_, fun s a h => ?_⟩
  · rw [summary_fault, table_fault_iff]
  · obtain ⟨hshown, hending⟩ := runSolve_ending .human h
    have hjson : (runSolve s .json a).ending = .exit 0 := (runSolve_ending .json h).2
    rw [hfault] at hending
    refine ⟨hshown, ?_, ?_, hjson⟩
    · intro fault
      rw [hending, ← table_fault_iff]
      cases (table r.trace).fault <;> simp
    · rw [hending]
      simp only [← table_fault_iff]
      cases (table r.trace).fault <;> simp

/-- A solve whose trace is a list of numbers. -/
theorem summary_breaks_off_iff_numbers :
    let bytes := "\x7b\"pasos\":[1,2]\x7d".toList.map Char.toNat
    let s : Surroundings :=
      { engine := ⟨fun _ _ => .ok none⟩, readBase := fun text => .ok ⟨fun path => text ++ path⟩
        folder := ⟨"", [], false⟩, service := fun _ => .answered 200 bytes, freshName := "" }
    let a : SolveArguments := { slug := "biseccion", equation := some "x" }
    ∃ r, (solveExchange s a).result = .ok r ∧ Untabled r.trace (.noAttribute .int "keys") ∧
      (runSolve s .human a).ending = .failed (.value (.noAttribute .int "keys")) := by
  intro bytes s a
  have hsolved : (solveExchange s a).result.toOption.any
      (fun r => r.trace.head?.any fun first => first.kind == .int) = true := by decide +kernel
  obtain ⟨r, hr, htrace⟩ := exists_ok_of_any hsolved
  obtain ⟨first, hfirst, hkind⟩ := (Option.any_eq_true ..).mp htrace
  have hother : ∀ fields, first ≠ .obj fields := by
    rintro fields rfl
    cases hkind
  have huntabled : Untabled r.trace (.noAttribute .int "keys") := by
    obtain ⟨rest, htrace⟩ := List.head?_eq_some_iff.mp hfirst
    rw [htrace, ← eq_of_beq hkind]
    exact .columns hother
  exact ⟨r, hr, huntabled, (((summary_breaks_off_iff r).2.2 s a hr).2.1 _).mpr huntabled⟩

end FormulaDesk.CommandLine
