import FormulaDesk.CommandLine.Run
import FormulaDesk.Proofs.Method.Building

/-! # What a solve command sends

The fields of a solve come from the parameters and from the options. Without an example the options
are written over the parameters (`value_givenFields`); with one, the parameters are written over the
example. `Request.build` is given what was written last, and it either refuses a field or sends it
(`solveRequest_keeps`).
-/

namespace FormulaDesk.CommandLine

variable {a : SolveArguments} {r : Request} {name : String} {v : Json}

/-! ## Options -/

/-- The equation that the options ask for, converted if it is a markup. -/
def askedEquation (a : SolveArguments) : Option String :=
  (a.markup.map fun markup => (Conversion.evaluableOf markup).value).or a.equation

/-- The iteration map that the options ask for. -/
def askedMap (a : SolveArguments) : Option String :=
  a.gFunction.map fun markup => (Conversion.evaluableOf markup).value

/-- The fields that the options give. -/
def askedFields (a : SolveArguments) : Fields :=
  ((askedEquation a).toList.map fun e => ("equation", .str e)) ++
    (askedMap a).toList.map fun g => ("g_function", .str g)

theorem value_givenFields (a : SolveArguments) :
    (givenFields a).value = (Fields.update [] a.parameters).update (askedFields a) := by
  unfold askedFields askedEquation askedMap
  cases hmarkup : a.markup <;> cases hequation : a.equation <;> cases hmap : a.gFunction <;>
    simp only [givenFields, hmarkup, hequation, hmap] <;> rfl

theorem nodup_askedFields (a : SolveArguments) : (askedFields a).keys.Nodup := by
  unfold askedFields
  cases askedEquation a <;> cases askedMap a <;> simp [Fields.keys]

theorem get?_askedFields_equation (a : SolveArguments) :
    (askedFields a).get? "equation" = (askedEquation a).map .str := by
  unfold askedFields
  cases askedEquation a <;> cases askedMap a <;> simp [Fields.get?_cons]

theorem get?_askedFields_map (a : SolveArguments) :
    (askedFields a).get? "g_function" = (askedMap a).map .str := by
  unfold askedFields
  cases askedEquation a <;> cases askedMap a <;> simp [Fields.get?_cons]

theorem mem_keys_askedFields (h : name ∈ (askedFields a).keys) :
    name = "equation" ∨ name = "g_function" := by
  obtain ⟨kv, hkv, rfl⟩ := List.mem_map.mp h
  rcases List.mem_append.mp hkv with hequation | hmap
  · obtain ⟨e, -, rfl⟩ := List.mem_map.mp hequation
    exact .inl rfl
  · obtain ⟨g, -, rfl⟩ := List.mem_map.mp hmap
    exact .inr rfl

theorem get?_givenFields (hnames : a.parameters.keys.Nodup) (name : String) :
    (givenFields a).value.get? name = ((askedFields a).get? name).or (a.parameters.get? name) := by
  rw [value_givenFields, Fields.get?_update_of_nodup _ (nodup_askedFields a),
    Fields.get?_update_of_nodup _ hnames, Fields.get?_nil, Option.or_none]

/-! ## Requests -/

theorem solveRequest_plain {m : Method} (hslug : Method.ofSlug a.slug = .ok m)
    (hplain : example? a = none) : (solveRequest a).value =
      if m.kind = .equation ∧ !(((givenFields a).value.get? "equation").getD .null).isPresent then
        .error (.invalid (.missingEquation a.slug))
      else Request.build a.slug (givenFields a).value := by
  unfold solveRequest
  rw [hslug, hplain]
  show Logged.value (if _ then _ else _) = _
  split <;> rfl

/-- The fields that the request of a solve is built from: what is written last stays. -/
theorem solveRequest_eq_ok (h : (solveRequest a).value = .ok r) :
    ∃ given, Request.build a.slug given = .ok r ∧
      ((example? a = none ∧ given = (givenFields a).value) ∨
        example? a ≠ none ∧ ∃ system : Request, given = system.body.update a.parameters) := by
  cases hslug : Method.ofSlug a.slug with
  | error problem =>
    unfold solveRequest at h
    rw [hslug] at h
    cases h
  | ok m =>
    cases hexample : example? a with
    | none =>
      rw [solveRequest_plain hslug hexample] at h
      split at h
      · cases h
      · exact ⟨_, h, .inl ⟨rfl, rfl⟩⟩
    | some name =>
      unfold solveRequest at h
      rw [hslug, hexample] at h
      -- an example is a request by itself, and the parameters are written over its fields
      obtain ⟨system, -, hbuild⟩ := bind_eq_ok.mp h
      exact ⟨_, hbuild, .inr ⟨by simp, system, rfl⟩⟩

/-- An option has precedence over the parameter of its name. With an example the parameters have the
last word. -/
def Overridden (a : SolveArguments) (name : String) : Prop :=
  example? a = none ∧ (askedFields a).get? name ≠ none

/-- What is given to a field is sent under its name. Only a start vector that is not present becomes
zeros, as many as the matrix has rows. -/
def Keeps (r : Request) (name : String) (v : Json) : Prop :=
  r.body.get? name = some v ∨ r.method.guess? = some name ∧ v.isPresent = false ∧
    ∃ n, (r.value "A").size? = some n ∧ r.body.get? name = some (Request.zeros n)

theorem keeps_parameter (hnames : a.parameters.keys.Nodup) (h : (solveRequest a).value = .ok r)
    (hgiven : a.parameters.get? name = some v) (hfree : ¬ Overridden a name) : Keeps r name v := by
  obtain ⟨given, hbuild, ⟨hplain, rfl⟩ | ⟨-, system, rfl⟩⟩ := solveRequest_eq_ok h
  · have hasked : (askedFields a).get? name = none := by
      by_contra hsome
      exact hfree ⟨hplain, hsome⟩
    apply Request.get?_of_build hbuild
    rw [get?_givenFields hnames, hasked, hgiven, Option.none_or]
  · apply Request.get?_of_build hbuild
    rw [Fields.get?_update_of_nodup _ hnames, hgiven, Option.some_or]

/-- Without an example all that the options ask for is sent. -/
theorem get?_of_asked (hnames : a.parameters.keys.Nodup) (h : (solveRequest a).value = .ok r)
    (hplain : example? a = none) (hasked : (askedFields a).get? name = some v) :
    r.body.get? name = some v := by
  obtain ⟨given, hbuild, ⟨-, rfl⟩ | ⟨hexample, -⟩⟩ := solveRequest_eq_ok h
  · have hgiven : (givenFields a).value.get? name = some v := by
      rw [get?_givenFields hnames, hasked, Option.some_or]
    rcases Request.get?_of_build hbuild hgiven with hsent | ⟨hguess, -, -⟩
    · exact hsent
    · -- no start vector has the name of an option
      rcases mem_keys_askedFields (Fields.mem_keys_of_get? hasked) with rfl | rfl
      · exact absurd hguess (Method.guess?_ne_equation r.method).1
      · exact absurd hguess (Method.guess?_ne_equation r.method).2
  · exact absurd hplain hexample

/-- A request that is sent has every parameter under its name, and without an example it has what
the options ask for: the equation, converted if it is a markup, and the converted iteration map. -/
theorem solveRequest_keeps (hnames : a.parameters.keys.Nodup)
    (h : (solveRequest a).value = .ok r) :
    r.method.slug = a.slug ∧
    (∀ kv ∈ a.parameters, ¬ Overridden a kv.1 → Keeps r kv.1 kv.2) ∧
    (example? a = none →
      (∀ markup, a.markup = some markup →
        r.body.get? "equation" = some (.str (Conversion.evaluableOf markup).value)) ∧
      (∀ e, a.markup = none → a.equation = some e → r.body.get? "equation" = some (.str e)) ∧
      ∀ markup, a.gFunction = some markup →
        r.body.get? "g_function" = some (.str (Conversion.evaluableOf markup).value)) := by
  refine ⟨?_, ?_, ?_⟩
  · obtain ⟨given, hbuild, -⟩ := solveRequest_eq_ok h
    exact Request.slug_of_build hbuild
  · intro kv hkv hfree
    exact keeps_parameter hnames h ((Fields.mem_iff_get? hnames).mp hkv) hfree
  · intro hplain
    refine ⟨?_, ?_, ?_⟩
    · intro markup hmarkup
      apply get?_of_asked hnames h hplain
      rw [get?_askedFields_equation, askedEquation, hmarkup]
      rfl
    · intro e hmarkup hequation
      apply get?_of_asked hnames h hplain
      rw [get?_askedFields_equation, askedEquation, hmarkup, hequation]
      rfl
    · intro markup hmap
      apply get?_of_asked hnames h hplain
      rw [get?_askedFields_map, askedMap, hmap]
      rfl

/-- A markup goes before the parameter for the equation, and the other parameters stay. -/
theorem solveRequest_keeps_markup :
    let a : SolveArguments :=
      { slug := "punto-fijo", markup := some "x^\x7b2\x7d", gFunction := some "x"
        parameters := [("tolerance", .int 1), ("equation", .str "x")] }
    a.parameters.keys.Nodup ∧ ∃ r, (solveRequest a).value = .ok r ∧
      r.body.get? "tolerance" = some (.int 1) ∧ r.body.get? "equation" = some (.str "x**(2)") ∧
      r.body.get? "g_function" = some (.str "x") := by
  intro a
  have hnames : a.parameters.keys.Nodup := by decide
  have hequation : (Conversion.evaluableOf "x^\x7b2\x7d").value = "x**(2)" := by decide +kernel
  have hmap : (Conversion.evaluableOf "x").value = "x" := by decide +kernel
  have hsent : (solveRequest a).value.toOption.any (fun _ => true) = true := by decide +kernel
  obtain ⟨r, hr, -⟩ := exists_ok_of_any hsent
  obtain ⟨-, hparameters, hoptions⟩ := solveRequest_keeps hnames hr
  obtain ⟨hmarkup, -, hgFunction⟩ := hoptions rfl
  -- the options ask for the equation and the map only
  have hfree : ¬ Overridden a "tolerance" := by
    rintro ⟨-, hasked⟩
    obtain ⟨v, hv⟩ := Option.ne_none_iff_exists'.mp hasked
    rcases mem_keys_askedFields (Fields.mem_keys_of_get? hv) with h | h
    · simp at h
    · simp at h
  refine ⟨hnames, r, hr, ?_, ?_, ?_⟩
  · rcases hparameters ("tolerance", .int 1) List.mem_cons_self hfree with hkept | ⟨-, habsent, -⟩
    · exact hkept
    · cases habsent
  · rw [hmarkup _ rfl, hequation]
  · rw [hgFunction _ rfl, hmap]

/-- Not all that is given is sent: an empty start vector, a parameter under the option of its name,
and an option that stands beside an example. -/
theorem solveRequest_not_all_sent :
    let emptyStart : SolveArguments :=
      { slug := "gauss-seidel"
        parameters := [("A", .arr [.arr [.int 1]]), ("b", .arr [.int 1]), ("x0", .arr [])] }
    let twoEquations : SolveArguments :=
      { slug := "biseccion", equation := some "y", parameters := [("equation", .str "x")] }
    let besideExample : SolveArguments :=
      { slug := "jacobi", equation := some "y", example? := some "diagonal-3x3" }
    (∃ r, (solveRequest emptyStart).value = .ok r ∧ r.body.get? "x0" ≠ some (.arr [])) ∧
      (∃ r, (solveRequest twoEquations).value = .ok r ∧
        r.body.get? "equation" ≠ some (.str "x")) ∧
      ∃ r, (solveRequest besideExample).value = .ok r ∧ r.body.get? "equation" = none := by
  intro emptyStart twoEquations besideExample
  refine ⟨?_, ?_, ?_⟩
  · have hsent : (solveRequest emptyStart).value.toOption.any
        (fun r => (r.value "x0").isPresent) = true := by decide +kernel
    obtain ⟨r, hr, hpresent⟩ := exists_ok_of_any hsent
    -- in place of the empty start vector there is a value, and an empty list counts as none
    refine ⟨r, hr, ?_⟩
    intro hempty
    rw [Request.value, hempty] at hpresent
    cases hpresent
  · have hsent : (solveRequest twoEquations).value.toOption.any (fun _ => true) = true := by
      decide +kernel
    obtain ⟨r, hr, -⟩ := exists_ok_of_any hsent
    refine ⟨r, hr, ?_⟩
    have hequation : (askedFields twoEquations).get? "equation" = some (.str "y") := rfl
    rw [get?_of_asked (by decide) hr rfl hequation]
    simp
  · have hsent : (solveRequest besideExample).value.toOption.any
        (fun r => !r.body.contains "equation") = true := by decide +kernel
    obtain ⟨r, hr, habsent⟩ := exists_ok_of_any hsent
    refine ⟨r, hr, ?_⟩
    rw [Fields.get?_eq_none_iff, ← Fields.contains_iff_mem_keys]
    simpa using habsent

end FormulaDesk.CommandLine
