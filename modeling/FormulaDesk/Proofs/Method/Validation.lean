import FormulaDesk.Proofs.Method.Building

/-! # Which requests are refused

`Request.build` refuses a request with a problem of the catalog, unless a value itself stops it.
That happens for a field that has the name of the argument `slug`, and for a system in which a value
without a size stands where a list belongs (`build_faults_iff`).

A system of lists has no such value. For it, and for an equation with any values, acceptance is
exact (`build_exact`): there is a request if all conditions hold, with every value as it was given,
and the problem is that of the first condition that does not hold.
-/

namespace FormulaDesk

namespace Request

variable {m : Method} {given : Fields} {slug guess code : String} {f : Method.Field} {r : Request}
  {rows entries items : List Json} {v start : Json} {fault : ValueFault}

/-! ## Values that stop a request -/

/-- A fault of the fields that is not reported as a problem. -/
inductive Faulty (slug : String) (given : Fields) : ValueFault → Prop
  | slug (h : "slug" ∈ given.keys) :
      Faulty slug given (.arguments "build_request()" (.repeated "slug"))
  | size {m : Method} {guess : String} {start v : Json} (hslug : "slug" ∉ given.keys)
      (method : m.slug = slug) (takes : Takes m given) (system : m.guess? = some guess)
      (filled : startOf given guess = .ok start)
      (unsized : Unsized (valueOf given "A") (valueOf given "b") start v) :
      Faulty slug given (.noSize v.kind)

theorem build_of_faulty (h : Faulty slug given fault) :
    build slug given = .error (.value fault) := by
  cases h with
  | slug h => exact build_of_slug h
  | size hslug method takes system filled unsized =>
    subst method
    rw [build_system hslug takes system, filled]
    simp only [checkSystem_of_unsized unsized, Except.map]

/-- A request is made, refused with a problem, or stopped by a value. -/
theorem build_cases (slug : String) (given : Fields) :
    (∃ r, build slug given = .ok r) ∨ (∃ problem, build slug given = .error (.invalid problem)) ∨
      ∃ fault, Faulty slug given fault := by
  -- first the names, then the start vector, then the shape
  rcases names_cases slug given with hslug | ⟨hslug, hm | ⟨m, rfl, hnames⟩⟩
  · exact .inr (.inr ⟨_, .slug hslug⟩)
  · exact .inr (.inl ⟨_, build_of_unknown_slug hslug hm⟩)
  rcases hnames with ⟨name, hname, hfield⟩ | ⟨known, name, needed, hname⟩ | htakes
  · exact .inr (.inl ⟨_, build_of_unknown_field hslug hname hfield⟩)
  · obtain ⟨fault, hfault⟩ := build_of_missing hslug known needed hname
    exact .inr (.inl ⟨_, hfault⟩)
  cases hguess : m.guess? with
  | none => exact .inl ⟨_, build_equation hslug htakes hguess⟩
  | some guess =>
    have hbuild := build_system hslug htakes hguess
    cases hstart : startOf given guess with
    | error fault =>
      rw [hstart] at hbuild
      exact .inr (.inl ⟨_, hbuild⟩)
    | ok start =>
      rw [hstart] at hbuild
      simp only at hbuild
      cases hcheck : checkSystem (valueOf given "A") (valueOf given "b") start with
      | ok _ =>
        rw [hcheck] at hbuild
        exact .inl ⟨_, hbuild⟩
      | error failure =>
        rw [hcheck] at hbuild
        rcases checkSystem_eq_error.mp hcheck with ⟨v, unsized, rfl⟩ | ⟨problem, -, rfl⟩
        · exact .inr (.inr ⟨_, .size hslug rfl htakes hguess hstart unsized⟩)
        · exact .inr (.inl ⟨problem, hbuild⟩)

/-- Every failure is a problem or the fault of a value, and these are the values at fault. -/
theorem build_faults_iff (slug : String) (given : Fields) :
    (∀ failure, build slug given = .error failure →
      (∃ problem, failure = .invalid problem) ∨ ∃ fault, failure = .value fault) ∧
    ∀ fault, build slug given = .error (.value fault) ↔ Faulty slug given fault := by
  constructor
  · intro failure hfailure
    rcases build_cases slug given with ⟨r, hr⟩ | ⟨problem, hproblem⟩ | ⟨fault, hfault⟩
    · rw [hfailure] at hr
      cases hr
    · rw [hfailure] at hproblem
      cases hproblem
      exact .inl ⟨problem, rfl⟩
    · rw [build_of_faulty hfault] at hfailure
      cases hfailure
      exact .inr ⟨fault, rfl⟩
  · intro fault
    constructor
    · intro hvalue
      rcases build_cases slug given with ⟨r, hr⟩ | ⟨problem, hproblem⟩ | ⟨fault', hfault⟩
      · rw [hvalue] at hr
        cases hr
      · rw [hvalue] at hproblem
        cases hproblem
      · -- a request stops at one value only
        rw [build_of_faulty hfault] at hvalue
        cases hvalue
        exact hfault
    · exact build_of_faulty

/-- A number in place of the matrix has no size. -/
example : build "jacobi" [("A", .int 5), ("b", .arr [.int 1])] =
    .error (.value (.noSize .int)) := by
  have takes : Takes .jacobi [("A", .int 5), ("b", .arr [.int 1])] := ⟨by decide, by decide⟩
  exact build_of_faulty (.size (by decide) rfl takes rfl rfl (.matrix rfl))

/-! ## Conditions on a request -/

/-- The items of a list. -/
def itemsOf : Json → List Json
  | .arr items => items
  | _ => []

def IsList (v : Json) : Prop := ∃ items, v = .arr items

/-- What is given of a system: a matrix that is a list of lists, and vectors that are lists. -/
structure HoldsLists (m : Method) (given : Fields) : Prop where
  matrix : ∀ v, given.get? "A" = some v → IsList v ∧ ∀ row ∈ itemsOf v, IsList row
  rhs : ∀ v, given.get? "b" = some v → IsList v
  start : ∀ guess v, m.guess? = some guess → given.get? guess = some v → IsList v

/-- What is asked of the method with a slug; it says nothing of an unknown slug. -/
def OfMethod (slug : String) (P : Method → Prop) : Prop := ∀ m : Method, m.slug = slug → P m

/-- The conditions on a request, in order, each with the code of its problem. The last three are
about systems. -/
def conditions (slug : String) (given : Fields) : List (String × Prop) :=
  let rows := itemsOf (valueOf given "A")
  [("UNKNOWN_METHOD", ∃ m : Method, m.slug = slug),
    ("UNKNOWN_FIELD", OfMethod slug fun m => ∀ name ∈ given.keys, name ∈ m.fieldNames),
    ("VALIDATION_ERROR", OfMethod slug fun m => ∀ name ∈ m.requiredNames, name ∈ given.keys),
    ("EMPTY_SYSTEM", OfMethod slug fun m => m.kind = .system → 1 ≤ rows.length),
    ("NOT_SQUARE", OfMethod slug fun m => m.kind = .system →
      ∀ row ∈ rows, (itemsOf row).length = rows.length),
    ("SIZE_MISMATCH", OfMethod slug fun m => ∀ guess, m.guess? = some guess →
      (itemsOf (valueOf given "b")).length = rows.length ∧
        (itemsOf (givenStart given guess) = [] ∨
          (itemsOf (givenStart given guess)).length = rows.length))]

/-- The first condition that does not hold has this code. -/
inductive FirstBroken : List (String × Prop) → String → Prop
  | here {code : String} {P : Prop} {rest : List (String × Prop)} (h : ¬ P) :
      FirstBroken ((code, P) :: rest) code
  | later {passed code : String} {P : Prop} {rest : List (String × Prop)} (h : P)
      (hrest : FirstBroken rest code) : FirstBroken ((passed, P) :: rest) code

/-- What a request sends for a field: the value that is given, else the default. Only an empty start
vector becomes zeros, one for each row. -/
def expected (m : Method) (given : Fields) (f : Method.Field) : Json :=
  if m.guess? = some f.name ∧ itemsOf (givenStart given f.name) = [] then
    zeros (itemsOf (valueOf given "A")).length
  else taken given f

theorem FirstBroken.not_all {conditions : List (String × Prop)} (h : FirstBroken conditions code) :
    ¬ ∀ c ∈ conditions, c.2 := by
  induction h with
  | here h =>
    intro hall
    exact h (hall _ List.mem_cons_self)
  | later _ _ ih =>
    intro hall
    exact ih fun c hc => hall c (List.mem_cons_of_mem _ hc)

/-- Only one condition is the first that fails. -/
theorem FirstBroken.unique {conditions : List (String × Prop)} {other : String}
    (h : FirstBroken conditions code) (hother : FirstBroken conditions other) : code = other := by
  induction h with
  | here h =>
    cases hother with
    | here _ => rfl
    | later hpassed _ => exact absurd hpassed h
  | later hpassed _ ih =>
    cases hother with
    | here h => exact absurd hpassed h
    | later _ hrest => exact ih hrest

theorem ofMethod_slug {P : Method → Prop} : OfMethod m.slug P ↔ P m := by
  constructor
  · intro h
    exact h m rfl
  · intro h m' hslug
    rw [Method.slug_inj hslug]
    exact h

/-! ## Systems of lists -/

/-- The conditions on the shape of a system, from its rows, the entries of its right-hand side and
the items of its start vector. -/
def shapeConditions (rows entries items : List Json) : List (String × Prop) :=
  [("EMPTY_SYSTEM", 1 ≤ rows.length),
    ("NOT_SQUARE", ∀ row ∈ rows, (itemsOf row).length = rows.length),
    ("SIZE_MISMATCH", entries.length = rows.length ∧ (items = [] ∨ items.length = rows.length))]

/-- The start vector that is sent for these items: zeros have the size of the right-hand side. -/
def startWith (entries items : List Json) : Json :=
  if items = [] then zeros entries.length else .arr items

theorem size?_startWith : (startWith entries items).size? =
    some (if items = [] then entries.length else items.length) := by
  by_cases hitems : items = [] <;> simp [startWith, hitems, zeros, Json.size?]

/-- A system of lists that has all it needs. -/
structure Lists (given : Fields) (guess : String) (rows entries items : List Json) : Prop where
  matrix : valueOf given "A" = .arr rows
  rows : ∀ row ∈ rows, IsList row
  rhs : valueOf given "b" = .arr entries
  start : givenStart given guess = .arr items

theorem HoldsLists.lists (h : HoldsLists m given) (htakes : Takes m given)
    (hguess : m.guess? = some guess) :
    ∃ rows entries items, Lists given guess rows entries items := by
  obtain ⟨⟨hA, hb, -⟩, -, -⟩ := Method.system_fields hguess
  obtain ⟨a, ha⟩ := Fields.get?_of_mem_keys
    (htakes.needed "A" (Method.mem_requiredNames.mpr ⟨_, hA, rfl, rfl⟩))
  obtain ⟨b, hb⟩ := Fields.get?_of_mem_keys
    (htakes.needed "b" (Method.mem_requiredNames.mpr ⟨_, hb, rfl, rfl⟩))
  obtain ⟨⟨rows, rfl⟩, hrows⟩ := h.matrix a ha
  obtain ⟨entries, rfl⟩ := h.rhs b hb
  -- an absent start vector is the empty list
  have hstart : IsList (givenStart given guess) := by
    unfold givenStart
    cases hget : given.get? guess with
    | none => exact ⟨[], rfl⟩
    | some v => exact h.start guess v hguess hget
  obtain ⟨items, hitems⟩ := hstart
  exact ⟨rows, entries, items, by simp [valueOf, ha], hrows, by simp [valueOf, hb], hitems⟩

namespace Lists

variable (h : Lists given guess rows entries items)

include h

theorem startOf_eq : startOf given guess = .ok (startWith entries items) := by
  by_cases hitems : items = []
  · simp [startOf, startWith, h.start, h.rhs, hitems, Json.isPresent, sizeOf, Json.size?,
      Except.map]
  · simp [startOf, startWith, h.start, hitems, Json.isPresent]

theorem conditions_eq (hguess : m.guess? = some guess) : conditions m.slug given =
    ("UNKNOWN_METHOD", ∃ m' : Method, m'.slug = m.slug) ::
      ("UNKNOWN_FIELD", ∀ name ∈ given.keys, name ∈ m.fieldNames) ::
      ("VALIDATION_ERROR", ∀ name ∈ m.requiredNames, name ∈ given.keys) ::
      shapeConditions rows entries items := by
  have hkind : m.kind = .system := Method.kind_of_guess? hguess
  have hrows : itemsOf (valueOf given "A") = rows := by rw [h.matrix, itemsOf]
  have hentries : itemsOf (valueOf given "b") = entries := by rw [h.rhs, itemsOf]
  have hitems : itemsOf (givenStart given guess) = items := by rw [h.start, itemsOf]
  unfold conditions shapeConditions
  simp only [ofMethod_slug, hkind, hguess, hrows, hentries, forall_const, Option.some.injEq,
    forall_eq', hitems]

/-- Where the shape fits, every field holds what is expected. -/
theorem sent_expected (hguess : m.guess? = some guess) (hsize : entries.length = rows.length) :
    sent m given (startWith entries items) =
      ⟨m, m.fields.map fun f => (f.name, expected m given f)⟩ := by
  obtain ⟨⟨-, -, hstart⟩, -, -⟩ := Method.system_fields hguess
  rw [sent, Request.mk.injEq]
  refine ⟨rfl, List.map_congr_left ?_⟩
  intro f hf
  rw [Prod.mk.injEq]
  refine ⟨rfl, ?_⟩
  by_cases hname : m.guess? = some f.name
  · -- only one field has the name of the start vector
    have hsame : f = ⟨guess, some (.arr [])⟩ := by
      apply List.inj_on_of_nodup_map m.nodup_fieldNames hf hstart
      rw [hguess, Option.some.injEq] at hname
      exact hname.symm
    subst hsame
    have hitems : itemsOf (givenStart given guess) = items := by rw [h.start, itemsOf]
    rw [if_pos hname, startWith, expected, taken_start, h.start, h.matrix, hsize]
    simp [hname, itemsOf]
  · rw [if_neg hname, expected, if_neg fun hboth => hname hboth.1]

theorem isSquare_iff : IsSquare rows.length (.arr rows) ↔
    1 ≤ rows.length ∧ ∀ row ∈ rows, (itemsOf row).length = rows.length := by
  have hsize : ∀ row ∈ rows, row.size? = some (itemsOf row).length := by
    intro row hrow
    obtain ⟨items, rfl⟩ := h.rows row hrow
    rfl
  constructor
  · intro square
    refine ⟨Nat.one_le_iff_ne_zero.mpr square.pos, ?_⟩
    intro row hrow
    have hfits := square.rows row hrow
    rw [hsize row hrow, Option.some.injEq] at hfits
    exact hfits
  · rintro ⟨hpos, hrows⟩
    refine ⟨Nat.one_le_iff_ne_zero.mp hpos, rfl, ?_⟩
    intro row hrow
    rw [hsize row hrow, hrows row hrow]

end Lists

/-! ## Exact validation -/

/-- The one answer that the conditions allow. -/
inductive Decided (slug : String) (given : Fields) : Except Failure Request → Prop
  | accepted {m : Method} (method : m.slug = slug) (all : ∀ c ∈ conditions slug given, c.2) :
      Decided slug given (.ok ⟨m, m.fields.map fun f => (f.name, expected m given f)⟩)
  | refused {problem : Problem} (first : FirstBroken (conditions slug given) problem.code) :
      Decided slug given (.error (.invalid problem))

theorem decided_equation (hslug : "slug" ∉ given.keys) (htakes : Takes m given)
    (hguess : m.guess? = none) : Decided m.slug given (build m.slug given) := by
  have hkind : m.kind ≠ .system := by simp [Method.kind_of_guess?_none hguess]
  have hsent : sent m given .null = ⟨m, m.fields.map fun f => (f.name, expected m given f)⟩ := by
    simp [sent, expected, hguess]
  rw [build_equation hslug htakes hguess, hsent]
  apply Decided.accepted rfl
  simp only [conditions, ofMethod_slug, List.forall_mem_cons, hguess, reduceCtorEq]
  exact ⟨⟨m, rfl⟩, htakes.known, htakes.needed, fun h => absurd h hkind,
    fun h => absurd h hkind, fun _ h => h.elim, by simp⟩

/-- The shape of lists fits, or the first of its conditions that fails is reported. -/
theorem Lists.shape_cases (h : Lists given guess rows entries items) :
    ((∀ c ∈ shapeConditions rows entries items, c.2) ∧
        checkSystem (.arr rows) (.arr entries) (startWith entries items) = .ok ()) ∨
      ∃ problem, FirstBroken (shapeConditions rows entries items) problem.code ∧
        checkSystem (.arr rows) (.arr entries) (startWith entries items) =
          .error (.invalid problem) := by
  -- the conditions one after the other, in the order in which they are checked
  by_cases hpos : 1 ≤ rows.length
  case neg =>
    have hempty : rows.length = 0 := by omega
    have hsize : (Json.arr rows).size? = some 0 := by rw [Json.size?, hempty]
    exact .inr ⟨.emptySystem, .here hpos, checkSystem_of_mismatched (.empty hsize)⟩
  have hne : rows.length ≠ 0 := by omega
  by_cases hrows : ∀ row ∈ rows, (itemsOf row).length = rows.length
  case neg =>
    cases hfirst : firstOther rows.length rows with
    | none =>
      have square : IsSquare rows.length (.arr rows) := ⟨hne, rfl, firstOther_eq_none.mp hfirst⟩
      exact absurd (h.isSquare_iff.mp square).2 hrows
    | some row =>
      obtain ⟨items', rfl⟩ := h.rows row (List.mem_of_find?_eq_some hfirst)
      exact .inr ⟨.notSquare rows.length, .later hpos (.here hrows),
        checkSystem_of_mismatched (.row hne rfl hfirst rfl)⟩
  have square := h.isSquare_iff.mpr ⟨hpos, hrows⟩
  by_cases hrhs : entries.length = rows.length
  case neg =>
    exact .inr ⟨.rhsSize _ _, .later hpos (.later hrows (.here fun hboth => hrhs hboth.1)),
      checkSystem_of_mismatched (.rhs square rfl hrhs)⟩
  have hsize : (Json.arr entries).size? = some rows.length := by rw [Json.size?, hrhs]
  have hstart := @size?_startWith entries items
  by_cases hitems : items = []
  · -- zeros, as many as the right-hand side has entries, always fit
    rw [if_pos hitems, hrhs] at hstart
    refine .inl ⟨?_, checkSystem_of_fits square hsize hstart⟩
    simpa [shapeConditions, hitems] using ⟨hpos, hrows, hrhs⟩
  rw [if_neg hitems] at hstart
  by_cases hfits : items.length = rows.length
  · rw [hfits] at hstart
    refine .inl ⟨?_, checkSystem_of_fits square hsize hstart⟩
    simpa [shapeConditions, hfits] using ⟨hpos, hrows, hrhs⟩
  · have hbroken :
        ¬ (entries.length = rows.length ∧ (items = [] ∨ items.length = rows.length)) := by
      rintro ⟨-, hnil | hsame⟩
      · exact hitems hnil
      · exact hfits hsame
    exact .inr ⟨.guessSize _ _, .later hpos (.later hrows (.here hbroken)),
      checkSystem_of_mismatched (.guess square hsize hstart hfits)⟩

theorem decided_system (hslug : "slug" ∉ given.keys) (htakes : Takes m given)
    (hguess : m.guess? = some guess) (h : Lists given guess rows entries items) :
    Decided m.slug given (build m.slug given) := by
  have hbuild := build_system hslug htakes hguess
  rw [h.startOf_eq, h.matrix, h.rhs] at hbuild
  have hconditions := h.conditions_eq hguess
  rcases h.shape_cases with ⟨hshape, hfits⟩ | ⟨problem, hfirst, hproblem⟩
  · have hsizes := hshape _ (List.mem_cons_of_mem _ (List.mem_cons_of_mem _ List.mem_cons_self))
    have hall : ∀ c ∈ conditions m.slug given, c.2 := by
      rw [hconditions]
      simp only [List.forall_mem_cons]
      exact ⟨⟨m, rfl⟩, htakes.known, htakes.needed, hshape⟩
    simp only [hfits, Except.map, h.sent_expected hguess hsizes.1] at hbuild
    rw [hbuild]
    exact .accepted rfl hall
  · have hbroken : FirstBroken (conditions m.slug given) problem.code := by
      rw [hconditions]
      exact .later ⟨m, rfl⟩ (.later htakes.known (.later htakes.needed hfirst))
    simp only [hproblem, Except.map] at hbuild
    rw [hbuild]
    exact .refused hbroken

/-- Whatever its names, a request whose system consists of lists gets the answer that the conditions
allow. -/
theorem build_decided (hslug : "slug" ∉ given.keys)
    (hlists : OfMethod slug fun m => m.kind = .system → HoldsLists m given) :
    Decided slug given (build slug given) := by
  rcases names_cases slug given with hself | ⟨-, hm | ⟨m, rfl, hnames⟩⟩
  · exact absurd hself hslug
  · rw [build_of_unknown_slug hslug hm]
    apply Decided.refused
    apply FirstBroken.here
    rintro ⟨m, hm'⟩
    exact hm m hm'
  -- from here on the first condition holds, and each case is the next that fails
  have hknown : ∃ m' : Method, m'.slug = m.slug := ⟨m, rfl⟩
  rcases hnames with ⟨name, hname, hfield⟩ | ⟨known, name, needed, hname⟩ | htakes
  · rw [build_of_unknown_field hslug hname hfield]
    apply Decided.refused
    refine .later hknown (.here ?_)
    intro hall
    exact hfield (ofMethod_slug.mp hall name hname)
  · obtain ⟨fault, hfault⟩ := build_of_missing hslug known needed hname
    rw [hfault]
    apply Decided.refused
    refine .later hknown (.later (ofMethod_slug.mpr known) (.here ?_))
    intro hall
    exact hname (ofMethod_slug.mp hall name needed)
  cases hguess : m.guess? with
  | none => exact decided_equation hslug htakes hguess
  | some guess =>
    have hsystem := ofMethod_slug.mp hlists (Method.kind_of_guess? hguess)
    obtain ⟨rows, entries, items, h⟩ := hsystem.lists htakes hguess
    exact decided_system hslug htakes hguess h

/-- A request is accepted if all conditions hold and then has every value as expected; otherwise the
problem is that of the first condition that does not hold. -/
theorem build_exact (hslug : "slug" ∉ given.keys)
    (hlists : OfMethod slug fun m => m.kind = .system → HoldsLists m given) :
    ((∃ r, build slug given = .ok r) ↔ ∀ c ∈ conditions slug given, c.2) ∧
    (∀ r, build slug given = .ok r → r.method.slug = slug ∧
      r.body = r.method.fields.map fun f => (f.name, expected r.method given f)) ∧
    ∀ failure, build slug given = .error failure → ∃ problem, failure = .invalid problem ∧
      FirstBroken (conditions slug given) problem.code := by
  have hdecided := build_decided hslug hlists
  cases hbuild : build slug given with
  | ok r =>
    rw [hbuild] at hdecided
    cases hdecided with
    | accepted method all =>
      refine ⟨⟨fun _ => all, fun _ => ⟨_, rfl⟩⟩, ?_, by simp⟩
      intro r hr
      cases hr
      exact ⟨method, rfl⟩
  | error failure =>
    rw [hbuild] at hdecided
    cases hdecided with
    | refused first =>
      refine ⟨⟨by simp, fun hall => absurd hall first.not_all⟩, by simp, ?_⟩
      intro failure hfailure
      cases hfailure
      exact ⟨_, rfl, first⟩

/-- A ragged matrix is refused as such, even if the right-hand side, which gives the absent start
vector its size, does not fit it either. -/
theorem build_exact_ragged :
    let given : Fields := [("b", .arr [.int 1, .int 2, .int 3]),
      ("A", .arr [.arr [.int 1, .int 2], .arr [.int 3]])]
    "slug" ∉ given.keys ∧
      (OfMethod "jacobi" fun m => m.kind = .system → HoldsLists m given) ∧
      ∃ problem, build "jacobi" given = .error (.invalid problem) ∧
        problem.code = "NOT_SQUARE" := by
  intro given
  have hslug : "slug" ∉ given.keys := by decide
  have hlists : HoldsLists .jacobi given := by
    constructor
    · intro v hv
      cases hv
      exact ⟨⟨_, rfl⟩, by simp [itemsOf, IsList]⟩
    · intro v hv
      cases hv
      exact ⟨_, rfl⟩
    · intro guess v hguess hv
      cases hguess
      cases hv
  have hall : OfMethod "jacobi" fun m => m.kind = .system → HoldsLists m given :=
    (ofMethod_slug (m := .jacobi)).mpr fun _ => hlists
  -- the fifth condition fails, behind the names and the number of rows
  have hragged : ¬ (Method.jacobi.kind = .system → ∀ row ∈ itemsOf (valueOf given "A"),
      (itemsOf row).length = (itemsOf (valueOf given "A")).length) := by decide
  have hfirst : FirstBroken (conditions "jacobi" given) "NOT_SQUARE" := by
    have hknown : ∃ m : Method, m.slug = "jacobi" := ⟨.jacobi, rfl⟩
    refine .later hknown (.later ?_ (.later ?_ (.later ?_ (.here ?_))))
    all_goals rw [show "jacobi" = Method.jacobi.slug from rfl, ofMethod_slug]
    · decide
    · decide
    · decide
    · exact hragged
  obtain ⟨haccepted, -, hrefused⟩ := build_exact hslug hall
  cases hbuild : build "jacobi" given with
  | ok r => exact absurd (haccepted.mp ⟨r, hbuild⟩) hfirst.not_all
  | error failure =>
    obtain ⟨problem, rfl, hcode⟩ := hrefused failure hbuild
    exact ⟨hslug, hall, problem, rfl, hcode.unique hfirst⟩

end Request

end FormulaDesk
