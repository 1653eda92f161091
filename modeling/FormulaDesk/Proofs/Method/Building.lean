import FormulaDesk.Proofs.Json.Fields
import FormulaDesk.Proofs.Method.Catalog
import FormulaDesk.Proofs.Method.Shape

/-! # Building a request

What `Request.build` makes of any fields, of whatever kind their values are. The names come first:
the slug, the names of the fields (`Takes`), and only then the values. An equation needs no more;
a system gets a start vector (`startOf`) and has its shape checked.

* `build_equation`, `build_system`: what becomes of fields whose names are taken;
* `names_cases`: the points at which all other fields are refused, each with its own lemma;
* `build_eq_ok`: when there is a request, and which one;
* `get?_of_build`: what a request has of the values that were given.
-/

namespace FormulaDesk

variable {m : Method} {given : Fields} {slug guess : String} {f : Method.Field} {r : Request}

/-! ## Names -/

/-- Where all names are taken only missing ones are a fault. -/
theorem Arguments.check_of_taken {taken required : List String} (hself : "self" ∉ taken)
    (h : ∀ name ∈ given.keys, name ∈ taken) :
    check taken required given =
      match required.filter fun name => !given.contains name with
      | [] => .ok ()
      | missing => .error (.missing missing) := by
  have hnone : firstUnexpected taken given.keys = none := by
    rw [firstUnexpected, List.findSome?_eq_none_iff]
    intro name hname
    have htaken := h name hname
    have hne : name ≠ "self" := fun heq => hself (heq ▸ htaken)
    simp [hne, htaken]
  cases hmissing : required.filter fun name => !given.contains name with
  | nil => simp [check, hnone, hmissing]
  | cons name rest => simp [check, hnone, hmissing]

namespace Request

/-- The names of the fields are those of the method, and none that is needed is missing. -/
structure Takes (m : Method) (given : Fields) : Prop where
  known : ∀ name ∈ given.keys, name ∈ m.fieldNames
  needed : ∀ name ∈ m.requiredNames, name ∈ given.keys

/-- No name is unknown when every given one is a field of the method. -/
theorem unknownNames_eq_nil :
    unknownNames m given = [] ↔ ∀ name ∈ given.keys, name ∈ m.fieldNames := by
  have hsorted : ∀ names, sortedNames names = [] ↔ names = [] := by
    intro names
    constructor
    · intro h
      unfold sortedNames at h
      cases hmerge : names.mergeSort fun a b => decide (a ≤ b) with
      | nil =>
        have hperm := List.mergeSort_perm names fun a b => decide (a ≤ b)
        rw [hmerge] at hperm
        exact hperm.nil_eq.symm
      | cons name rest =>
        rw [hmerge, List.eraseDups_cons] at h
        cases h
    · rintro rfl
      simp [sortedNames]
  rw [unknownNames, hsorted, List.filter_eq_nil_iff]
  simp

/-! ## Values -/

/-- The value of a field before anything is filled in: the one given, else the default. -/
def taken (given : Fields) (f : Method.Field) : Json := (given.get? f.name <|> f.default).getD .null

/-- A value among the given ones. -/
def valueOf (given : Fields) (name : String) : Json := (given.get? name).getD .null

/-- The start vector that is given; an absent one is empty. -/
def givenStart (given : Fields) (guess : String) : Json := (given.get? guess).getD (.arr [])

/-- The start vector that is sent: zeros, as many as the right-hand side has entries, in place of
one that is not present. -/
def startOf (given : Fields) (guess : String) : Except ValueFault Json :=
  if (givenStart given guess).isPresent then .ok (givenStart given guess)
  else (sizeOf (valueOf given "b")).map zeros

/-- The request with all values as they are taken, and with a start vector if it is a system. -/
def sent (m : Method) (given : Fields) (start : Json) : Request where
  method := m
  body := m.fields.map fun f =>
    (f.name, if m.guess? = some f.name then start else taken given f)

/-- A given value is taken as it stands. -/
theorem taken_of_get? {v : Json} (h : given.get? f.name = some v) : taken given f = v := by
  simp [taken, h]

/-- For a mapping the method takes, filling lists its fields in order, each with the given value or
the default. -/
theorem fill_eq (h : Takes m given) :
    fill m.fields given = m.fields.map fun f => (f.name, taken given f) := by
  have hall : ∀ f ∈ m.fields,
      (given.get? f.name <|> f.default).map (f.name, ·) = some (f.name, taken given f) := by
    intro f hf
    unfold taken
    cases hgiven : given.get? f.name with
    | some v => rfl
    | none =>
      cases hdefault : f.default with
      | some v => rfl
      | none =>
        -- a field without a default is required, and all of these are given
        have hname := h.needed f.name (Method.mem_requiredNames.mpr ⟨f, hf, hdefault, rfl⟩)
        exact absurd hname (Fields.get?_eq_none_iff.mp hgiven)
  unfold fill
  rw [← List.filterMap_eq_map]
  exact List.filterMap_congr hall

/-- A filled request has the method's fields in their order. -/
theorem keys_fill (h : Takes m given) : (fill m.fields given).keys = m.fieldNames := by
  rw [fill_eq h]
  exact Fields.keys_map m.fields _ _

/-- Under each of the method's fields stands the value that was taken for it. -/
theorem get?_fill (h : Takes m given) (hf : f ∈ m.fields) :
    (fill m.fields given).get? f.name = some (taken given f) := by
  rw [fill_eq h]
  exact Fields.get?_map _ m.nodup_fieldNames hf

/-- The body that is sent differs from the filled one in the starting guess alone. -/
theorem get?_sent (given : Fields) (hf : f ∈ m.fields) (start : Json) :
    (sent m given start).body.get? f.name =
      some (if m.guess? = some f.name then start else taken given f) :=
  Fields.get?_map _ m.nodup_fieldNames hf

/-- What the checks look at is what is sent. -/
theorem value_sent (given : Fields) (hf : f ∈ m.fields) (start : Json) :
    (sent m given start).value f.name =
      if m.guess? = some f.name then start else taken given f := by
  rw [value, get?_sent given hf, Option.getD_some]

/-! ## Making the request -/

/-- The dataclass accepts a mapping the method takes, and goes on to the starting guess. -/
theorem make_eq (h : Takes m given) : make m given = fillGuess ⟨m, fill m.fields given⟩ := by
  have hmissing : (m.requiredNames.filter fun name => !given.contains name) = [] := by
    rw [List.filter_eq_nil_iff]
    intro name hname
    simp [Fields.contains_iff_mem_keys.mpr (h.needed name hname)]
  unfold make
  rw [Arguments.check_of_taken m.self_not_mem h.known, hmissing]

/-- A required field that is not given is an error of the dataclass. -/
theorem make_of_missing (known : ∀ name ∈ given.keys, name ∈ m.fieldNames) {name : String}
    (needed : name ∈ m.requiredNames) (hname : name ∉ given.keys) :
    ∃ fault, make m given = .error fault := by
  have hmissing : name ∈ m.requiredNames.filter fun name => !given.contains name := by
    rw [List.mem_filter, Bool.not_eq_true', ← Bool.not_eq_true, Fields.contains_iff_mem_keys]
    exact ⟨needed, hname⟩
  unfold make
  rw [Arguments.check_of_taken m.self_not_mem known]
  cases hfilter : m.requiredNames.filter fun name => !given.contains name with
  | nil =>
    rw [hfilter] at hmissing
    cases hmissing
  | cons first rest => exact ⟨_, rfl⟩

/-- A request without a start vector has the values as they are taken. -/
theorem sent_of_equation (h : Takes m given) (hguess : m.guess? = none) :
    sent m given .null = ⟨m, fill m.fields given⟩ := by
  simp [sent, fill_eq h, hguess]

/-- A method without a starting guess sends what was filled. -/
theorem fillGuess_equation (h : Takes m given) (hguess : m.guess? = none) :
    fillGuess ⟨m, fill m.fields given⟩ = .ok (sent m given .null) := by
  simp [fillGuess, sent_of_equation h hguess, hguess]

/-- A start vector that is written into a request makes it the one that is sent. -/
theorem sent_eq_set (h : Takes m given) (hguess : m.guess? = some guess) (start : Json) :
    sent m given start = ⟨m, (fill m.fields given).set guess start⟩ := by
  obtain ⟨⟨-, -, hstart⟩, -, -⟩ := Method.system_fields hguess
  have hset := Fields.set_map (taken given) m.nodup_fieldNames hstart start
  dsimp only at hset
  rw [fill_eq h, hset, sent]
  simp only [hguess, Option.some.injEq, eq_comm]

/-- A required field is taken from the mapping. -/
theorem taken_required {name : String} : taken given ⟨name, none⟩ = valueOf given name := by
  cases hget : given.get? name <;> simp [taken, valueOf, hget]

/-- The starting guess is the given one, or the empty list that stands for none. -/
theorem taken_start : taken given ⟨guess, some (.arr [])⟩ = givenStart given guess := by
  cases hget : given.get? guess <;> simp [taken, givenStart, hget]

/-- To write the start vector that is there changes nothing. -/
theorem sent_givenStart (h : Takes m given) (hguess : m.guess? = some guess) :
    sent m given (givenStart given guess) = ⟨m, fill m.fields given⟩ := by
  obtain ⟨⟨-, -, hstart⟩, -, -⟩ := Method.system_fields hguess
  have hgiven := get?_fill h hstart
  rw [taken_start] at hgiven
  rw [sent_eq_set h hguess, Fields.set_eq_self hgiven]

/-- A system method replaces the empty starting guess by zeros, as many as the right-hand side has
entries. -/
theorem fillGuess_system (h : Takes m given) (hguess : m.guess? = some guess) :
    fillGuess ⟨m, fill m.fields given⟩ = (startOf given guess).map (sent m given) := by
  obtain ⟨⟨-, hb, hstart⟩, -, -⟩ := Method.system_fields hguess
  have hrhs := get?_fill h hb
  have hgiven := get?_fill h hstart
  rw [taken_required] at hrhs
  rw [taken_start] at hgiven
  unfold fillGuess startOf value
  simp only [hguess, hgiven, hrhs, Option.getD_some]
  by_cases hpresent : (givenStart given guess).isPresent = true
  · simp [hpresent, sent_givenStart h hguess, Except.map]
  · cases sizeOf (valueOf given "b") <;>
      simp [hpresent, sent_eq_set h hguess, Except.map, bind, Except.bind, pure, Except.pure]

/-! ## Building by slug -/

/-- `slug` is the name of the builder's own parameter, so a mapping never passes it. -/
theorem contains_slug (h : "slug" ∉ given.keys) : given.contains "slug" = false := by
  rw [← Bool.not_eq_true, Fields.contains_iff_mem_keys]
  exact h

/-- Once the names are known, a request is made and checked. -/
theorem build_of_known (hslug : "slug" ∉ given.keys)
    (known : ∀ name ∈ given.keys, name ∈ m.fieldNames) :
    build m.slug given = (do
      let r ← (make m given).mapError fun fault => .invalid (.invalidFields m.slug fault)
      r.validate
      return r) := by
  simp [build, contains_slug hslug, m.ofSlug_slug, unknownNames_eq_nil.mpr known, bind, Except.bind,
    pure, Except.pure]

/-- Building for a method without a system checks nothing of the values. -/
theorem build_equation (hslug : "slug" ∉ given.keys) (h : Takes m given)
    (hguess : m.guess? = none) : build m.slug given = .ok (sent m given .null) := by
  have hvalid : (sent m given .null).validate = .ok () := by simp [validate, sent, hguess]
  rw [build_of_known hslug h.known, make_eq h, fillGuess_equation h hguess]
  simp [hvalid, bind, Except.bind, pure, Except.pure]

/-- A system is checked with the start vector that is sent. -/
theorem validate_sent (hguess : m.guess? = some guess) (start : Json) :
    (sent m given start).validate = checkSystem (valueOf given "A") (valueOf given "b") start := by
  obtain ⟨⟨hA, hb, hstart⟩, hneA, hneb⟩ := Method.system_fields hguess
  have hmatrix := value_sent given hA start
  have hrhs := value_sent given hb start
  have hgiven := value_sent given hstart start
  rw [hguess, if_neg (by simpa using hneA), taken_required] at hmatrix
  rw [hguess, if_neg (by simpa using hneb), taken_required] at hrhs
  rw [hguess, if_pos rfl] at hgiven
  have hm : (sent m given start).method.guess? = some guess := hguess
  unfold validate
  rw [hm]
  show checkSystem _ _ _ = _
  rw [hmatrix, hrhs, hgiven]

/-- Building for a system method fixes the guess first and checks the shapes next. -/
theorem build_system (hslug : "slug" ∉ given.keys) (h : Takes m given)
    (hguess : m.guess? = some guess) :
    build m.slug given =
      match startOf given guess with
      | .error fault => .error (.invalid (.invalidFields m.slug fault))
      | .ok start => (checkSystem (valueOf given "A") (valueOf given "b") start).map
          fun _ => sent m given start := by
  rw [build_of_known hslug h.known, make_eq h, fillGuess_system h hguess]
  cases startOf given guess with
  | error fault => rfl
  | ok start =>
    simp only [Except.map, bind, Except.bind, mapError_ok, validate_sent hguess]
    cases checkSystem (valueOf given "A") (valueOf given "b") start <;> rfl

/-! ## Refused names -/

/-- A field called `slug` clashes with the builder's own parameter. -/
theorem build_of_slug (h : "slug" ∈ given.keys) :
    build slug given = .error (.value (.arguments "build_request()" (.repeated "slug"))) := by
  have hcontains : given.contains "slug" = true := Fields.contains_iff_mem_keys.mpr h
  simp [build, hcontains, bind, Except.bind, throw, throwThe, MonadExceptOf.throw]

/-- A slug of no method is refused before any field is looked at. -/
theorem build_of_unknown_slug (hslug : "slug" ∉ given.keys) (h : ∀ m : Method, m.slug ≠ slug) :
    build slug given = .error (.invalid (.unknownMethod slug (Method.all.map (·.slug)))) := by
  simp [build, contains_slug hslug, Method.ofSlug_of_forall_ne h, bind, Except.bind]

/-- A name that is no field is refused before the values are looked at. -/
theorem build_of_unknown_field (hslug : "slug" ∉ given.keys) {name : String}
    (hname : name ∈ given.keys) (h : name ∉ m.fieldNames) :
    build m.slug given = .error (.invalid (.unknownFields m.slug (unknownNames m given))) := by
  have hunknown : unknownNames m given ≠ [] := by
    intro hnil
    exact h (unknownNames_eq_nil.mp hnil name hname)
  unfold build
  cases hnames : unknownNames m given with
  | nil => exact absurd hnames hunknown
  | cons first rest =>
    simp [contains_slug hslug, m.ofSlug_slug, hnames, bind, Except.bind, throw, throwThe,
      MonadExceptOf.throw]

/-- A required field that is missing is reported as the method's invalid fields. -/
theorem build_of_missing (hslug : "slug" ∉ given.keys)
    (known : ∀ name ∈ given.keys, name ∈ m.fieldNames) {name : String}
    (needed : name ∈ m.requiredNames) (hname : name ∉ given.keys) :
    ∃ fault, build m.slug given = .error (.invalid (.invalidFields m.slug fault)) := by
  obtain ⟨fault, hfault⟩ := make_of_missing known needed hname
  refine ⟨fault, ?_⟩
  rw [build_of_known hslug known, hfault]
  rfl

/-- Either the names are refused, at the first of four points, or they are taken. -/
theorem names_cases (slug : String) (given : Fields) :
    "slug" ∈ given.keys ∨
      "slug" ∉ given.keys ∧ ((∀ m : Method, m.slug ≠ slug) ∨ ∃ m : Method, m.slug = slug ∧
        ((∃ name ∈ given.keys, name ∉ m.fieldNames) ∨
          (∀ name ∈ given.keys, name ∈ m.fieldNames) ∧
            (∃ name ∈ m.requiredNames, name ∉ given.keys) ∨
          Takes m given)) := by
  by_cases hslug : "slug" ∈ given.keys
  · exact .inl hslug
  refine .inr ⟨hslug, ?_⟩
  by_cases hm : ∃ m : Method, m.slug = slug
  · obtain ⟨m, hm⟩ := hm
    refine .inr ⟨m, hm, ?_⟩
    by_cases known : ∀ name ∈ given.keys, name ∈ m.fieldNames
    · by_cases needed : ∀ name ∈ m.requiredNames, name ∈ given.keys
      · exact .inr (.inr ⟨known, needed⟩)
      · push Not at needed
        exact .inr (.inl ⟨known, needed⟩)
    · push Not at known
      exact .inl known
  · push Not at hm
    exact .inl hm

/-- When there is a request, and which. -/
theorem build_eq_ok : build slug given = .ok r ↔
    "slug" ∉ given.keys ∧ ∃ m : Method, m.slug = slug ∧ Takes m given ∧
      (m.guess? = none ∧ r = sent m given .null ∨
        ∃ guess start, m.guess? = some guess ∧ startOf given guess = .ok start ∧
          checkSystem (valueOf given "A") (valueOf given "b") start = .ok () ∧
          r = sent m given start) := by
  constructor
  · intro h
    -- each way in which the names are refused gives an error
    rcases names_cases slug given with hslug | ⟨hslug, hm | ⟨m, rfl, hnames⟩⟩
    · rw [build_of_slug hslug] at h
      cases h
    · rw [build_of_unknown_slug hslug hm] at h
      cases h
    rcases hnames with ⟨name, hname, hfield⟩ | ⟨known, name, needed, hname⟩ | htakes
    · rw [build_of_unknown_field hslug hname hfield] at h
      cases h
    · obtain ⟨fault, hfault⟩ := build_of_missing hslug known needed hname
      rw [hfault] at h
      cases h
    refine ⟨hslug, m, rfl, htakes, ?_⟩
    cases hguess : m.guess? with
    | none =>
      rw [build_equation hslug htakes hguess] at h
      cases h
      exact .inl ⟨rfl, rfl⟩
    | some guess =>
      rw [build_system hslug htakes hguess] at h
      split at h
      · cases h
      · rename_i start hstart
        obtain ⟨⟨⟩, hshape, rfl⟩ := map_eq_ok.mp h
        exact .inr ⟨guess, start, rfl, hstart, hshape, rfl⟩
  · rintro ⟨hslug, m, rfl, htakes, ⟨hguess, rfl⟩ | ⟨guess, start, hguess, hstart, hshape, rfl⟩⟩
    · exact build_equation hslug htakes hguess
    · rw [build_system hslug htakes hguess, hstart]
      simp [hshape, Except.map]

/-- A request that is built is for the method of the slug. -/
theorem slug_of_build (h : build slug given = .ok r) : r.method.slug = slug := by
  obtain ⟨-, m, hm, -, ⟨-, rfl⟩ | ⟨guess, start, -, -, -, rfl⟩⟩ := build_eq_ok.mp h
  · exact hm
  · exact hm

/-- A request has every value as it was given; only a start vector that is not present becomes
zeros, as many as the matrix has rows. -/
theorem get?_of_build {name : String} {v : Json} (h : build slug given = .ok r)
    (hget : given.get? name = some v) :
    r.body.get? name = some v ∨ r.method.guess? = some name ∧ v.isPresent = false ∧
      ∃ n, (r.value "A").size? = some n ∧ r.body.get? name = some (zeros n) := by
  obtain ⟨-, m, rfl, htakes, hbuilt⟩ := build_eq_ok.mp h
  obtain ⟨f, hf, rfl⟩ := List.mem_map.mp (htakes.known name (Fields.mem_keys_of_get? hget))
  rcases hbuilt with ⟨hguess, rfl⟩ | ⟨guess, start, hguess, hstart, hshape, rfl⟩
  · left
    rw [get?_sent given hf, hguess, if_neg (by simp), taken_of_get? hget]
  -- only the start vector is not sent as it is given
  by_cases hname : m.guess? = some f.name
  case neg =>
    left
    rw [get?_sent given hf, if_neg hname, taken_of_get? hget]
  obtain ⟨⟨hA, -, -⟩, hneA, -⟩ := Method.system_fields hguess
  rw [get?_sent given hf, if_pos hname]
  have hsame : guess = f.name := by
    rw [hguess, Option.some.injEq] at hname
    exact hname
  subst hsame
  have hgiven : givenStart given f.name = v := by simp [givenStart, hget]
  unfold startOf at hstart
  rw [hgiven] at hstart
  cases hpresent : v.isPresent with
  | true =>
    rw [hpresent, if_pos rfl] at hstart
    cases hstart
    exact .inl rfl
  | false =>
    rw [hpresent, if_neg (by simp)] at hstart
    obtain ⟨k, hk, rfl⟩ := map_eq_ok.mp hstart
    -- the zeros are counted by the right-hand side, which has as many entries as there are rows
    obtain ⟨n, square, hrhs, -⟩ := checkSystem_eq_ok.mp hshape
    have hsize : k = n := by
      rw [sizeOf_eq_ok, hrhs, Option.some.injEq] at hk
      exact hk.symm
    have hmatrix := value_sent given hA (zeros k)
    rw [hguess, if_neg (by simpa using hneA), taken_required] at hmatrix
    refine .inr ⟨hguess, rfl, n, ?_, by rw [hsize]⟩
    rw [hmatrix]
    exact square.size

end Request

end FormulaDesk
