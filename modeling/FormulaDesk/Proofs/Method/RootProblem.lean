import FormulaDesk.Dialect.Conversion
import FormulaDesk.Proofs.Method.Building

/-! # Root problems

What a user states for a method that solves equations: a markup, for some methods also that of an
iteration map, and numbers for any of the other fields. All fields that say the same as the problem
are built to one request (`RootProblem.build_of_get?`), and nothing holds it back
(`RootProblem.isFinite_body`).
-/

namespace FormulaDesk

variable {m : Method} {f : Method.Field} {v : Json}

/-- A number of the field's own kind: a finite float, or a whole number that has no more digits than
a reader accepts. -/
inductive Method.Field.Suits : Method.Field → Json → Prop
  | real {name : String} {usual x : Float} (hx : (Binary.ofFloat x).isFinite = true) :
    Suits ⟨name, some (.float usual)⟩ (.float x)
  | whole {name : String} {usual n : Int}
    (hn : (Nat.toDigits 10 n.natAbs).length ≤ Numeral.maxDigits) :
    Suits ⟨name, some (.int usual)⟩ (.int n)

/-- An equation for a method, with what is said about the fields of its request. -/
structure RootProblem (m : Method) where
  markup : String
  map? : Option String := none
  parameters : Fields := []
  kind : m.kind = .equation
  converts : (Conversion.evaluableOf markup).value ≠ ""
  hasMap : map?.isSome = true → "g_function" ∈ m.fieldNames
  distinct : parameters.keys.Nodup
  suits : ∀ kv ∈ parameters, ∃ f ∈ m.fields, f.name = kv.1 ∧ f.Suits kv.2

namespace Method

/-- A value that suits a field has a strict encoding. -/
theorem Field.Suits.isFinite (h : f.Suits v) : v.isFinite = true := by
  cases h with
  | real hx => exact hx
  | whole _ => rfl

/-- Numbers are asked for in fields that hold no expression. -/
theorem Field.Suits.name_ne (h : f.Suits v) (hf : f ∈ m.fields) :
    f.name ≠ "equation" ∧ f.name ≠ "g_function" := by
  have hall : m.fields.all (fun f =>
      !(f.default.any fun usual => usual.kind == .float || usual.kind == .int) ||
        (f.name != "equation" && f.name != "g_function")) = true := by
    cases m <;> decide +kernel
  have hfield := List.all_eq_true.mp hall f hf
  cases h <;> simpa [Json.kind] using hfield

/-- A method for one equation has no starting guess among its fields. -/
theorem guess?_of_kind (h : m.kind = .equation) : m.guess? = none := by
  cases m <;> simp [kind, guess?] at h ⊢

/-- A method for one equation requires the equation alone. -/
theorem requiredNames_of_kind (h : m.kind = .equation) : m.requiredNames = ["equation"] := by
  cases m <;> first | rfl | cases h

/-- Every default has a strict encoding. -/
theorem isFinite_default (hf : f ∈ m.fields) : (f.default.getD .null).isFinite = true := by
  have hall : m.fields.all (fun f => (f.default.getD .null).isFinite) = true := by
    cases m <;> decide +kernel
  exact List.all_eq_true.mp hall f hf

end Method

namespace Request

variable {given : Fields}

/-- Nothing that a request has by default holds it back. -/
theorem isFinite_fill (h : Takes m given) (hgiven : ∀ kv ∈ given, kv.2.isFinite = true) :
    (Json.obj (fill m.fields given)).isFinite = true := by
  rw [Json.isFinite, Json.fieldsFinite_eq_all, List.all_eq_true, fill_eq h]
  intro kv hkv
  obtain ⟨f, hf, rfl⟩ := List.mem_map.mp hkv
  show (taken given f).isFinite = true
  cases hget : given.get? f.name with
  | none => simpa [taken, hget] using Method.isFinite_default hf
  | some v =>
    rw [taken_of_get? hget]
    exact hgiven _ (Fields.mem_of_get? hget)

/-- An equation is asked for with whatever is given under the names of its fields. -/
theorem build_of_equation (hkind : m.kind = .equation)
    (hknown : ∀ k ∈ given.keys, k ∈ m.fieldNames) (hequation : "equation" ∈ given.keys) :
    Takes m given ∧ build m.slug given = .ok ⟨m, fill m.fields given⟩ := by
  have htakes : Takes m given := by
    refine ⟨hknown, ?_⟩
    rw [Method.requiredNames_of_kind hkind]
    intro name hname
    rwa [List.mem_singleton.mp hname]
  have hslug : "slug" ∉ given.keys := fun hmem => m.slug_not_mem (hknown _ hmem)
  have hguess := Method.guess?_of_kind hkind
  exact ⟨htakes, by rw [build_equation hslug htakes hguess, sent_of_equation htakes hguess]⟩

end Request

namespace RootProblem

variable {given : Fields}

/-- The expressions, in the evaluable dialect. -/
def expressions (p : RootProblem m) : Fields :=
  ("equation", .str (Conversion.evaluableOf p.markup).value) ::
    p.map?.toList.map fun markup => ("g_function", .str (Conversion.evaluableOf markup).value)

/-- All that the problem says. -/
def fields (p : RootProblem m) : Fields := p.expressions ++ p.parameters

/-- The body of the request: what the problem says, and the defaults of all other fields. -/
def body (p : RootProblem m) : Fields := Request.fill m.fields p.fields

/-- The expressions of a problem are texts under the two names for them. -/
theorem mem_expressions {p : RootProblem m} {kv : String × Json} (h : kv ∈ p.expressions) :
    kv.1 ∈ m.fieldNames ∧ (kv.1 = "equation" ∨ kv.1 = "g_function") ∧
      ∃ e : String, kv.2 = .str e := by
  rcases List.mem_cons.mp h with rfl | h
  · refine ⟨?_, .inl rfl, _, rfl⟩
    apply m.requiredNames_subset
    rw [Method.requiredNames_of_kind p.kind]
    exact List.mem_singleton.mpr rfl
  · obtain ⟨markup, hmarkup, rfl⟩ := List.mem_map.mp h
    refine ⟨p.hasMap ?_, .inr rfl, _, rfl⟩
    rw [Option.mem_toList] at hmarkup
    rw [hmarkup]
    rfl

/-- The parameters of a problem are the other fields of its method. -/
theorem mem_parameters {p : RootProblem m} {kv : String × Json} (h : kv ∈ p.parameters) :
    kv.1 ∈ m.fieldNames ∧ kv.1 ≠ "equation" ∧ kv.1 ≠ "g_function" := by
  obtain ⟨f, hf, hname, hsuits⟩ := p.suits kv h
  rw [← hname]
  exact ⟨List.mem_map_of_mem hf, hsuits.name_ne hf⟩

/-- A problem names every field once. -/
theorem nodup_fields (p : RootProblem m) : p.fields.keys.Nodup := by
  have hexpressions : p.expressions.keys.Nodup := by
    unfold expressions
    cases p.map? <;> simp [Fields.keys]
  have happend : p.fields.keys = p.expressions.keys ++ p.parameters.keys := List.map_append
  rw [happend, List.nodup_append']
  refine ⟨hexpressions, p.distinct, ?_⟩
  rintro name hname hparameter
  obtain ⟨kv, hkv, rfl⟩ := List.mem_map.mp hname
  obtain ⟨kv', hkv', hsame⟩ := List.mem_map.mp hparameter
  obtain ⟨-, hequation, hmap⟩ := mem_parameters hkv'
  rcases (mem_expressions hkv).2.1 with h | h
  · exact hequation (hsame.trans h)
  · exact hmap (hsame.trans h)

/-- A problem names the fields of its method alone. -/
theorem known (p : RootProblem m) : ∀ k ∈ p.fields.keys, k ∈ m.fieldNames := by
  intro k hk
  obtain ⟨kv, hkv, rfl⟩ := List.mem_map.mp hk
  rcases List.mem_append.mp hkv with h | h
  · exact (mem_expressions h).1
  · exact (mem_parameters h).1

theorem equation_mem (p : RootProblem m) : "equation" ∈ p.fields.keys := List.mem_cons_self

/-- The method takes every problem written for it. -/
theorem takes (p : RootProblem m) : Request.Takes m p.fields :=
  (Request.build_of_equation p.kind p.known p.equation_mem).1

/-- Fields that say the same as the problem are built to its request. -/
theorem build_of_get? (p : RootProblem m) (h : ∀ k, given.get? k = p.fields.get? k) :
    Request.build m.slug given = .ok ⟨m, p.body⟩ := by
  have hkeys : ∀ k, k ∈ given.keys ↔ k ∈ p.fields.keys := by
    intro k
    rw [← Fields.contains_iff_mem_keys, ← Fields.contains_iff_mem_keys]
    show (given.get? k).isSome = true ↔ (p.fields.get? k).isSome = true
    rw [h k]
  have hbody : Request.fill m.fields given = p.body := by
    unfold body Request.fill
    simp only [h]
  rw [← hbody]
  exact (Request.build_of_equation p.kind (fun k hk => p.known k ((hkeys k).mp hk))
    ((hkeys _).mpr p.equation_mem)).2

/-- The body of a problem has a strict encoding. -/
theorem isFinite_body (p : RootProblem m) : (Json.obj p.body).isFinite = true := by
  apply Request.isFinite_fill p.takes
  intro kv hkv
  rcases List.mem_append.mp hkv with h | h
  · obtain ⟨-, -, e, he⟩ := mem_expressions h
    rw [he]
    rfl
  · obtain ⟨f, -, -, hsuits⟩ := p.suits _ h
    exact hsuits.isFinite

end RootProblem

end FormulaDesk
