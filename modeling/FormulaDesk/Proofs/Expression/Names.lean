import FormulaDesk.Expression.BuiltIn
import FormulaDesk.Expression.Check

/-!
# What the check of an expression guarantees

The check looks at what the engine makes of a text, not at the text. The engine is any engine. What
is relied on is how it looks names up: a name that the dictionary misses is looked up among the
public names, and only where nobody knows it does it become a variable or an undefined function
(`Engine.LooksUp`). So the check reports only calls of names that nobody knows, and of those only
the ones that leave a trace in the value; a call of a public name is none of its business.
-/

namespace FormulaDesk.Expression

/-! ## The names in a text -/

namespace Token

/-- The name that a token is; the words of the language are none. -/
def name? : Token → Option String
  | .name s => if Tree.keywords.contains s then none else some s
  | _ => none

/-- The names in a text. -/
def names (tokens : List Token) : List String := tokens.filterMap name?

/-- The names that a text calls: those directly before an opening bracket. -/
def calledNames : List Token → List String
  | [] => []
  | t :: rest =>
    if rest.head? = some (.mark "(") then t.name?.toList ++ calledNames rest else calledNames rest

/-- A called name is one of the names. -/
theorem calledNames_subset_names (tokens : List Token) : calledNames tokens ⊆ names tokens := by
  induction tokens with
  | nil => exact List.Subset.refl _
  | cons t rest ih =>
    have hnames : names (t :: rest) = t.name?.toList ++ names rest := by
      cases h : t.name? <;> simp [names, h]
    rw [hnames, calledNames]
    have hrest : calledNames rest ⊆ t.name?.toList ++ names rest :=
      List.subset_append_of_subset_right _ ih
    split
    · exact List.append_subset.mpr ⟨List.subset_append_left _ _, hrest⟩
    · exact hrest

end Token

/-- Nobody knows the name: it is not in the dictionary and not public. -/
def IsFresh (isPublic : String → Bool) (s : String) : Prop :=
  dictionary.lookup s = none ∧ isPublic s = false

/-- What may make names of its own: a text in quotes, an attribute, or a name that stands for a maker
of variables or functions. -/
def Token.isSource (isMaker : String → Bool) : Token → Bool
  | .text _ => true
  | .mark m => m == "."
  | .name s => (dictionary.lookup s).isNone && isMaker s
  | _ => false

/-- Something in a text makes names that are not in the text. -/
def MakesNames (isMaker : String → Bool) (tokens : List Token) : Prop :=
  ∃ t ∈ tokens, t.isSource isMaker = true

/-- How an engine looks up the names of a text: one that the dictionary misses is looked up among
the public names before it becomes a variable, or an undefined function if it is called. Nothing
else makes names in a text, apart from what `MakesNames` lists. -/
structure Engine.LooksUp (engine : Engine) (isPublic isMaker : String → Bool) (text : String) :
    Prop where
  functions : ∀ {tokens p}, Token.ofString? text = some tokens →
    engine.parse dictionary text = .ok (some p) → ∀ f ∈ p.functions,
      (f ∈ Token.calledNames tokens ∧ IsFresh isPublic f) ∨ MakesNames isMaker tokens
  vars : ∀ {tokens p}, Token.ofString? text = some tokens →
    engine.parse dictionary text = .ok (some p) → ∀ v ∈ p.vars,
      v = .x ∨ (v.name ∈ Token.names tokens ∧ IsFresh isPublic v.name) ∨
        MakesNames isMaker tokens

/-! ## Verdicts -/

/-- The engine works an expression out. -/
structure Engine.Works (engine : Engine) (expression : String) (p : Parsed) : Prop where
  present : (Text.stripBlank expression.toList).isEmpty = false
  parse : engine.parse dictionary (Dialect.withoutNamespaces expression) = .ok (some p)

variable {engine : Engine} {isPublic isMaker : String → Bool} {expression : String} {p : Parsed}

@[simp] theorem mem_sorted {names : List String} {s : String} : s ∈ sorted names ↔ s ∈ names := by
  simp [sorted]

@[simp] theorem sorted_eq_nil {names : List String} : sorted names = [] ↔ names = [] := by
  simp [List.eq_nil_iff_forall_not_mem]

@[simp] theorem Parsed.mem_undefined {s : String} : s ∈ p.undefined ↔ s ∈ p.functions := by
  simp [undefined, List.mem_eraseDups]

@[simp] theorem Parsed.undefined_eq_nil : p.undefined = [] ↔ p.functions = [] := by
  simp [List.eq_nil_iff_forall_not_mem]

theorem Parsed.extra_eq_nil : p.extra = [] ↔ ∀ v ∈ p.vars, v = .x := by
  simp [extra, List.filter_eq_nil_iff, List.mem_eraseDups]

/-- The three outcomes of a check of names. -/
theorem checkNames_eq (p : Parsed) :
    checkNames p =
      if p.functions = [] then
        if p.extra = [] then .ok () else .error (.unknownNames p.extra)
      else .error (.unknownFunctions p.undefined) := by
  simp only [← Parsed.undefined_eq_nil]
  unfold checkNames
  cases p.undefined <;> cases p.extra <;> rfl

/-- Over a working engine the check looks at functions first and at names second. -/
theorem Engine.Works.check_eq (h : engine.Works expression p) :
    check engine expression =
      if p.functions = [] then
        if p.extra = [] then .ok p else .error (.unknownNames p.extra)
      else .error (.unknownFunctions p.undefined) := by
  simp only [check, h.present, h.parse, checkNames_eq, Bool.false_eq_true, if_false]
  split
  · split <;> rfl
  · rfl

/-- Only an expression that the engine works out is accepted, or refused for names. -/
theorem exists_works (engine : Engine) (expression : String)
    (h : ∀ r, check engine expression = .error r →
      (∃ names, r = .unknownFunctions names) ∨ ∃ names, r = .unknownNames names) :
    ∃ p, engine.Works expression p := by
  unfold check at h
  cases hpresent : (Text.stripBlank expression.toList).isEmpty with
  | true => simpa [hpresent] using h .empty
  | false =>
    cases hparse : engine.parse dictionary (Dialect.withoutNamespaces expression) with
    | error rejection =>
      cases rejection with
      | malformed reason => simpa [hpresent, hparse] using h (.malformed reason)
      | raised failure => simpa [hpresent, hparse] using h (.raised failure)
    | ok value =>
      cases value with
      | none => simpa [hpresent, hparse] using h .notAnExpression
      | some p => exact ⟨p, hpresent, hparse⟩

/-- An expression is accepted if it is worked out and nothing but `x` is left in it. -/
theorem check_eq_ok_iff :
    check engine expression = .ok p ↔
      engine.Works expression p ∧ p.functions = [] ∧ ∀ v ∈ p.vars, v = .x := by
  rw [← Parsed.extra_eq_nil]
  constructor
  · intro h
    obtain ⟨q, hq⟩ := exists_works engine expression (by simp [h])
    rw [hq.check_eq] at h
    split at h
    · rename_i hfunctions
      split at h
      · rename_i hextra
        cases h
        exact ⟨hq, hfunctions, hextra⟩
      · cases h
    · cases h
  · rintro ⟨hp, hfunctions, hextra⟩
    rw [hp.check_eq, if_pos hfunctions, if_pos hextra]

/-- The functions that are left in an expression are reported, whatever else is. -/
theorem check_eq_unknownFunctions_iff {names : List String} :
    check engine expression = .error (.unknownFunctions names) ↔
      ∃ p, engine.Works expression p ∧ p.functions ≠ [] ∧ names = p.undefined := by
  constructor
  · intro h
    obtain ⟨q, hq⟩ := exists_works engine expression (by simp [h])
    rw [hq.check_eq] at h
    split at h
    · split at h <;> cases h
    · rename_i hfunctions
      cases h
      exact ⟨q, hq, hfunctions, rfl⟩
  · rintro ⟨p, hp, hfunctions, rfl⟩
    rw [hp.check_eq, if_neg hfunctions]

/-- Other variables are reported where no function is. -/
theorem check_eq_unknownNames_iff {names : List String} :
    check engine expression = .error (.unknownNames names) ↔
      ∃ p, engine.Works expression p ∧ p.functions = [] ∧ p.extra ≠ [] ∧ names = p.extra := by
  constructor
  · intro h
    obtain ⟨q, hq⟩ := exists_works engine expression (by simp [h])
    rw [hq.check_eq] at h
    split at h
    · rename_i hfunctions
      split at h
      · cases h
      · rename_i hextra
        cases h
        exact ⟨q, hq, hfunctions, hextra, rfl⟩
    · cases h
  · rintro ⟨p, hp, hfunctions, hextra, rfl⟩
    rw [hp.check_eq, if_pos hfunctions, if_neg hextra]

/-! ## The guarantee -/

/-- An expression is accepted exactly if the engine works it out and its value is left with no
undefined function and no variable but `x`; functions are reported before variables. Unless the text
makes names of its own, every function that is reported is called in it and known to nobody, and a
text all of whose names are known is accepted as soon as it has a value, whether or not the names
are allowed. A name that nobody knows is reported exactly if the value is left with it. -/
theorem check_names (engine : Engine) (isPublic isMaker : String → Bool) (expression : String)
    {tokens : List Token}
    (htokens : Token.ofString? (Dialect.withoutNamespaces expression) = some tokens)
    (hlook : engine.LooksUp isPublic isMaker (Dialect.withoutNamespaces expression)) :
    (∀ p, check engine expression = .ok p ↔
      engine.Works expression p ∧ p.functions = [] ∧ ∀ v ∈ p.vars, v = .x) ∧
    (∀ names, check engine expression = .error (.unknownFunctions names) ↔
      ∃ p, engine.Works expression p ∧ p.functions ≠ [] ∧ names = p.undefined) ∧
    (∀ names, check engine expression = .error (.unknownNames names) ↔
      ∃ p, engine.Works expression p ∧ p.functions = [] ∧ p.extra ≠ [] ∧ names = p.extra) ∧
    (¬ MakesNames isMaker tokens →
      (∀ names, check engine expression = .error (.unknownFunctions names) →
        ∀ f ∈ names, f ∈ Token.calledNames tokens ∧ IsFresh isPublic f) ∧
      ((∀ s ∈ Token.names tokens, ¬ IsFresh isPublic s) →
        ∀ p, engine.Works expression p → check engine expression = .ok p)) ∧
    ∀ f, (∃ names, check engine expression = .error (.unknownFunctions names) ∧ f ∈ names) ↔
      ∃ p, engine.Works expression p ∧ f ∈ p.functions := by
  refine ⟨fun p => check_eq_ok_iff, fun names => check_eq_unknownFunctions_iff,
    fun names => check_eq_unknownNames_iff, fun hmakes => ⟨?_, ?_⟩, fun f => ⟨?_, ?_⟩⟩
  · intro names hnames f hf
    obtain ⟨p, hp, -, rfl⟩ := check_eq_unknownFunctions_iff.mp hnames
    exact (hlook.functions htokens hp.parse f (Parsed.mem_undefined.mp hf)).resolve_right hmakes
  · intro hknown p hp
    refine check_eq_ok_iff.mpr ⟨hp, List.eq_nil_iff_forall_not_mem.mpr fun f hf => ?_, ?_⟩
    · obtain ⟨hcalled, hfresh⟩ :=
        (hlook.functions htokens hp.parse f hf).resolve_right hmakes
      exact hknown f (Token.calledNames_subset_names tokens hcalled) hfresh
    · intro v hv
      refine (hlook.vars htokens hp.parse v hv).resolve_right fun h => ?_
      obtain ⟨hname, hfresh⟩ := h.resolve_right hmakes
      exact hknown v.name hname hfresh
  · rintro ⟨names, hnames, hf⟩
    obtain ⟨p, hp, -, rfl⟩ := check_eq_unknownFunctions_iff.mp hnames
    exact ⟨p, hp, Parsed.mem_undefined.mp hf⟩
  · rintro ⟨p, hp, hf⟩
    exact ⟨p.undefined, check_eq_unknownFunctions_iff.mpr ⟨p, hp, List.ne_nil_of_mem hf, rfl⟩,
      Parsed.mem_undefined.mpr hf⟩

/-! ## The built-in engine at work -/

/-- An engine looks names up as it should where its value is left with nothing but `x` and functions
that the text calls and nobody knows. -/
theorem Engine.LooksUp.of_parse {text : String} {tokens : List Token}
    (htokens : Token.ofString? text = some tokens)
    (hparse : engine.parse dictionary text = .ok (some p))
    (hfunctions : ∀ f ∈ p.functions, f ∈ Token.calledNames tokens ∧ IsFresh isPublic f)
    (hvars : ∀ v ∈ p.vars, v = .x) : engine.LooksUp isPublic isMaker text where
  functions := by
    intro tokens' p' htokens' hparse' f hf
    rw [htokens] at htokens'
    rw [hparse] at hparse'
    cases htokens'
    cases hparse'
    exact .inl (hfunctions f hf)
  vars := by
    intro tokens' p' htokens' hparse' v hv
    rw [hparse] at hparse'
    cases hparse'
    exact .inl (hvars v hv)

/-- The engine that is built in answers with the value of the tree. -/
theorem builtIn_parse {text : String} {tokens : List Token} {tree : Tree} {v : Value}
    (htokens : Token.ofString? text = some tokens)
    (htree : Tree.ofTokens? (Names.isKnown dictionary) tokens = some tree)
    (hvalue : tree.value dictionary = .ok v) :
    builtIn.parse dictionary text = .ok (v.parsed? text) := by
  simp only [builtIn, Tree.ofString?, htokens, Option.bind_some, htree, hvalue]
  rfl

theorem eq_num_of_amount? {t : Symbolic.Term} {a : Symbolic.Amount} (h : t.amount? = some a) :
    t = .num a := by
  cases t <;> simp_all [Symbolic.Term.amount?]

/-- A name that nobody knows stands for itself. -/
theorem Names.value_of_isFresh {s : String} (h : IsFresh Names.isPublic s) (called : Bool) :
    Names.value dictionary s called =
      if called then .function (.undefined s) else .term (.var s) := by
  have hpublic : Names.public? s = none := by
    have hnot := h.2
    unfold Names.isPublic at hnot
    unfold Names.public?
    simp_all
  simp [Names.value, h.1, hpublic]

/-- `foo` is a name the engine's library does not have. -/
theorem isFresh_foo : IsFresh Names.isPublic "foo" := by
  unfold IsFresh
  decide +kernel

/-- A fresh name that is called stays an undefined function. -/
theorem value_foo : (Tree.call (.name "foo" true) [.name "x" false]).value dictionary =
    .ok (.term (.unknown "foo" [.var "x"])) := by
  rw [Tree.value, Tree.value, Names.value_of_isFresh isFresh_foo]
  rfl

/-- What the built-in engine has for makers of variables and functions. -/
def makers : List String := ["Symbol", "Dummy", "symbols", "var", "Function"]

/-- `gamma` is public and so accepted, though it is not in the dictionary; `foo`, which nobody
knows, is accepted where it cancels and reported where it does not. -/
theorem check_names_gamma :
    (dictionary.lookup "gamma" = none ∧ Names.isPublic "gamma" = true ∧
      ∃ p, check builtIn "gamma(x)" = .ok p) ∧
    (IsFresh Names.isPublic "foo" ∧ ∃ p, check builtIn "foo(x)-foo(x)" = .ok p) ∧
    ∃ names, check builtIn "-math.foo(x)" = .error (.unknownFunctions names) ∧ "foo" ∈ names := by
  refine ⟨⟨by decide, by decide +kernel, ?_⟩, ⟨isFresh_foo, ?_⟩, ?_⟩
  · have htokens : Token.ofString? (Dialect.withoutNamespaces "gamma(x)") =
        some [.name "gamma", .mark "(", .name "x", .mark ")"] := by decide +kernel
    have hvalue : (Tree.call (.name "gamma" true) [.name "x" false]).value dictionary =
        .ok (.term (.call "gamma" [.var "x"])) := rfl
    have hparse : builtIn.parse dictionary (Dialect.withoutNamespaces "gamma(x)") = _ :=
      builtIn_parse htokens rfl hvalue
    have hlook : builtIn.LooksUp Names.isPublic makers.contains
        (Dialect.withoutNamespaces "gamma(x)") :=
      .of_parse htokens hparse nofun (by decide)
    have hmakes : ¬ MakesNames makers.contains [.name "gamma", .mark "(", .name "x", .mark ")"] := by
      unfold MakesNames
      decide +kernel
    have hknown : ∀ s ∈ Token.names [.name "gamma", .mark "(", .name "x", .mark ")"],
        ¬ IsFresh Names.isPublic s := by
      unfold IsFresh
      decide +kernel
    exact ⟨_, ((check_names builtIn _ _ _ htokens hlook).2.2.2.1 hmakes).2 hknown _
      ⟨by decide +kernel, hparse⟩⟩
  · have htokens : Token.ofString? (Dialect.withoutNamespaces "foo(x)-foo(x)") =
        some [.name "foo", .mark "(", .name "x", .mark ")", .mark "-",
          .name "foo", .mark "(", .name "x", .mark ")"] := by decide +kernel
    -- the two calls cancel before anybody asks for their names
    have hvalue : (Tree.binary .sub (.call (.name "foo" true) [.name "x" false])
        (.call (.name "foo" true) [.name "x" false])).value dictionary = .ok (.term .zero) := by
      have hsub : Symbolic.Term.sub (.unknown "foo" [.var "x"]) (.unknown "foo" [.var "x"])
          = .zero := eq_num_of_amount? (by decide +kernel)
      rw [Tree.value, value_foo]
      exact congrArg (fun t => Except.ok (Value.term t)) hsub
    have hparse : builtIn.parse dictionary (Dialect.withoutNamespaces "foo(x)-foo(x)") = _ :=
      builtIn_parse htokens rfl hvalue
    have hlook : builtIn.LooksUp Names.isPublic makers.contains
        (Dialect.withoutNamespaces "foo(x)-foo(x)") :=
      .of_parse htokens hparse nofun nofun
    exact ⟨_, ((check_names builtIn _ _ _ htokens hlook).1 _).mpr
      ⟨⟨by decide +kernel, hparse⟩, rfl, nofun⟩⟩
  · have htokens : Token.ofString? (Dialect.withoutNamespaces "-math.foo(x)") =
        some [.mark "-", .name "foo", .mark "(", .name "x", .mark ")"] := by decide +kernel
    have hvalue : (Tree.signed .minus (.call (.name "foo" true) [.name "x" false])).value dictionary
        = .ok (.term (Symbolic.Term.neg (.unknown "foo" [.var "x"]))) := by
      rw [Tree.value, value_foo]
      rfl
    have hparse : builtIn.parse dictionary (Dialect.withoutNamespaces "-math.foo(x)") = _ :=
      builtIn_parse htokens rfl hvalue
    have hunknowns : Symbolic.Term.unknowns (.neg (.unknown "foo" [.var "x"])) = ["foo"] := by
      decide +kernel
    have hnames : Symbolic.Term.freeNames (.neg (.unknown "foo" [.var "x"])) = ["x"] := by
      decide +kernel
    have hlook : builtIn.LooksUp Names.isPublic makers.contains
        (Dialect.withoutNamespaces "-math.foo(x)") := by
      refine .of_parse htokens hparse ?_ ?_
      · rw [hunknowns, List.forall_mem_singleton]
        exact ⟨by decide, isFresh_foo⟩
      · rw [hnames]
        decide
    exact ((check_names builtIn _ _ _ htokens hlook).2.2.2.2 "foo").mpr
      ⟨_, ⟨by decide +kernel, hparse⟩, hunknowns ▸ List.mem_singleton_self _⟩

end FormulaDesk.Expression
