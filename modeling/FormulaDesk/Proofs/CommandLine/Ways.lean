import FormulaDesk.Proofs.CommandLine.Parameters
import FormulaDesk.Proofs.CommandLine.Solving
import FormulaDesk.Proofs.Session.Filling

/-! # Three ways to solve an equation

An equation can be solved by a call with the fields of its request, by a command line, and by a form
that is filled in and submitted. Whatever the order in which a root problem is told to each, all
three send the request that the problem stands for (`ways_send_same`).
-/

namespace FormulaDesk

variable {m : Method}

/-! ## By a call -/

namespace Client

variable {read : BaseReader} {client? : Option Client} {c : Client} {slug : String} {given : Fields}
  {r : Request}

/-- The client that a call goes through: the caller's, or the usual one. -/
def chosen (read : BaseReader) (client? : Option Client) : Except Failure Client :=
  client?.elim (connect read none .null) .ok

theorem solveFields_of_build (hchosen : chosen read client? = .ok c) (hclient : "client" ∉ given.keys)
    (hslug : "slug" ∉ given.keys) (hbuild : Request.build slug given = .ok r) (outcome : Outcome) :
    solveFields read client? slug given outcome = c.solve slug r outcome := by
  have hcontains : given.contains "client" = false := by
    rw [← Bool.not_eq_true, Fields.contains_iff_mem_keys]
    exact hclient
  have hkept : given.filter (fun kv => kv.1 ≠ "client") = given := by
    rw [List.filter_eq_self]
    intro kv hkv
    have hne : kv.1 ≠ "client" := fun heq => hclient (heq ▸ List.mem_map_of_mem hkv)
    simpa using hne
  -- neither name that a call takes for itself is among the fields
  unfold solveFields
  rw [hcontains, Request.contains_slug hslug, hkept, hbuild, Fields.get?_eq_none_iff.mpr hclient]
  cases client? with
  | none =>
    have hconnect : connect read none .null = .ok c := hchosen
    simp [hconnect]
  | some c' =>
    cases hchosen
    simp

theorem sent_of_problem (p : RootProblem m) (hchosen : chosen read client? = .ok c)
    (hgiven : given.Perm p.fields) (outcome : Outcome) :
    (solveFields read client? m.slug given outcome).sent = some (c.post m p.body) := by
  have hsame : ∀ k, given.get? k = p.fields.get? k := fun k =>
    (Fields.get?_of_perm p.nodup_fields hgiven.symm k).symm
  have hfield : ∀ k, k ∉ m.fieldNames → k ∉ given.keys := by
    intro k hk hmem
    exact hk (p.known k ((hgiven.map Prod.fst).mem_iff.mp hmem))
  have hclient : "client" ∉ m.fieldNames := by cases m <;> decide
  rw [solveFields_of_build hchosen (hfield _ hclient) (hfield _ m.slug_not_mem)
    (p.build_of_get? hsame)]
  exact solve_sent c m p.isFinite_body outcome

end Client

/-! ## By a command line -/

namespace CommandLine

/-- A parameter as it is typed, with its value in the exchange notation. -/
def typed (layout : Json.Layout) (kv : String × Json) : String :=
  kv.1 ++ "=" ++ kv.2.render layout

/-- The arguments that state a problem, with the parameters as they are typed. -/
def statement (p : RootProblem m) (texts : List String) (reach : Reach) : SolveArguments where
  slug := m.slug
  markup := some p.markup
  gFunction := p.map?
  parameters := texts.filterMap parameter?
  reach := reach

theorem parameters_typed (p : RootProblem m) {params : Fields} (h : params.Perm p.parameters)
    (layout : Json.Layout) : (params.map (typed layout)).filterMap parameter? = params := by
  have hread : ∀ kv ∈ params, (parameter? ∘ typed layout) kv = some kv := by
    intro kv hkv
    obtain ⟨f, hf, hname, hsuits⟩ := p.suits kv (h.mem_iff.mp hkv)
    show parameter? (kv.1 ++ "=" ++ kv.2.render layout) = some kv
    rw [← hname, parameter?_suits hf hsuits, hname]
  rw [List.filterMap_map, List.filterMap_congr hread, List.filterMap_some]

theorem askedFields_statement (p : RootProblem m) (texts : List String) (reach : Reach) :
    askedFields (statement p texts reach) = p.expressions := by
  unfold askedFields askedEquation askedMap RootProblem.expressions statement
  cases p.map? <;> rfl

theorem get?_givenFields_statement (p : RootProblem m) {params : Fields}
    (h : params.Perm p.parameters) (layout : Json.Layout) (reach : Reach) (k : String) :
    (givenFields (statement p (params.map (typed layout)) reach)).value.get? k =
      p.fields.get? k := by
  have hparams : (statement p (params.map (typed layout)) reach).parameters = params :=
    parameters_typed p h layout
  have hdistinct : params.keys.Nodup := (h.map Prod.fst).nodup_iff.mpr p.distinct
  have hnames : (statement p (params.map (typed layout)) reach).parameters.keys.Nodup := by
    rw [hparams]
    exact hdistinct
  rw [get?_givenFields hnames, askedFields_statement, hparams, Fields.get?_of_perm hdistinct h]
  exact List.lookup_append.symm

/-- With an equation at hand the request is built from the given fields. -/
theorem solveRequest_of_equation {a : SolveArguments} (hslug : a.slug = m.slug)
    (hplain : example? a = none) {e : String} (he : e ≠ "")
    (hequation : (givenFields a).value.get? "equation" = some (.str e)) :
    (solveRequest a).value = Request.build m.slug (givenFields a).value := by
  have hpresent : (Json.str e).isPresent = true := by simpa [Json.isPresent] using he
  rw [solveRequest_plain (hslug ▸ m.ofSlug_slug) hplain, hequation, Option.getD_some, hpresent,
    if_neg (by simp), hslug]

/-- The arguments stand for the request of the problem. -/
theorem solveRequest_statement (p : RootProblem m) {params : Fields}
    (h : params.Perm p.parameters) (layout : Json.Layout) (reach : Reach) :
    (solveRequest (statement p (params.map (typed layout)) reach)).value = .ok ⟨m, p.body⟩ := by
  have hgiven := get?_givenFields_statement p h layout reach
  have hequation : p.fields.get? "equation" =
      some (.str (Conversion.evaluableOf p.markup).value) := by
    rw [RootProblem.fields, RootProblem.expressions, List.cons_append, Fields.get?_cons, if_pos rfl]
  rw [solveRequest_of_equation (m := m) rfl rfl p.converts ((hgiven _).trans hequation)]
  exact p.build_of_get? hgiven

/-- A command sends its request, if nothing in it holds it back. -/
theorem sent_of_request {a : SolveArguments} {r : Request} {s : Surroundings} {c : Client}
    (hrequest : (solveRequest a).value = .ok r) (hslug : a.slug = r.method.slug)
    (hreach : a.reach.client s.readBase = .ok c) (hfinite : (Json.obj r.body).isFinite = true)
    (format : Format) :
    (runSolve s format a).sent = some (c.post r.method r.body) := by
  show (solveExchange s a).sent = _
  simp only [solveExchange, hrequest, hreach, hslug]
  exact Client.solve_sent c r.method hfinite _

theorem sent_of_problem (p : RootProblem m) {reach : Reach} {s : Surroundings} {c : Client}
    (hreach : reach.client s.readBase = .ok c) {params : Fields} (h : params.Perm p.parameters)
    (layout : Json.Layout) (format : Format) :
    (runSolve s format (statement p (params.map (typed layout)) reach)).sent =
      some (c.post m p.body) :=
  sent_of_request (solveRequest_statement p h layout reach) rfl hreach p.isFinite_body format

/-- A whole number that has too many digits to be read goes out as a text. -/
theorem sent_as_text (hkind : m.kind = .equation) {k : String} (hk : k ∈ m.fieldNames)
    (hequation : k ≠ "equation") {n : Int}
    (hn : Numeral.maxDigits < (Nat.toDigits 10 n.natAbs).length) (layout : Json.Layout)
    {markup : String} (hconverts : (Conversion.evaluableOf markup).value ≠ "")
    {reach : Reach} {s : Surroundings} {c : Client} (hreach : reach.client s.readBase = .ok c)
    (format : Format) :
    let a : SolveArguments :=
      { slug := m.slug, markup := some markup
        parameters := [typed layout (k, .int n)].filterMap parameter?, reach }
    ∃ body, (runSolve s format a).sent = some (c.post m body) ∧
      body.get? k = some (.str ((Json.int n).render layout)) := by
  intro a
  -- the digits are too many to be read back, and the text is a field's value like any other
  have hparameters : a.parameters = [(k, .str ((Json.int n).render layout))] := by
    have htyped := parameter?_long (isPlainName_of_mem hk) hn layout
    exact (List.filterMap_cons_some htyped).trans rfl
  have hgiven : (givenFields a).value =
      [(k, .str ((Json.int n).render layout)),
        ("equation", .str (Conversion.evaluableOf markup).value)] := by
    rw [value_givenFields, hparameters]
    show Fields.set [(k, _)] "equation" _ = _
    simp [Fields.set, hequation]
  have hask : (givenFields a).value.get? "equation" =
      some (.str (Conversion.evaluableOf markup).value) := by
    rw [hgiven]
    simp [Fields.get?_cons, hequation.symm]
  have hrequest := solveRequest_of_equation (m := m) rfl rfl hconverts hask
  have hname : "equation" ∈ m.fieldNames :=
    m.requiredNames_subset (Method.requiredNames_of_kind hkind ▸ List.mem_singleton_self _)
  have hknown : ∀ name ∈ (givenFields a).value.keys, name ∈ m.fieldNames := by
    rw [hgiven]
    simp [Fields.keys, hk, hname]
  -- the request is built all the same, since the types of the values are not looked at
  obtain ⟨htakes, hbuild⟩ :=
    Request.build_of_equation hkind hknown (Fields.mem_keys_of_get? hask)
  refine ⟨_, sent_of_request (hrequest.trans hbuild) rfl hreach ?_ format, ?_⟩
  · apply Request.isFinite_fill htakes
    rw [hgiven]
    simp [Json.isFinite]
  · obtain ⟨f, hf, rfl⟩ := List.mem_map.mp hk
    have hgot : (givenFields a).value.get? f.name = some (.str ((Json.int n).render layout)) := by
      rw [hgiven, Fields.get?_cons, if_pos rfl]
    rw [Request.get?_fill htakes hf, Request.taken_of_get? hgot]

end CommandLine

/-! ## All three -/

open Session (Course Event Operation) in
/-- A call, a command line and a form that are told the same problem each send one request, to the
same path and with the same body: what the problem says, and the defaults of all other fields. -/
theorem RootProblem.ways_send_same (p : RootProblem m)
    {given : Fields} (hgiven : given.Perm p.fields)
    {read : BaseReader} {client? : Option Client} {c₁ : Client}
    (hcall : Client.chosen read client? = .ok c₁)
    {params : Fields} (hparams : params.Perm p.parameters)
    {surroundings : CommandLine.Surroundings} {reach : CommandLine.Reach} {c₂ : Client}
    (hreach : reach.client surroundings.readBase = .ok c₂)
    {operations : List Operation} {portions : List Fields}
    (hentered : List.Forall₂ Operation.Enters operations portions)
    (hportions : portions.flatten.Perm p.fields)
    {c₃ : Client} {board : Option (Graph.Board Unit)} {s : Session}
    (hopen : Session.open m.slug c₃ board = .ok s)
    (called submitted : Outcome) (format : CommandLine.Format) (layout : Json.Layout) :
    let sent (c : Client) : Sent := ⟨"POST", c.base.join ("/metodos/" ++ m.slug), c.timeout,
      (Json.obj p.body).render .compact⟩
    (Client.solveFields read client? m.slug given called).sent = some (sent c₁) ∧
    (CommandLine.runSolve surroundings format (CommandLine.statement p
      (params.map (CommandLine.typed layout)) reach)).sent = some (sent c₂) ∧
    (({ session := s } : Course).run
      (operations.map .operate ++ [.submit, .complete submitted])).sent = [sent c₃] := by
  intro sent
  refine ⟨?_, ?_, ?_⟩
  · exact Client.sent_of_problem p hcall hgiven called
  · exact CommandLine.sent_of_problem p hreach hparams layout format
  · exact Course.sent_of_problem p hopen hentered hportions submitted

/-- The square of `x` as the equation, half of `x` as the iteration map, a start and a cap. -/
def RootProblem.halving : RootProblem .fixedPoint where
  markup := "x^\x7b2\x7d"
  map? := some "\\frac\x7bx\x7d\x7b2\x7d"
  parameters := [("max_iterations", .int 5), ("initial_x", .float 2)]
  kind := rfl
  converts := by decide +kernel
  hasMap := fun _ => by decide
  distinct := by decide
  suits := by
    have hstart : (Binary.ofFloat 2).isFinite = true := by decide +kernel
    intro kv hkv
    rcases List.mem_cons.mp hkv with rfl | hkv
    · exact ⟨⟨"max_iterations", some (.int 100)⟩, by simp [Method.fields, Method.stopFields,
        Method.defaultIterations], rfl, .whole (by decide)⟩
    · rw [List.mem_singleton] at hkv
      subst hkv
      exact ⟨⟨"initial_x", some (.float 0)⟩, by simp [Method.fields], rfl, .real hstart⟩

open Session (Course Operation) in
/-- The parameters are entered first in the form, and the call is given all fields backwards. -/
theorem RootProblem.ways_send_same_halving :
    let p := RootProblem.halving
    let s : CommandLine.Surroundings :=
      { engine := ⟨fun _ _ => .ok none⟩, readBase := Client.appending, folder := ⟨"", [], false⟩
        service := fun _ => .answered 200 [], freshName := "" }
    let operations : List Operation :=
      [.update p.parameters.reverse,
        .setExpression (.str "\\frac\x7bx\x7d\x7b2\x7d") (.str "g_function"),
        .setExpression (.str "x^\x7b2\x7d") (.str "equation")]
    let portions : List Fields := p.parameters.reverse :: p.expressions.reverse.map ([·])
    Client.chosen Client.appending none = .ok Client.usual ∧
      CommandLine.Reach.client s.readBase {} = .ok Client.usual ∧
      p.fields.reverse.Perm p.fields ∧
      List.Forall₂ Operation.Enters operations portions ∧ portions.flatten.Perm p.fields ∧
      let sent : Sent := ⟨"POST", "http://localhost:8000/metodos/punto-fijo",
        Client.usual.timeout, (Json.obj p.body).render .compact⟩
      (Client.solveFields Client.appending none "punto-fijo" p.fields.reverse
        (.answered 200 [])).sent = some sent ∧
      (CommandLine.runSolve s .human (CommandLine.statement p
        ["max_iterations=5", "initial_x=2.0"] {})).sent = some sent ∧
      (({ session := Session.opened .fixedPoint Client.usual none } : Course).run
        (operations.map .operate ++ [.submit, .complete (.answered 200 [])])).sent = [sent] := by
  intro p s operations portions
  have hentered : List.Forall₂ Operation.Enters operations portions :=
    .cons (.parameters _) (.cons (.expression _ _) (.cons (.expression _ _) .nil))
  have hbackwards : portions.flatten = p.fields.reverse := rfl
  have hportions : portions.flatten.Perm p.fields := hbackwards ▸ p.fields.reverse_perm
  have htyped : p.parameters.map (CommandLine.typed .compact) =
      ["max_iterations=5", "initial_x=2.0"] := by
    decide +kernel
  have hopen : Session.open Method.fixedPoint.slug Client.usual none =
      .ok (.opened .fixedPoint Client.usual none) :=
    Session.open_eq_ok.mpr ⟨.fixedPoint, rfl, rfl⟩
  have hcall : Client.chosen Client.appending none = .ok Client.usual := Client.connect_usual
  have hreach : CommandLine.Reach.client s.readBase {} = .ok Client.usual := Client.connect_usual
  have hways := p.ways_send_same p.fields.reverse_perm hcall (.refl _) hreach hentered hportions
    hopen (.answered 200 []) (.answered 200 []) .human .compact
  have hslug : Method.fixedPoint.slug = "punto-fijo" := rfl
  have haddress : Client.usual.base.join ("/metodos/" ++ "punto-fijo") =
      "http://localhost:8000/metodos/punto-fijo" := by decide
  rw [htyped, hslug] at hways
  simp only [haddress] at hways
  exact ⟨hcall, hreach, p.fields.reverse_perm, hentered, hportions, hways⟩

/-- An iteration cap with one digit more than is read stays a whole number in a call, and is sent as
a text by a command line. -/
theorem RootProblem.ways_differ_beyond_limit :
    let cap : Json := .int (10 ^ Numeral.maxDigits)
    let e := (Conversion.evaluableOf "x").value
    let s : CommandLine.Surroundings :=
      { engine := ⟨fun _ _ => .ok none⟩, readBase := Client.appending, folder := ⟨"", [], false⟩
        service := fun _ => .answered 200 [], freshName := "" }
    let a : CommandLine.SolveArguments :=
      { slug := "biseccion", markup := some "x"
        parameters := [CommandLine.typed .spaced ("max_iter", cap)].filterMap
          CommandLine.parameter? }
    e ≠ "" ∧
    (∃ r, Request.build "biseccion" [("equation", .str e), ("max_iter", cap)] = .ok r ∧
      r.body.get? "max_iter" = some cap) ∧
    ∃ body : Fields, (CommandLine.runSolve s .human a).sent =
        some ⟨"POST", "http://localhost:8000/metodos/biseccion", Client.usual.timeout,
          (Json.obj body).render .compact⟩ ∧
      body.get? "max_iter" = some (.str (cap.render .spaced)) := by
  intro cap e s a
  have hconverts : e ≠ "" := by decide +kernel
  have hknown : ∀ k ∈ Fields.keys [("equation", .str e), ("max_iter", cap)],
      k ∈ Method.bisection.fieldNames := by decide
  obtain ⟨htakes, hbuild⟩ := Request.build_of_equation rfl hknown List.mem_cons_self
  have hcalled := Request.get?_fill htakes (f := ⟨"max_iter", some (.int 100)⟩)
    (by simp [Method.fields, Method.stopFields, Method.defaultIterations])
  have hlong : Numeral.maxDigits <
      (Nat.toDigits 10 (10 ^ Numeral.maxDigits : Int).natAbs).length :=
    Numeral.lt_length_toDigits_pow (by decide)
  have hname : "max_iter" ∈ Method.bisection.fieldNames := by decide
  have hreach : CommandLine.Reach.client s.readBase {} = .ok Client.usual := Client.connect_usual
  obtain ⟨body, hsent, hbody⟩ :=
    CommandLine.sent_as_text rfl hname (by decide) hlong .spaced hconverts hreach .human
  exact ⟨hconverts, ⟨_, hbuild, hcalled⟩, body, hsent, hbody⟩

end FormulaDesk
