import FormulaDesk.Proofs.Service.Classification

/-! # What a solve logs

A solve announces its request. A failure is noted where the request is made and where the status and
the body of the answer are looked at. What fails later, when a good body is read, leaves no record:
`Client.Unnoted` lists the outcomes after which a solve fails in silence.
-/

namespace FormulaDesk

/-- The records of the client at a level. -/
def clientRecords (level : Level) (records : List Record) : List Record :=
  records.filter fun record => record.source == "client" && record.level == level

/-- The records of a level are those of the first part and then those of the second. -/
theorem clientRecords_append (level : Level) (before after : List Record) :
    clientRecords level (before ++ after) =
      clientRecords level before ++ clientRecords level after :=
  List.filter_append ..

namespace Client

variable {c : Client} {m : Method} {request : Request} {outcome : Outcome} {failure : Failure}
  {fields : Fields} {v : Json} {body : Option Json} {status : Int} {bytes : List Nat}

/-! ## The records of one call -/

/-- The record that announces a request. -/
def announcement (m : Method) : Record :=
  { level := .info, source := "client", message := "POST " ++ m.path, method := some m.slug }

/-- Before the request is sent one line at INFO is written. -/
theorem opening_info (m : Method) (body : Fields) :
    clientRecords .info (opening m body) = [announcement m] := rfl

/-- Nothing is written at ERROR before the request is sent. -/
theorem opening_error (m : Method) (body : Fields) :
    clientRecords .error (opening m body) = [] := rfl

/-- What a solve logs after its opening. -/
def later (c : Client) (m : Method) (request : Request) (outcome : Outcome) : List Record :=
  (c.solve m.slug request outcome).records.drop 2

/-- An exchange writes its opening and then what its outcome calls for. -/
theorem solve_records_eq (c : Client) (m : Method) (request : Request) (outcome : Outcome) :
    (c.solve m.slug request outcome).records
      = opening m request.body ++ later c m request outcome := by
  simp only [later, solve_slug, exchange]
  cases c.prepare "POST" m.path (some request.body) <;> rfl

/-- A request that is not sent has no later records. -/
theorem later_of_held_back (h : (Json.obj request.body).isFinite = false) :
    later c m request outcome = [] := by
  simp only [later, solve_slug, exchange, prepare_of_not_isFinite c m h]
  rfl

/-- One record tells of a fault of the transport, none of anything else that the layer below
raises. -/
theorem later_of_failed (h : (Json.obj request.body).isFinite = true) :
    later c m request (.failed failure) =
      match failure with
      | .http fault message =>
        if fault.transport then
          [{ level := .error, source := "client",
              message := s!"Transport error on POST: {message}", path := some m.path }]
        else []
      | _ => [] := by
  simp only [later, solve_slug, exchange, prepare_of_isFinite c m h]
  cases failure with
  | http fault message =>
    obtain ⟨name, transport⟩ := fault
    cases transport <;> rfl
  | _ => rfl

/-- An error status is written with its status and body. -/
theorem later_of_bad (h : (Json.obj request.body).isFinite = true)
    (bad : 400 ≤ status ∧ status ≤ 599) :
    later c m request (.answered status bytes) =
      [{ level := .error, source := "client", message := "POST failed", path := some m.path,
          status := some status, timed := true }] := by
  simp only [later, solve_slug, exchange, prepare_of_isFinite c m h, receive,
    isErrorStatus_iff.mpr bad]
  rfl

/-- A body that is no JSON is written as such. -/
theorem later_of_empty (h : (Json.obj request.body).isFinite = true)
    (good : ¬ (400 ≤ status ∧ status ≤ 599))
    (empty : valueOf bytes = none) :
    later c m request (.answered status bytes) =
      [{ level := .error, source := "client", message := "Non-JSON response to POST",
          path := some m.path, status := some status, timed := true }] := by
  have hstatus : isErrorStatus status = false := by simpa using isErrorStatus_iff.not.mpr good
  simp only [later, solve_slug, exchange, prepare_of_isFinite c m h, receive,
    hstatus, empty]
  rfl

/-- A value with a good status leaves the records of its reading behind the one of its arrival. -/
theorem later_of_value (h : (Json.obj request.body).isFinite = true)
    (good : ¬ (400 ≤ status ∧ status ≤ 599))
    (sent : valueOf bytes = some v) :
    later c m request (.answered status bytes) =
      { level := .debug, source := "client", message := "POST succeeded", path := some m.path,
          status := some status, timed := true } :: (replyOf m.path v).run.records := by
  have hstatus : isErrorStatus status = false := by simpa using isErrorStatus_iff.not.mpr good
  simp only [later, solve_slug, exchange, prepare_of_isFinite c m h, receive,
    hstatus, sent]
  rfl

/-- An object is taken without a record. -/
theorem replyOf_obj_records (path : String) (fields : Fields) :
    (replyOf path (.obj fields)).run.records = [] := by
  simp only [replyOf]
  cases Fields.get? fields "detail" with
  | some detail => rfl
  | none => cases Reply.ofFields fields <;> rfl

/-- JSON that is no object is written as an error. -/
theorem replyOf_other_records (path : String) (other : ∀ fields, v ≠ .obj fields) :
    (replyOf path v).run.records =
      [{ level := .error, source := "client",
          message := s!"Unexpected response from {path}: {v.literal}" }] := by
  cases v with
  | obj fields => exact absurd rfl (other fields)
  | _ => rfl

/-- Nothing more is written at INFO after the opening. -/
theorem later_info (c : Client) (m : Method) (request : Request) (outcome : Outcome) :
    clientRecords .info (later c m request outcome) = [] := by
  -- nothing behind the announcement is recorded on its level
  cases h : (Json.obj request.body).isFinite with
  | false => rw [later_of_held_back h]; rfl
  | true =>
    cases outcome with
    | failed failure =>
      rw [later_of_failed h]
      split
      · split <;> rfl
      · rfl
    | answered status bytes =>
      by_cases good : 400 ≤ status ∧ status ≤ 599
      · rw [later_of_bad h good]; rfl
      · cases hbody : valueOf bytes with
        | none => rw [later_of_empty h good hbody]; rfl
        | some v =>
          rw [later_of_value h good hbody]
          cases v with
          | obj fields => rw [replyOf_obj_records]; rfl
          | _ => rfl

/-! ## Failures without a record -/

/-- The outcomes after which a solve fails without a record of it. -/
inductive Unnoted (body : Fields) : Outcome → Prop
  /-- The body cannot be sent. -/
  | heldBack {outcome : Outcome} (h : (Json.obj body).isFinite = false) : Unnoted body outcome
  /-- The layer below raises what is no fault of the transport. -/
  | passedOn {failure : Failure}
      (h : ∀ fault message, failure = .http fault message → fault.transport = false) :
      Unnoted body (.failed failure)
  /-- A good status with an error. -/
  | rejected {status : Int} {bytes : List Nat} {fields : Fields} {detail : Json}
      (good : ¬ (400 ≤ status ∧ status ≤ 599)) (sent : valueOf bytes = some (.obj fields))
      (told : detail? (.obj fields) = some detail) : Unnoted body (.answered status bytes)
  /-- A good status with an object that cannot be read as a reply. -/
  | unread {status : Int} {bytes : List Nat} {fields : Fields} {fault : ValueFault}
      (good : ¬ (400 ≤ status ∧ status ≤ 599)) (sent : valueOf bytes = some (.obj fields))
      (untold : detail? (.obj fields) = none) (h : Reply.Misfit fields fault) :
      Unnoted body (.answered status bytes)

/-- What a good object leaves, whether or not it can be read as a reply. -/
theorem errors_of_object (h : (Json.obj request.body).isFinite = true)
    (good : ¬ (400 ≤ status ∧ status ≤ 599)) (sent : valueOf bytes = some (.obj fields)) :
    clientRecords .error (later c m request (.answered status bytes)) = [] := by
  rw [later_of_value h good sent, replyOf_obj_records]
  rfl

/-- The outcomes that leave without a record at ERROR. -/
theorem errors_of_unnoted (hsilent : Unnoted request.body outcome) :
    clientRecords .error (later c m request outcome) = [] := by
  cases h : (Json.obj request.body).isFinite with
  | false => rw [later_of_held_back h]; rfl
  | true =>
    cases hsilent with
    | heldBack hheld => cases h.symm.trans hheld
    | passedOn hfault =>
      rw [later_of_failed h]
      split
      · rw [hfault _ _ rfl]; rfl
      · rfl
    | rejected good sent told => exact errors_of_object h good sent
    | unread good sent untold misfit => exact errors_of_object h good sent

/-- A good answer that is no object is written at ERROR once. -/
theorem errors_of_other (h : (Json.obj request.body).isFinite = true)
    (good : ¬ (400 ≤ status ∧ status ≤ 599))
    (other : ∀ fields, valueOf bytes ≠ some (.obj fields)) :
    (clientRecords .error (later c m request (.answered status bytes))).length = 1 := by
  cases hbody : valueOf bytes with
  | none => rw [later_of_empty h good hbody]; rfl
  | some v =>
    have hother : ∀ fields, v ≠ .obj fields := fun fields hv => other fields (hv ▸ hbody)
    rw [later_of_value h good hbody, replyOf_other_records _ hother]
    rfl

/-- Only an object can carry a detail. -/
theorem object_of_detail {detail : Json} (told : detail? v = some detail) :
    ∃ fields, v = .obj fields := by
  cases v with
  | obj fields => exact ⟨fields, rfl⟩
  | _ => cases told

/-- Every other failure leaves one. -/
theorem error_of_noted (hfailed : (c.solve m.slug request outcome).result = .error failure)
    (hnoted : ¬ Unnoted request.body outcome) :
    (clientRecords .error (later c m request outcome)).length = 1 := by
  have h : (Json.obj request.body).isFinite = true := by
    by_contra hheld
    exact hnoted (.heldBack (by simpa using hheld))
  cases (classified_iff h).mp hfailed with
  | unreached htransport =>
    rw [later_of_failed h]
    simp only [htransport]
    rfl
  | passedOn hfault => exact absurd (.passedOn hfault) hnoted
  | @answered status bytes _ hjudged =>
    -- a bad status is recorded whatever its body says
    have hbad (bad : 400 ≤ status ∧ status ≤ 599) :
        (clientRecords .error (later c m request (.answered status bytes))).length = 1 := by
      rw [later_of_bad h bad]; rfl
    generalize hbody : valueOf bytes = body at hjudged
    cases hjudged with
    | silent bad => exact hbad bad
    | refused bad told worded => exact hbad bad
    | failed bad untold => exact hbad bad
    | unexpected good other => exact errors_of_other h good (hbody ▸ other)
    | rejected good told worded =>
      obtain ⟨fields, rfl⟩ := object_of_detail told
      exact absurd (.rejected good hbody told) hnoted
    | misfit hmisfit =>
      by_cases bad : 400 ≤ status ∧ status ≤ 599
      · exact hbad bad
      · cases hmisfit with
        | detail told _ =>
          obtain ⟨fields, rfl⟩ := object_of_detail told
          exact absurd (.rejected bad hbody told) hnoted
        | reply good untold hreply => exact absurd (.unread good hbody untold hreply) hnoted

/-- A result is written without an error. -/
theorem errors_of_ok {reply : Reply} (hok : (c.solve m.slug request outcome).result = .ok reply) :
    clientRecords .error (later c m request outcome) = [] := by
  cases h : (Json.obj request.body).isFinite with
  | false => cases (solve_held_back c m h outcome).2.symm.trans hok
  | true =>
    cases (classified_iff h).mp hok with
    | answered hjudged =>
      generalize hbody : valueOf _ = body at hjudged
      cases hjudged with
      | solved good untold read => exact errors_of_object h good hbody

/-- Every solve by a method is announced by one record. One that brings a reply leaves no error
record. One that fails leaves none either if its outcome is `Unnoted`, and one if it is not. -/
theorem solve_records (c : Client) {slug : String} {m : Method} (hslug : Method.ofSlug slug = .ok m)
    (request : Request) (outcome : Outcome) :
    let done := c.solve slug request outcome
    let errors := clientRecords .error done.records
    clientRecords .info done.records = [announcement m] ∧
    (∀ reply, done.result = .ok reply → errors = []) ∧
    ∀ failure, done.result = .error failure →
      (Unnoted request.body outcome → errors = []) ∧
      (¬ Unnoted request.body outcome → errors.length = 1) := by
  obtain rfl := Method.slug_of_ofSlug hslug
  intro done errors
  have herrors : errors = clientRecords .error (later c m request outcome) := by
    simp only [errors, done, solve_records_eq, clientRecords_append, opening_error, List.nil_append]
  rw [herrors]
  refine ⟨?_, fun reply => errors_of_ok, fun failure hfailed => ?_⟩
  · simp only [done, solve_records_eq, clientRecords_append, opening_info, later_info,
      List.append_nil]
  · exact ⟨errors_of_unnoted, error_of_noted hfailed⟩

/-- A solve that is refused with a good status fails without a record. -/
theorem solve_records_rejected :
    let c := Client.usual
    let request : Request := ⟨.bisection, [("equation", .str "x")]⟩
    let outcome := Outcome.answered 200 ("\x7b\"detail\":\"m\"\x7d".toList.map Char.toNat)
    Method.ofSlug "biseccion" = .ok .bisection ∧
      (∃ failure, (c.solve "biseccion" request outcome).result = .error failure) ∧
      Unnoted request.body outcome ∧
      clientRecords .error (c.solve "biseccion" request outcome).records = [] := by
  intro c request outcome
  have hslug : Method.ofSlug "biseccion" = .ok .bisection := rfl
  have htold : (valueOf ("\x7b\"detail\":\"m\"\x7d".toList.map Char.toNat)).any
      (fun v => (detail? v).isSome) = true := by decide +kernel
  have hfailed : (c.solve "biseccion" request outcome).result.toOption.isNone = true := by
    decide +kernel
  have hsilent : Unnoted request.body outcome := by
    obtain ⟨v, hsent, hdetail⟩ := (Option.any_eq_true ..).mp htold
    obtain ⟨detail, hdetail⟩ := Option.isSome_iff_exists.mp hdetail
    obtain ⟨fields, rfl⟩ := object_of_detail hdetail
    exact .rejected (by decide) hsent hdetail
  cases hresult : (c.solve "biseccion" request outcome).result with
  | ok reply => simp [hresult, Except.toOption] at hfailed
  | error failure =>
    exact ⟨hslug, ⟨failure, rfl⟩, hsilent,
      ((solve_records c hslug request outcome).2.2 failure hresult).1 hsilent⟩

end Client

end FormulaDesk
