import FormulaDesk.Proofs.Service.Answers

/-! # The table of failures

What a solve comes to is decided in three places: where the request is made, where its status and
its body are looked at, and where the body is read as a reply. `Judged` and `Classified` are the
whole decision as one table, by what the service did and not by the order in which the client looks
at it. `solve_classified` says that a solve ends as the table says and in no other way.
-/

namespace FormulaDesk

/-- A reply keeps the object it was read from. -/
theorem Reply.raw_of_ofFields {fields : Fields} {reply : Reply}
    (h : Reply.ofFields fields = .ok reply) : reply.raw = fields := by
  obtain ⟨count, -, h⟩ := bind_eq_ok.mp h
  obtain ⟨warnings, -, h⟩ := bind_eq_ok.mp h
  cases h
  rfl

namespace Client

variable {c : Client} {m : Method} {request : Request} {status : Int} {v : Json} {body : Option Json}
  {outcome : Outcome} {result : Except Failure Reply} {failure : Failure}

/-! ## Answers -/

/-- What a status and the value of a body, if there is one, stand for. -/
inductive Judged : Int → Option Json → Except Failure Reply → Prop
  /-- An error without a value. -/
  | silent {status : Int} (bad : 400 ≤ status ∧ status ≤ 599) :
      Judged status none (.error (.transport s!"Request failed with status code {status}"))
  /-- An error with a detail. -/
  | refused {status : Int} {v detail : Json} {message : String}
      (bad : 400 ≤ status ∧ status ≤ 599) (told : detail? v = some detail)
      (worded : Detail.text detail = .ok message) :
      Judged status (some v) (.error (.remote message (some status) v))
  /-- An error with any other value: `false`, zero and everything empty are values. -/
  | failed {status : Int} {v : Json} (bad : 400 ≤ status ∧ status ≤ 599)
      (untold : detail? v = none) :
      Judged status (some v) (.error (.remote (v.render .spaced) (some status) v))
  /-- A good status with anything but an object. -/
  | unexpected {status : Int} {body : Option Json} (good : ¬ (400 ≤ status ∧ status ≤ 599))
      (other : ∀ fields, body ≠ some (.obj fields)) :
      Judged status body (.error (.solver genericMessage "UNEXPECTED_RESPONSE" false))
  /-- A good status with a detail is an error all the same. -/
  | rejected {status : Int} {v detail : Json} {message : String}
      (good : ¬ (400 ≤ status ∧ status ≤ 599)) (told : detail? v = some detail)
      (worded : Detail.text detail = .ok message) :
      Judged status (some v) (.error (.remote message none v))
  | solved {status : Int} {fields : Fields} {reply : Reply}
      (good : ¬ (400 ≤ status ∧ status ≤ 599)) (untold : detail? (.obj fields) = none)
      (read : Reply.ofFields fields = .ok reply) :
      Judged status (some (.obj fields)) (.ok reply)
  /-- A detail that cannot be worded, or a reply that cannot be read. -/
  | misfit {status : Int} {v : Json} {fault : ValueFault} (h : Misfit status v fault) :
      Judged status (some v) (.error (.value fault))

/-- Under an error status the body decides which error it is. -/
theorem verdict_of_bad (bad : 400 ≤ status ∧ status ≤ 599) (body : Option Json) :
    verdict status body = .error (errorFailure status body) := by
  unfold verdict
  rw [if_pos (isErrorStatus_iff.mpr bad)]

/-- Under any other status the body decides what is returned. -/
theorem verdict_of_good (good : ¬ (400 ≤ status ∧ status ≤ 599)) (v : Json) :
    verdict status (some v) = replied v := by
  unfold verdict
  rw [if_neg (isErrorStatus_iff.not.mpr good)]

/-- Only an object has a detail, and only an object can be a reply. -/
theorem verdict_of_other (good : ¬ (400 ≤ status ∧ status ≤ 599))
    (other : ∀ fields, body ≠ some (.obj fields)) :
    verdict status body = .error .unexpectedResponse := by
  unfold verdict
  rw [if_neg (isErrorStatus_iff.not.mpr good)]
  cases body with
  | none => rfl
  | some v =>
    cases v with
    | obj fields => exact absurd rfl (other fields)
    | _ => rfl

/-- A detail under a good status is the solver's error all the same. -/
theorem replied_of_detail {detail : Json} (told : detail? v = some detail) :
    replied v = .error (remoteFailure none v detail) := by
  cases v with
  | obj fields =>
    have hdetail : Fields.get? fields "detail" = some detail := told
    simp only [replied, hdetail]
  | _ => cases told

/-- An object without a detail is read as a reply. -/
theorem replied_of_untold {fields : Fields} (untold : detail? (.obj fields) = none) :
    replied (.obj fields) = (Reply.ofFields fields).mapError .value := by
  have hdetail : Fields.get? fields "detail" = none := untold
  simp only [replied, hdetail]

/-- Each row of the table is what the client does. -/
theorem verdict_of_judged (h : Judged status body result) : verdict status body = result := by
  cases h with
  | silent bad => rw [verdict_of_bad bad, errorFailure]
  | refused bad told worded => simp only [verdict_of_bad bad, errorFailure, told, remoteFailure,
      worded]
  | failed bad untold => simp only [verdict_of_bad bad, errorFailure, untold]
  | unexpected good other => exact verdict_of_other good other
  | rejected good told worded =>
    rw [verdict_of_good good, replied_of_detail told]
    simp only [remoteFailure, worded]
  | solved good untold read => rw [verdict_of_good good, replied_of_untold untold, read, mapError_ok]
  | misfit h => exact verdict_eq_fault.mpr ⟨_, rfl, h⟩

/-- A detail is worded, or else it is a misfit with every status. -/
theorem judged_detail {detail : Json} (told : detail? v = some detail) (status : Int) :
    ∃ result, Judged status (some v) result := by
  cases hworded : Detail.text detail with
  | error fault => exact ⟨_, .misfit (.detail told (Detail.text_eq_error.mp hworded))⟩
  | ok message =>
    by_cases bad : 400 ≤ status ∧ status ≤ 599
    · exact ⟨_, .refused bad told hworded⟩
    · exact ⟨_, .rejected bad told hworded⟩

/-- The table leaves no answer out. -/
theorem exists_judged (status : Int) (body : Option Json) : ∃ result, Judged status body result := by
  by_cases bad : 400 ≤ status ∧ status ≤ 599
  · cases body with
    | none => exact ⟨_, .silent bad⟩
    | some v =>
      cases told : detail? v with
      | none => exact ⟨_, .failed bad told⟩
      | some detail => exact judged_detail told status
  · by_cases hobject : ∃ fields, body = some (.obj fields)
    · obtain ⟨fields, rfl⟩ := hobject
      cases told : detail? (.obj fields) with
      | some detail => exact judged_detail told status
      | none =>
        -- an object without a detail is a reply unless one of its values does not fit
        cases hread : Reply.ofFields fields with
        | ok reply => exact ⟨_, .solved bad told hread⟩
        | error fault => exact ⟨_, .misfit (.reply bad told (Reply.ofFields_eq_error.mp hread))⟩
    · exact ⟨_, .unexpected bad (not_exists.mp hobject)⟩

/-- The table over status and body says exactly what the client does. -/
theorem judged_iff : verdict status body = result ↔ Judged status body result := by
  constructor
  · rintro rfl
    obtain ⟨result, h⟩ := exists_judged status body
    rwa [verdict_of_judged h]
  · exact verdict_of_judged

/-! ## Outcomes -/

/-- What the outcome of the one call stands for. -/
inductive Classified : Outcome → Except Failure Reply → Prop
  /-- No answer arrived. -/
  | unreached {fault : HttpFault} {message : String} (h : fault.transport = true) :
      Classified (.failed (.http fault message))
        (.error (.transport (if message = "" then fault.name else message)))
  /-- Whatever else the layer below raises is passed on. -/
  | passedOn {failure : Failure}
      (h : ∀ fault message, failure = .http fault message → fault.transport = false) :
      Classified (.failed failure) (.error failure)
  | answered {status : Int} {bytes : List Nat} {result : Except Failure Reply}
      (h : Judged status (valueOf bytes) result) : Classified (.answered status bytes) result

/-- A failure of the layer below, as it leaves the client. -/
def surfaced : Failure → Failure
  | .http fault message =>
    if fault.transport then .transport (transportText fault message) else .http fault message
  | failure => failure

/-- An exchange that fails surfaces its failure. -/
theorem solve_failed (c : Client) (m : Method) (h : (Json.obj request.body).isFinite = true)
    (failure : Failure) :
    (c.solve m.slug request (.failed failure)).result = .error (surfaced failure) := by
  simp only [solve_slug, exchange, prepare_of_isFinite c m h, receive]
  cases failure with
  | http fault message =>
    obtain ⟨name, transport⟩ := fault
    cases transport <;> rfl
  | _ => rfl

/-- A failure that is none of the transport's passes through. -/
theorem surfaced_of_not_transport
    (h : ∀ fault message, failure = .http fault message → fault.transport = false) :
    surfaced failure = failure := by
  cases failure with
  | http fault message => simp [surfaced, h fault message rfl]
  | _ => rfl

/-- A failure of the transport becomes a transport error with its message, or its name when it has
none. -/
theorem surfaced_transport {fault : HttpFault} {message : String} (h : fault.transport = true) :
    surfaced (.http fault message)
      = .transport (if message = "" then fault.name else message) := by
  simp [surfaced, transportText, h]

/-- The table over all outcomes says exactly what the client does. -/
theorem classified_iff (h : (Json.obj request.body).isFinite = true) :
    (c.solve m.slug request outcome).result = result ↔ Classified outcome result := by
  cases outcome with
  | failed failure =>
    rw [solve_failed c m h]
    constructor
    · rintro rfl
      -- a transport fault is told as such, any other failure is passed on
      by_cases hfault : ∀ fault message, failure = .http fault message → fault.transport = false
      · rw [surfaced_of_not_transport hfault]
        exact .passedOn hfault
      · push Not at hfault
        obtain ⟨fault, message, rfl, htransport⟩ := hfault
        rw [Bool.ne_false_iff] at htransport
        rw [surfaced_transport htransport]
        exact .unreached htransport
    · rintro (hfault | hfault)
      · rw [surfaced_transport hfault]
      · rw [surfaced_of_not_transport hfault]
  | answered status bytes =>
    rw [solve_answered c m h, judged_iff]
    constructor
    · exact .answered
    · rintro (- | - | hjudged)
      exact hjudged

/-! ## The two ends of the table -/

/-- The outcomes after which the same solve may go well another time: no answer arrived, or an error
without a value, or the layer below says so itself. -/
inductive Passing : Outcome → Prop
  | unreached {fault : HttpFault} {message : String} (h : fault.transport = true) :
      Passing (.failed (.http fault message))
  | silent {status : Int} {bytes : List Nat} (bad : 400 ≤ status ∧ status ≤ 599)
      (empty : valueOf bytes = none) : Passing (.answered status bytes)
  | said {failure : Failure} (h : failure.transient? = some true) : Passing (.failed failure)

/-- Among judged answers the passing ones are the error statuses without JSON. -/
theorem Judged.transient_iff (h : Judged status body (.error failure)) :
    failure.transient? = some true ↔ (400 ≤ status ∧ status ≤ 599) ∧ body = none := by
  cases h with
  | silent bad => exact ⟨fun _ => ⟨bad, rfl⟩, fun _ => rfl⟩
  | unexpected good other => simp [Failure.transient?, good]
  | _ => simp [Failure.transient?]

/-- A failure is passing exactly for the passing outcomes. -/
theorem Classified.transient_iff (h : Classified outcome (.error failure)) :
    failure.transient? = some true ↔ Passing outcome := by
  cases h with
  | unreached h => exact ⟨fun _ => .unreached h, fun _ => rfl⟩
  | passedOn h =>
    constructor
    · exact .said
    · rintro (hfault | - | hsaid)
      · cases hfault.symm.trans (h _ _ rfl)
      · exact hsaid
  | answered h =>
    rw [h.transient_iff]
    constructor
    · rintro ⟨bad, empty⟩
      exact .silent bad empty
    · rintro (- | ⟨bad, empty⟩)
      exact ⟨bad, empty⟩

/-- What is read as a reply: an object with a good status and without a detail, unless it is a
misfit. -/
def Solves (outcome : Outcome) (fields : Fields) : Prop :=
  ∃ status bytes, outcome = .answered status bytes ∧ ¬ (400 ≤ status ∧ status ≤ 599) ∧
    valueOf bytes = some (.obj fields) ∧ Fields.get? fields "detail" = none ∧
    ∀ fault, ¬ Reply.Misfit fields fault

/-- A reply is returned exactly for the outcomes that solve. -/
theorem classified_ok_iff {fields : Fields} :
    (∃ reply, Classified outcome (.ok reply) ∧ reply.raw = fields) ↔ Solves outcome fields := by
  constructor
  · rintro ⟨reply, hclassified, rfl⟩
    cases hclassified with
    | @answered status bytes _ hjudged =>
      generalize hbody : valueOf bytes = body at hjudged
      cases hjudged with
      | solved good untold read =>
        rw [Reply.raw_of_ofFields read]
        refine ⟨status, bytes, rfl, good, hbody, untold, fun fault hmisfit => ?_⟩
        cases read.symm.trans (Reply.ofFields_eq_error.mpr hmisfit)
  · rintro ⟨status, bytes, rfl, good, hbody, untold, hfits⟩
    obtain ⟨reply, read⟩ := exists_ok_iff.mpr fun fault hfault =>
      hfits fault (Reply.ofFields_eq_error.mp hfault)
    refine ⟨reply, .answered ?_, Reply.raw_of_ofFields read⟩
    rw [hbody]
    exact .solved good untold read

/-- Every outcome of the call that a solve makes is classified, and in one way. For the slug of a
method and a request that was sent: it was sent once, as it was given; the solve ends as the table
says and in no other way; its failure may pass exactly if no answer arrived or an error had no value;
and it returns a reply exactly for the objects that can be read as one, which the reply keeps. -/
theorem solve_classified (c : Client) {slug : String} {m : Method} {request : Request}
    {outcome : Outcome} {sent : Sent} (hslug : Method.ofSlug slug = .ok m)
    (hsent : (c.solve slug request outcome).sent = some sent) :
    sent = c.post m request.body ∧
    (∀ result, (c.solve slug request outcome).result = result ↔ Classified outcome result) ∧
    (∀ failure, (c.solve slug request outcome).result = .error failure →
      (failure.transient? = some true ↔ Passing outcome)) ∧
    ∀ fields, (∃ reply, (c.solve slug request outcome).result = .ok reply ∧ reply.raw = fields) ↔
      Solves outcome fields := by
  obtain rfl := Method.slug_of_ofSlug hslug
  -- a body that cannot be written is held back
  have hbody : (Json.obj request.body).isFinite = true := by
    by_contra hheld
    rw [Bool.not_eq_true] at hheld
    cases hsent.symm.trans (solve_held_back c m hheld outcome).1
  have htable : ∀ result, (c.solve m.slug request outcome).result = result ↔
      Classified outcome result := fun result => classified_iff hbody
  refine ⟨?_, htable, fun failure hfailure => ?_, fun fields => ?_⟩
  · exact Option.some.inj (hsent.symm.trans (solve_sent c m hbody outcome))
  · exact ((htable _).mp hfailure).transient_iff
  · simp only [htable]
    exact classified_ok_iff

/-- A body that is `false` is a body. -/
theorem solve_classified_false :
    let c := Client.usual
    let request : Request := ⟨.bisection, [("equation", .str "x")]⟩
    let outcome := Outcome.answered 500 ("false".toList.map Char.toNat)
    Method.ofSlug "biseccion" = .ok .bisection ∧
      (c.solve "biseccion" request outcome).sent = some (c.post .bisection request.body) ∧
      (c.solve "biseccion" request outcome).result
        = .error (.remote "false" (some 500) (.bool false)) := by
  intro c request outcome
  have hslug : Method.ofSlug "biseccion" = .ok .bisection := rfl
  have hbody : (Json.obj request.body).isFinite = true := rfl
  have hsent := solve_sent c .bisection hbody outcome
  have hvalue : valueOf ("false".toList.map Char.toNat) = some (.bool false) := rfl
  refine ⟨hslug, hsent, ((solve_classified c hslug hsent).2.1 _).mpr (.answered ?_)⟩
  rw [hvalue]
  exact .failed (by decide) rfl

end Client

end FormulaDesk
