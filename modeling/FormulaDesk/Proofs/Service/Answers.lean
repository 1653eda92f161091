import FormulaDesk.Proofs.Service.Sending
import FormulaDesk.Proofs.Steps

/-! # Answers that do not fit

Whatever the service answers, a solve ends in a reply, in a failure that tells what the service
said, or in a fault: a value of the answer is used as what it is not. `Client.Misfit` lists the
bodies of the last kind: a finding whose place cannot be walked, a count of iterations that is `nan`
or infinite, warnings that cannot be listed. `Client.solve_faults_iff` says that these are all.
-/

namespace FormulaDesk

open Json (Kind)

namespace Detail

variable {item detail : Json} {fault : ValueFault}

/-- A finding with a message whose place, of the given kind, cannot be walked. -/
def Unplaced (item : Json) (kind : Kind) : Prop :=
  ∃ fields message place, item = .obj fields ∧ Fields.get? fields "msg" = some message ∧
    Fields.get? fields "loc" = some place ∧ place.entries? = none ∧ place.kind = kind

/-- A list of findings, the first unplaced of which is of the kind that the fault names. -/
inductive Misfit : Json → ValueFault → Prop
  | place {before after : List Json} {item : Json} {kind : Kind}
      (placed : ∀ x ∈ before, ∀ k, ¬ Unplaced x k) (here : Unplaced item kind) :
      Misfit (.arr (before ++ item :: after)) (.notIterable kind)

/-- A place is unreadable exactly when it is no sequence. -/
theorem placeText_eq_error {place : Json} :
    placeText place = .error fault ↔ place.entries? = none ∧ fault = .notIterable place.kind := by
  cases h : place.entries? <;> simp [placeText, h, eq_comm]

/-- A finding is unreadable exactly when its place is. -/
theorem findingText_eq_error :
    findingText item = .error fault ↔ ∃ kind, Unplaced item kind ∧ fault = .notIterable kind := by
  unfold findingText
  split
  · rename_i fields
    cases hmessage : Fields.get? fields "msg" with
    | none => simp [Unplaced, hmessage]
    | some message =>
      -- a finding without a place has an empty list for one, which is walked
      cases hplace : Fields.get? fields "loc" with
      | none => simp [Unplaced, hmessage, hplace, bind_eq_error, placeText, Json.entries?, pure,
          Except.pure]
      | some place =>
        simp [Unplaced, hmessage, hplace, bind_eq_error, placeText_eq_error, pure, Except.pure]
  · rename_i hitem
    simp only [reduceCtorEq, false_iff]
    rintro ⟨kind, ⟨fields, _, _, rfl, _⟩, _⟩
    exact hitem fields rfl

/-- A finding whose place can be read has a text. -/
theorem findingText_eq_ok : (∃ s, findingText item = .ok s) ↔ ∀ kind, ¬ Unplaced item kind := by
  simp only [exists_ok_iff, ne_eq, findingText_eq_error]
  constructor
  · exact fun h kind hitem => h _ ⟨kind, hitem, rfl⟩
  · rintro h _ ⟨kind, hitem, -⟩
    exact h kind hitem

/-- The text of a detail fails exactly for the misfits of a detail. -/
theorem text_eq_error : text detail = .error fault ↔ Misfit detail fault := by
  constructor
  · intro h
    unfold text at h
    split at h
    · cases h
    · obtain ⟨before, item, after, rfl, hbefore, hitem⟩ := mapM_eq_error.mp (map_eq_error.mp h)
      obtain ⟨kind, here, rfl⟩ := findingText_eq_error.mp hitem
      exact .place (fun x hx => findingText_eq_ok.mp (hbefore x hx)) here
    · cases h
  · rintro ⟨placed, here⟩
    refine map_eq_error.mpr (mapM_eq_error.mpr ⟨_, _, _, rfl, ?_, ?_⟩)
    · exact fun x hx => findingText_eq_ok.mpr (placed x hx)
    · exact findingText_eq_error.mpr ⟨_, here, rfl⟩

end Detail

namespace Reply

variable {raw : Fields} {fault : ValueFault}

/-- What the service sends as its iterations. -/
def iterations (raw : Fields) : Json := lookupEither raw "iterations" "iteraciones"

/-- Iterations that are a float without a whole part. -/
inductive Uncounted (raw : Fields) : ValueFault → Prop
  | nan {x : Float} (sent : iterations raw = .float x) (hx : Binary.ofFloat x = .nan) :
      Uncounted raw .nanToWhole
  | infinite {x : Float} {negative : Bool} (sent : iterations raw = .float x)
      (hx : Binary.ofFloat x = .infinite negative) : Uncounted raw .infinityToWhole

/-- A body whose iterations cannot be counted or, if they can, whose warnings cannot be listed. -/
inductive Misfit (raw : Fields) : ValueFault → Prop
  | iterations {fault : ValueFault} (h : Uncounted raw fault) : Misfit raw fault
  | warnings {v : Json} (counted : ∀ fault, ¬ Uncounted raw fault)
      (sent : raw.get? "warnings" = some v) (present : v.isPresent) (unlisted : v.entries? = none) :
      Misfit raw (.notIterable v.kind)

/-- A number has no whole part exactly when it is not finite. -/
theorem wholeOf_eq_error {x : Float} : wholeOf x = .error fault ↔
    (Binary.ofFloat x = .nan ∧ fault = .nanToWhole) ∨
      ∃ negative, Binary.ofFloat x = .infinite negative ∧ fault = .infinityToWhole := by
  cases hx : Binary.ofFloat x <;> simp [wholeOf, hx, eq_comm]

/-- Counting the iterations fails exactly when the answer's own count is not finite. -/
theorem countOf_eq_error {trace : List Json} :
    countOf (iterations raw) trace = .error fault ↔ Uncounted raw fault := by
  constructor
  · intro h
    unfold countOf at h
    split at h
    case h_4 x hsent =>
      obtain ⟨hx, rfl⟩ | ⟨negative, hx, rfl⟩ := wholeOf_eq_error.mp (map_eq_error.mp h)
      · exact .nan hsent hx
      · exact .infinite hsent hx
    all_goals cases h
  · rintro (⟨hsent, hx⟩ | ⟨hsent, hx⟩) <;>
      simp [hsent, countOf, map_eq_error, wholeOf_eq_error, hx]

/-- Warnings are unreadable exactly when they are present and no sequence. -/
theorem warningsOf_eq_error {v : Json} : warningsOf v = .error fault ↔
    v.isPresent ∧ v.entries? = none ∧ fault = .notIterable v.kind := by
  unfold warningsOf
  split
  · rename_i habsent
    simp only [Bool.not_eq_eq_eq_not, Bool.not_true] at habsent
    simp [habsent]
  · rename_i hpresent
    have hpresent : v.isPresent = true := by simpa using hpresent
    cases v <;> simp [hpresent, Json.entries?, eq_comm]

/-- Only a key that was sent brings warnings. -/
theorem get?_of_lookup_isPresent {key : String} (h : (lookup raw key).isPresent) :
    raw.get? key = some (lookup raw key) := by
  unfold lookup at h ⊢
  cases hkey : raw.get? key with
  | none => simp [hkey, Json.isPresent] at h
  | some v => rfl

/-- An answer is unreadable exactly for the misfits of a reply. -/
theorem ofFields_eq_error : ofFields raw = .error fault ↔ Misfit raw fault := by
  unfold ofFields
  simp only [bind_eq_error]
  constructor
  -- the iterations are read before the warnings, and nothing else can fail
  · rintro (hcount | ⟨count, hcount, hwarnings | ⟨warnings, -, hreply⟩⟩)
    · exact .iterations (countOf_eq_error.mp hcount)
    · obtain ⟨present, unlisted, rfl⟩ := warningsOf_eq_error.mp hwarnings
      have counted := exists_ok_iff.mp ⟨count, hcount⟩
      refine .warnings ?_ (get?_of_lookup_isPresent present) present unlisted
      exact fun fault h => counted fault (countOf_eq_error.mpr h)
    · cases hreply
  · rintro (h | @⟨v, counted, sent, present, unlisted⟩)
    · exact .inl (countOf_eq_error.mpr h)
    · have hcounted (trace : List Json) : ∃ count, countOf (iterations raw) trace = .ok count :=
        exists_ok_iff.mpr fun fault h => counted fault (countOf_eq_error.mp h)
      have hwarnings : warningsOf (lookup raw "warnings") = .error (.notIterable v.kind) :=
        warningsOf_eq_error.mpr (by simp [lookup, sent, present, unlisted])
      exact .inr ((hcounted _).imp fun count hcount => ⟨hcount, .inl hwarnings⟩)

end Reply

/-- A failure that tells what came of the request at the service. -/
def Failure.isSolver : Failure → Bool
  | .solver .. => true
  | .remote .. => true
  | .transport _ => true
  | _ => false

namespace Client

variable {m : Method} {status : Int} {fault : ValueFault}

/-- What a value in a body comes to when the status is good. -/
def replied (v : Json) : Except Failure Reply :=
  match v with
  | .obj fields =>
    match Fields.get? fields "detail" with
    | some detail => .error (remoteFailure none v detail)
    | none => (Reply.ofFields fields).mapError .value
  | _ => .error .unexpectedResponse

/-- What an answer comes to, by its status and the value in its body. -/
def verdict (status : Int) (v : Option Json) : Except Failure Reply :=
  if isErrorStatus status then .error (errorFailure status v)
  else match v with
    | none => .error .unexpectedResponse
    | some v => replied v

/-- The value of a reply does not depend on what is logged on the way. -/
theorem run_replyOf (path : String) (v : Json) : (replyOf path v).run.value = replied v := by
  cases v with
  | obj fields =>
    simp only [replyOf, replied]
    cases Fields.get? fields "detail" with
    | some detail => rfl
    | none => cases Reply.ofFields fields <;> rfl
  | _ => rfl

/-- A solve that is answered ends as the answer says. -/
theorem solve_answered (c : Client) (m : Method) {request : Request}
    (h : (Json.obj request.body).isFinite = true) (status : Int) (bytes : List Nat) :
    (c.solve m.slug request (.answered status bytes)).result = verdict status (valueOf bytes) := by
  simp only [solve_slug, exchange, prepare_of_isFinite c m h, receive, post, verdict]
  -- the status is looked at before the body
  by_cases herror : isErrorStatus status
  · simp only [herror]
    rfl
  · simp only [herror]
    cases valueOf bytes with
    | none => rfl
    | some v => exact run_replyOf m.path v

/-- A body that ends a solve in a fault: a detail that cannot be worded or, with a good status, a
reply that cannot be read. -/
inductive Misfit (status : Int) : Json → ValueFault → Prop
  | detail {v detail : Json} {fault : ValueFault} (told : detail? v = some detail)
      (h : Detail.Misfit detail fault) : Misfit status v fault
  | reply {fields : Fields} {fault : ValueFault} (good : ¬ (400 ≤ status ∧ status ≤ 599))
      (untold : detail? (.obj fields) = none) (h : Reply.Misfit fields fault) :
      Misfit status (.obj fields) fault

/-- The error statuses are those from 400 to 599. -/
theorem isErrorStatus_iff : isErrorStatus status = true ↔ 400 ≤ status ∧ status ≤ 599 := by
  simp [isErrorStatus]

/-- Reporting a solver's error fails only on the text of its detail. -/
theorem remoteFailure_eq_fault {told : Option Int} {v detail : Json} :
    remoteFailure told v detail = .value fault ↔ Detail.Misfit detail fault := by
  rw [← Detail.text_eq_error]
  cases h : Detail.text detail <;> simp [remoteFailure, h]

/-- A reported error is a solver's error or a fault of the text of its detail. -/
theorem remoteFailure_isSolver_or_fault (told : Option Int) (v detail : Json) :
    (remoteFailure told v detail).isSolver = true ∨
      ∃ fault, remoteFailure told v detail = .value fault := by
  unfold remoteFailure
  split
  · exact .inl rfl
  · exact .inr ⟨_, rfl⟩

/-- An error status leaves with a fault only when its body has a detail that cannot be read. -/
theorem errorFailure_eq_fault {v : Option Json} : errorFailure status v = .value fault ↔
    ∃ w detail, v = some w ∧ detail? w = some detail ∧ Detail.Misfit detail fault := by
  cases v with
  | none => simp [errorFailure]
  | some w => cases h : detail? w <;> simp [errorFailure, h, remoteFailure_eq_fault]

/-- An error status becomes one of the three errors, or a fault of its detail. -/
theorem errorFailure_isSolver_or_fault (status : Int) (v : Option Json) :
    (errorFailure status v).isSolver = true ∨ ∃ fault, errorFailure status v = .value fault := by
  unfold errorFailure
  split
  · exact .inl rfl
  · split
    · exact remoteFailure_isSolver_or_fault _ _ _
    · exact .inl rfl

/-- A body leaves with a fault when its detail cannot be read or, having none, its fields cannot. -/
theorem replied_eq_fault {v : Json} : replied v = .error (.value fault) ↔
    (∃ detail, detail? v = some detail ∧ Detail.Misfit detail fault) ∨
      ∃ fields, v = .obj fields ∧ detail? v = none ∧ Reply.Misfit fields fault := by
  cases v with
  | obj fields =>
    cases h : Fields.get? fields "detail" with
    | some detail => simp [replied, detail?, h, remoteFailure_eq_fault]
    | none =>
      simp only [← Reply.ofFields_eq_error]
      cases hreply : Reply.ofFields fields <;> simp [replied, detail?, h, hreply]
  | _ => simp [replied, detail?, Failure.unexpectedResponse]

/-- A body that is no result becomes one of the three errors, or a fault. -/
theorem replied_isSolver_or_fault {v : Json} {failure : Failure}
    (h : replied v = .error failure) :
    failure.isSolver = true ∨ ∃ fault, failure = .value fault := by
  unfold replied at h
  split at h
  · rename_i fields
    split at h
    · cases h
      exact remoteFailure_isSolver_or_fault _ _ _
    · cases hreply : Reply.ofFields fields with
      | ok reply => simp [hreply] at h
      | error fault => exact .inr ⟨fault, by simpa [hreply] using h.symm⟩
  · cases h
    exact .inl rfl

/-- The exact answers that leave with a fault, over both kinds of status. -/
theorem verdict_eq_fault {v : Option Json} : verdict status v = .error (.value fault) ↔
    ∃ w, v = some w ∧ Misfit status w fault := by
  unfold verdict
  split
  · rename_i hstatus
    rw [Except.error.injEq, errorFailure_eq_fault]
    constructor
    · rintro ⟨w, detail, rfl, told, h⟩
      exact ⟨w, rfl, .detail told h⟩
    · rintro ⟨_, rfl, ⟨told, h⟩ | ⟨good, -, -⟩⟩
      · exact ⟨_, _, rfl, told, h⟩
      -- no reply is read from the body of an error
      · exact absurd (isErrorStatus_iff.mp hstatus) good
  · rename_i hstatus
    have good : ¬ (400 ≤ status ∧ status ≤ 599) := fun h => hstatus (isErrorStatus_iff.mpr h)
    cases v with
    | none => simp [Failure.unexpectedResponse]
    | some w =>
      simp only [replied_eq_fault, Option.some.injEq, exists_eq_left']
      constructor
      · rintro (⟨detail, told, h⟩ | ⟨fields, rfl, untold, h⟩)
        · exact .detail told h
        · exact .reply good untold h
      · rintro (⟨told, h⟩ | ⟨-, untold, h⟩)
        · exact .inl ⟨_, told, h⟩
        · exact .inr ⟨_, rfl, untold, h⟩

/-- An answer that is no result becomes one of the three errors, or a fault. -/
theorem verdict_isSolver_or_fault {v : Option Json} {failure : Failure}
    (h : verdict status v = .error failure) :
    failure.isSolver = true ∨ ∃ fault, failure = .value fault := by
  unfold verdict at h
  split at h
  · cases h
    exact errorFailure_isSolver_or_fault status v
  · split at h
    · cases h
      exact .inl rfl
    · exact replied_isSolver_or_fault h

/-- An exchange leaves with a fault exactly when its body is a misfit of its status. -/
theorem solve_eq_fault (c : Client) (m : Method) {request : Request}
    (h : (Json.obj request.body).isFinite = true) (bytes : List Nat) :
    (c.solve m.slug request (.answered status bytes)).result = .error (.value fault) ↔
      ∃ v, valueOf bytes = some v ∧ Misfit status v fault := by
  rw [solve_answered c m h, verdict_eq_fault]

/-- What can come of an answer, whatever its status and its body. Apart from a slug that stands for
no method, a solve fails in a way that tells what came of the request at the service, or in a fault,
and it ends in a fault exactly for the misfits. -/
theorem solve_faults_iff (c : Client) (slug : String) (request : Request) (status : Int)
    (bytes : List Nat) (hbody : (Json.obj request.body).isFinite = true) :
    let result := (c.solve slug request (.answered status bytes)).result
    (∀ failure, result = .error failure →
      failure.isSolver = true ∨ (∃ fault, failure = .value fault) ∨
        ∃ problem, Method.ofSlug slug = .error problem ∧ failure = .invalid problem) ∧
    ∀ fault, result = .error (.value fault) ↔
      ∃ m v, Method.ofSlug slug = .ok m ∧ valueOf bytes = some v ∧ Misfit status v fault := by
  cases hslug : Method.ofSlug slug with
  | error problem =>
    have hresult : (c.solve slug request (.answered status bytes)).result
        = .error (.invalid problem) := by simp [solve, hslug, Exchange.refused]
    simp only [hresult]
    constructor
    · rintro failure ⟨⟩
      exact .inr (.inr ⟨problem, rfl, rfl⟩)
    · simp
  | ok m =>
    obtain rfl := Method.slug_of_ofSlug hslug
    constructor
    · intro failure hresult
      rw [solve_answered c m hbody] at hresult
      exact (verdict_isSolver_or_fault hresult).imp_right .inl
    · intro fault
      rw [solve_eq_fault c m hbody]
      simp

/-- A rejected request whose only finding has nothing for a place. -/
theorem solve_faults_iff_unplaced :
    let c := Client.usual
    let request : Request := ⟨.bisection, [("equation", .str "x")]⟩
    let bytes := "\x7b\"detail\": [\x7b\"loc\": null, \"msg\": \"m\"\x7d]\x7d".toList.map Char.toNat
    (Json.obj request.body).isFinite = true ∧
      ∃ v fault, valueOf bytes = some v ∧ Misfit 422 v fault ∧
        (c.solve "biseccion" request (.answered 422 bytes)).result = .error (.value fault) ∧
        fault.message = "'NoneType' object is not iterable" := by
  intro c request bytes
  have hbody : (Json.obj request.body).isFinite = true := rfl
  have hresult : (match (c.solve "biseccion" request (.answered 422 bytes)).result with
      | .ok _ => false
      | .error failure => !failure.isSolver &&
          failure.message == "'NoneType' object is not iterable") = true := by decide +kernel
  have hfaults := solve_faults_iff c "biseccion" request 422 bytes hbody
  generalize (c.solve "biseccion" request (.answered 422 bytes)).result = result at hresult hfaults
  cases result with
  | ok reply => cases hresult
  | error failure =>
    simp only [Bool.and_eq_true, Bool.not_eq_true', beq_iff_eq] at hresult
    obtain ⟨hsilent, hmessage⟩ := hresult
    -- it is no failure of the service and none of the slug, so it is a fault
    obtain hsolver | ⟨fault, rfl⟩ | ⟨problem, hslug, -⟩ := hfaults.1 failure rfl
    · simp [hsilent] at hsolver
    · obtain ⟨m, v, -, hsent, hmisfit⟩ := (hfaults.2 fault).mp rfl
      exact ⟨hbody, v, fault, hsent, hmisfit, rfl, hmessage⟩
    · cases hslug

end Client

end FormulaDesk
