import FormulaDesk.Service.Client
import FormulaDesk.Proofs.Json.Fields
import FormulaDesk.Proofs.Method.Catalog

/-! # What a solve sends

A solve sends its request once, as it was given, or not at all: only a body with an infinity or
`nan` is held back. What comes back has no say in this.
-/

namespace FormulaDesk

namespace Client

variable {m : Method} {request : Request}

/-- Addresses as they are read where nothing in them has to change: a path stands behind the address
of the service. -/
def appending : BaseReader := fun text => .ok ⟨fun path => text ++ path⟩

/-- A client of the usual service. -/
def usual : Client := ⟨⟨fun path => defaultUrl ++ path⟩, .float defaultTimeout⟩

theorem connect_usual : connect appending none .null = .ok usual := rfl

/-- A body on its way to the address of a method. -/
def post (c : Client) (m : Method) (body : Fields) : Sent :=
  ⟨"POST", c.base.join m.path, c.timeout, (Json.obj body).render .compact⟩

theorem prepare_of_isFinite {body : Fields} (c : Client) (m : Method)
    (h : (Json.obj body).isFinite = true) :
    c.prepare "POST" m.path (some body) = .ok (c.post m body) := by
  simp [prepare, h, post]

theorem prepare_of_not_isFinite {body : Fields} (c : Client) (m : Method)
    (h : (Json.obj body).isFinite = false) :
    c.prepare "POST" m.path (some body) = .error (.value .notCompliant) := by
  simp [prepare, h]

theorem solve_slug (c : Client) (m : Method) (request : Request) (outcome : Outcome) :
    c.solve m.slug request outcome =
      c.exchange "POST" m.path (some request.body) (opening m request.body) outcome
        (replyOf m.path) := by
  simp [solve, m.ofSlug_slug]

theorem solve_sent (c : Client) (m : Method) (h : (Json.obj request.body).isFinite = true)
    (outcome : Outcome) :
    (c.solve m.slug request outcome).sent = some (c.post m request.body) := by
  simp [solve_slug, exchange, prepare_of_isFinite c m h]

theorem solve_held_back (c : Client) (m : Method) (h : (Json.obj request.body).isFinite = false)
    (outcome : Outcome) :
    (c.solve m.slug request outcome).sent = none ∧
      (c.solve m.slug request outcome).result = .error (.value .notCompliant) := by
  simp [solve_slug, exchange, prepare_of_not_isFinite c m h]

end Client

end FormulaDesk
