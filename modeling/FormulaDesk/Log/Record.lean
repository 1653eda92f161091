/-!
# Log records

What operations note as they go. A record may carry the context of a request: the method, the
path, the status, and that a time was measured. `Logged` pairs the value of an operation with its
records, in order.
-/

namespace FormulaDesk

/-- The levels at which operations log, in rising order. -/
inductive Level where
  | debug
  | info
  | warning
  | error
deriving DecidableEq, Repr

def Level.name : Level → String
  | .debug => "DEBUG"
  | .info => "INFO"
  | .warning => "WARNING"
  | .error => "ERROR"

def Level.number : Level → Int
  | .debug => 10
  | .info => 20
  | .warning => 30
  | .error => 40

structure Record where
  level : Level
  /-- The part of the program that speaks. -/
  source : String
  message : String
  method : Option String := none
  path : Option String := none
  status : Option Int := none
  timed : Bool := false
  /-- Whether the record carries the failure it reports. -/
  withFailure : Bool := false
deriving Repr, DecidableEq

/-- The name under which a part of the program logs. -/
def loggerName (source : String) : String := "metodos." ++ source

structure Logged (α : Type) where
  value : α
  records : List Record := []

namespace Logged

def bind {α β : Type} (x : Logged α) (f : α → Logged β) : Logged β :=
  let y := f x.value
  ⟨y.value, x.records ++ y.records⟩

instance : Monad Logged where
  pure value := ⟨value, []⟩
  bind := bind

/-- Notes one record. -/
def note (record : Record) : Logged Unit := ⟨(), [record]⟩

end Logged

end FormulaDesk
