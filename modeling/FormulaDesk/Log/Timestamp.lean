import FormulaDesk.Failure

/-!
# Timestamps

The moment of a record, given in seconds since 1970, as a date and a time of day. Fractions are
rounded to microseconds, a half to the even neighbour, and left out if they are zero. A moment and
the day before it have to lie in the years 1 to 9999.
-/

namespace FormulaDesk.Timestamp

/-- A moment: whole seconds since 1970, and microseconds. -/
structure Moment where
  seconds : Int
  micros : Nat
deriving DecidableEq, Repr

/-- A magnitude to the nearest whole number; a half goes to the even neighbour. -/
def nearest (x : Float) : Nat :=
  match Binary.ofFloat x with
  | .finite _ mantissa exponent =>
    let (num, den) := Binary.quotient mantissa exponent
    Decimal.roundDiv num den
  | _ => 0

/-- Whole seconds and signed microseconds, brought together. -/
def Moment.ofParts (seconds micros : Int) : Moment :=
  let total := seconds * 1000000 + micros
  ⟨Int.fdiv total 1000000, (Int.fmod total 1000000).toNat⟩

def ofFloat (x : Float) : Except ValueFault Moment :=
  match Binary.ofFloat x with
  | .nan => .error .notATime
  | .infinite _ => .error .timeRange
  | b =>
    let whole := b.truncate?.getD 0
    let fraction := (x - (Decimal.floatOfInt? whole).getD 0) * 1e6
    let micros : Int := nearest fraction.abs
    .ok (.ofParts whole (if fraction < 0 then -micros else micros))

/-- The moment that a value stands for. -/
def ofJson (v : Json) : Except ValueFault Moment :=
  match v with
  | .bool b => .ok ⟨if b then 1 else 0, 0⟩
  | .int n => .ok ⟨n, 0⟩
  | .float x => ofFloat x
  | v => .error (.notWhole v.kind)

/-! ## The calendar -/

structure Date where
  year : Int
  month : Nat
  day : Nat
deriving DecidableEq, Repr

/-- The date a number of days after the first of January 1970. A year is counted from March, so
that the leap day is its last; 400 years have 146097 days. -/
def Date.ofDays (days : Int) : Date :=
  let shifted := days + 719468
  let era := Int.fdiv shifted 146097
  let dayOfEra := (Int.fmod shifted 146097).toNat
  let yearOfEra := (dayOfEra - dayOfEra / 1460 + dayOfEra / 36524 - dayOfEra / 146096) / 365
  let dayOfYear := dayOfEra - (365 * yearOfEra + yearOfEra / 4 - yearOfEra / 100)
  let monthFromMarch := (5 * dayOfYear + 2) / 153
  let day := dayOfYear - (153 * monthFromMarch + 2) / 5 + 1
  let month := if monthFromMarch < 10 then monthFromMarch + 3 else monthFromMarch - 9
  let year := era * 400 + yearOfEra + (if month ≤ 2 then 1 else 0)
  ⟨year, month, day⟩

def secondsPerDay : Int := 86400

def dateOf (seconds : Int) : Date := .ofDays (Int.fdiv seconds secondsPerDay)

/-- The date of a moment within the years that can be written. -/
def checkedDate (seconds : Int) : Except ValueFault Date :=
  let date := dateOf seconds
  if (Nat.pow 2 31 : Int) + 1900 ≤ date.year ∨ date.year < 1900 - (Nat.pow 2 31 : Int) then
    .error .timeOverflow
  else if 1 ≤ date.year ∧ date.year ≤ 9999 then .ok date
  else .error (.yearRange date.year)

/-- A number with at least `width` digits. -/
def padded (width n : Nat) : String :=
  let ds := Nat.toDigits 10 n
  String.ofList (List.replicate (width - ds.length) '0' ++ ds)

/-- Date and time of day. -/
def text (m : Moment) : Except ValueFault String := do
  if m.seconds < -(Nat.pow 2 63 : Int) ∨ (Nat.pow 2 63 : Int) ≤ m.seconds then throw .timeRange
  let date ← checkedDate m.seconds
  -- the day before has to exist too, so the first day of all cannot be written
  let _ ← checkedDate (m.seconds - secondsPerDay)
  let time := (Int.fmod m.seconds secondsPerDay).toNat
  return padded 4 date.year.toNat ++ "-" ++ padded 2 date.month ++ "-" ++ padded 2 date.day
    ++ "T" ++ padded 2 (time / 3600) ++ ":" ++ padded 2 (time / 60 % 60)
    ++ ":" ++ padded 2 (time % 60)
    ++ (if m.micros = 0 then "" else "." ++ padded 6 m.micros)

end FormulaDesk.Timestamp
