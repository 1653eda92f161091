import FormulaDesk.Failure

/-!
# Entries of a form

What a form makes of a typed value. A parameter has to read as a number of its kind; a cell of a
matrix or vector that does not read as a number becomes zero. Positions count from zero, or from the
end if they are negative.
-/

namespace FormulaDesk.Entry

/-- A value as a real number. -/
def real (v : Json) : Except ValueFault Float :=
  match v with
  | .bool b => .ok (if b then 1 else 0)
  | .int n =>
    match Decimal.floatOfInt? n with
    | some x => .ok x
    | none => .error .tooLargeForFloat
  | .float x => .ok x
  | .str s =>
    match Numeral.readFloat s with
    | some x => .ok x
    | none => .error (.realText s)
  | v => .error (.notReal v.kind)

/-- A value as a whole number; a real number is cut toward zero. -/
def whole (v : Json) : Except ValueFault Int :=
  match v with
  | .bool b => .ok (if b then 1 else 0)
  | .int n => .ok n
  | .float x =>
    match Binary.ofFloat x with
    | .nan => .error .nanToWhole
    | .infinite _ => .error .infinityToWhole
    | b => .ok (b.truncate?.getD 0)
  | .str s =>
    match Numeral.readInt s with
    | .ok n => .ok n
    | .error .malformed => .error (.wholeText s)
    | .error (.tooLong digits) => .error (.digitLimit digits)
  | v => .error (.notNumeral v.kind)

/-- A value as a cell. Only a whole number beyond all floats is refused. -/
def cell (v : Json) : Except ValueFault Float :=
  match real v with
  | .ok x => .ok x
  | .error .tooLargeForFloat => .error .tooLargeForFloat
  | .error _ => .ok 0

/-- The place that a position names in a list; `outside` is the fault of one that names none. -/
def position (size : Nat) (index : Json) (outside : ValueFault) : Except ValueFault Nat :=
  match index with
  | .bool b => place (if b then 1 else 0)
  | .int n => place n
  | v => .error (.badIndex v.kind)
where
  place (n : Int) : Except ValueFault Nat :=
    if n < -(Nat.pow 2 63 : Int) ∨ (Nat.pow 2 63 : Int) ≤ n then .error .tooLargeForIndex
    else
      -- once from the end at most: what is still negative names no place
      let fromStart := if n < 0 then n + size else n
      if 0 ≤ fromStart ∧ fromStart < size then .ok fromStart.toNat else .error outside

/-- The item at a position. -/
def item (v index : Json) : Except ValueFault (Nat × Json) :=
  match v with
  | .arr items => do
    let i ← position items.length index .itemRange
    return (i, (items[i]?).getD .null)
  | v => .error (.noItemAssignment v.kind)

/-- The list with a number at a position. -/
def assign (v index : Json) (x : Float) : Except ValueFault Json :=
  match v with
  | .arr items => do
    let i ← position items.length index .assignmentRange
    return .arr (items.set i (.float x))
  | v => .error (.noItemAssignment v.kind)

end FormulaDesk.Entry
