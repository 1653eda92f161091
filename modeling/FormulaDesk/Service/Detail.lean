import FormulaDesk.Failure

/-!
# Error details

An error body says under `detail` what went wrong: as a text, as a list of findings with a place
and a message, or as anything else. `Detail.text` is the one message made of it.
-/

namespace FormulaDesk.Detail

/-- A place as its parts joined by points; the part `body` says nothing and is left out. -/
def placeText (place : Json) : Except ValueFault String :=
  match place.entries? with
  | none => .error (.notIterable place.kind)
  | some parts =>
    .ok (".".intercalate ((parts.map Json.display).filter fun part => part ≠ "body"))

/-- One finding: its place, unless that is empty, and its message. -/
def findingText (item : Json) : Except ValueFault String :=
  match item with
  | .obj fields =>
    match Fields.get? fields "msg" with
    -- without a message the whole finding is shown
    | none => .ok (Json.display item)
    | some message => do
      let place ← placeText ((Fields.get? fields "loc").getD (.arr []))
      return if place.isEmpty then message.display else place ++ ": " ++ message.display
  | item => .ok item.display

/-- A detail as one message. -/
def text (detail : Json) : Except ValueFault String :=
  match detail with
  | .str s => .ok s
  | .arr items => (items.mapM findingText).map ("; ".intercalate ·)
  | v => .ok (v.render .spaced)

end FormulaDesk.Detail
