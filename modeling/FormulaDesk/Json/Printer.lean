import FormulaDesk.Json.Basic
import FormulaDesk.Text.Quoted

/-!
# Writing values

Two notations. The exchange notation is JSON in three layouts: without any space for request
bodies, with a space after each separator for messages, and indented by two for the terminal. The
display notation is the one of log records and summaries: `None`, `True`, texts in single quotes.
Both write a float with the fewest digits that read back.
-/

namespace FormulaDesk.Json

/-- The three layouts of the exchange notation. -/
inductive Layout where
  | compact
  | spaced
  | indented
deriving DecidableEq, Repr

namespace Layout

/-- What stands before an item: nothing but the separator, or a line break and the indent. -/
def itemLead (layout : Layout) (depth : Nat) (first : Bool) : String :=
  match layout with
  | .compact => if first then "" else ","
  | .spaced => if first then "" else ", "
  | .indented =>
    (if first then "\n" else ",\n") ++ String.ofList (List.replicate (2 * depth) ' ')

/-- What stands before the closing bracket of a list or object that is not empty. -/
def closeLead (layout : Layout) (depth : Nat) : String :=
  match layout with
  | .indented => "\n" ++ String.ofList (List.replicate (2 * depth) ' ')
  | _ => ""

def colon : Layout → String
  | .compact => ":"
  | _ => ": "

end Layout

/-- One character inside a JSON string: quotes, backslashes and control characters are escaped. -/
def escapedChar (c : Char) : List Char :=
  if c == '"' then ['\\', '"']
  else if c == '\\' then ['\\', '\\']
  else if c == '\n' then ['\\', 'n']
  else if c == '\r' then ['\\', 'r']
  else if c == '\t' then ['\\', 't']
  else if c.toNat = 8 then ['\\', 'b']
  else if c.toNat = 12 then ['\\', 'f']
  else if c.toNat < 32 then '\\' :: 'u' :: Text.hexDigits 4 c.toNat
  else [c]

def escaped (s : String) : String :=
  String.ofList ('"' :: s.toList.flatMap escapedChar ++ ['"'])

def floatToken (x : Float) : String :=
  match Binary.ofFloat x with
  | .nan => "NaN"
  | .infinite true => "-Infinity"
  | .infinite false => "Infinity"
  | .finite .. => floatText x

mutual

/-- The exchange notation of a value that stands at the given depth. -/
def renderAt (layout : Layout) (depth : Nat) : Json → String
  | .null => "null"
  | .bool b => if b then "true" else "false"
  | .int n => toString n
  | .float x => floatToken x
  | .str s => escaped s
  | .arr [] => "[]"
  | .arr (v :: rest) =>
    "[" ++ renderItems layout (depth + 1) true (v :: rest) ++ layout.closeLead depth ++ "]"
  | .obj [] => "\x7b\x7d"
  | .obj (kv :: rest) =>
    "\x7b" ++ renderFields layout (depth + 1) true (kv :: rest) ++ layout.closeLead depth ++ "\x7d"

def renderItems (layout : Layout) (depth : Nat) (first : Bool) : List Json → String
  | [] => ""
  | v :: rest =>
    layout.itemLead depth first ++ renderAt layout depth v ++ renderItems layout depth false rest

def renderFields (layout : Layout) (depth : Nat) (first : Bool) : List (String × Json) → String
  | [] => ""
  | (k, v) :: rest =>
    layout.itemLead depth first ++ escaped k ++ layout.colon ++ renderAt layout depth v
      ++ renderFields layout depth false rest

end

def render (layout : Layout) (v : Json) : String := renderAt layout 0 v

mutual

/-- The display notation, with texts in quotes. -/
def literal : Json → String
  | .null => "None"
  | .bool b => if b then "True" else "False"
  | .int n => toString n
  | .float x => floatText x
  | .str s => Text.quoted s
  | .arr items => "[" ++ literalItems true items ++ "]"
  | .obj fields => "\x7b" ++ literalFields true fields ++ "\x7d"

def literalItems (first : Bool) : List Json → String
  | [] => ""
  | v :: rest => (if first then "" else ", ") ++ literal v ++ literalItems false rest

def literalFields (first : Bool) : List (String × Json) → String
  | [] => ""
  | (k, v) :: rest =>
    (if first then "" else ", ") ++ Text.quoted k ++ ": " ++ literal v ++ literalFields false rest

end

/-- The display notation of a value that stands alone: a text is itself. -/
def display : Json → String
  | .str s => s
  | v => v.literal

end FormulaDesk.Json
