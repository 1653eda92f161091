import FormulaDesk.Text.CharClass

/-!
# Markup tokens

Formula markup is a sequence of commands and single characters. A backslash starts a command: its
name is the longest run of ASCII letters that follows, or else the one character that follows. A
backslash at the very end is dropped.
-/

namespace FormulaDesk.Markup

inductive Token where
  | command (name : String)
  | char (c : Char)
deriving DecidableEq, Repr, Inhabited

namespace Token

/-- Tokens of the characters that follow. Inside a command, `name` holds the letters of its name
so far, last first. -/
def scan : (name : Option (List Char)) → List Char → List Token
  | none, [] => []
  | none, c :: cs => if c == '\\' then scan (some []) cs else .char c :: scan none cs
  | some [], [] => []
  | some name, [] => [.command (String.ofList name.reverse)]
  | some name, c :: cs =>
    if Text.isAsciiLetter c then scan (some (c :: name)) cs
    else if name.isEmpty then .command (String.singleton c) :: scan none cs
    else .command (String.ofList name.reverse)
      :: (if c == '\\' then scan (some []) cs else .char c :: scan none cs)

/-- The tokens of a markup text. -/
def ofString (markup : String) : List Token := scan none markup.toList

/-- A token as it is typed. -/
def write : Token → List Char
  | .command name => '\\' :: name.toList
  | .char c => [c]

def isBlank : Token → Bool
  | .char c => Text.isBlank c
  | .command _ => false

end Token

/-! ## Closing tokens -/

/-- The tokens that can end a run of siblings. -/
inductive Closer where
  | brace
  | paren
  | bracket
  | right
  | set
deriving DecidableEq, Repr

/-- What a token closes, if anything. -/
def Token.closer? : Token → Option Closer
  | .char '}' => some .brace
  | .char ')' => some .paren
  | .char ']' => some .bracket
  | .command "right" => some .right
  | .command "\x7d" => some .set
  | _ => none

/-- The closing tokens that end the run being read and those around it. -/
abbrev Stops := List Closer

/-- Whether a token ends the run. -/
def Token.stops (t : Token) (stops : Stops) : Bool :=
  match t.closer? with
  | some closer => stops.contains closer
  | none => false

end FormulaDesk.Markup
