import FormulaDesk.Markup.Node
import FormulaDesk.Markup.Token

/-!
# Reading markup

Any token sequence reads as a tree. A missing group is an empty one, an unmatched closing brace is
dropped, and an unmatched closing parenthesis, bracket or `\right` is kept as a closing parenthesis.
Only `maxNesting` levels of grouping are read as structure; below them every token becomes a leaf.

The readers walk the remaining tokens and give back those they leave. Each takes the closers that
end the runs around it and `room`, the number of levels left. The first argument bounds the number
of nested calls; `Node.ofTokens` gives enough for any input.
-/

namespace FormulaDesk.Markup

/-- The number of grouping levels that are read as structure. -/
def maxNesting : Nat := 100

def skipBlanks (ts : List Token) : List Token := ts.dropWhile Token.isBlank

/-- Drops the token that closes a group, if it is there. -/
def expect (closer : Closer) : List Token → List Token
  | [] => []
  | t :: rest => if t.closer? = some closer then rest else t :: rest

/-- The symbol that a command stands for after `\left` or `\right`. -/
def delimiterSymbol (name : String) : String :=
  match name with
  | "\x7b" => "\x7b"
  | "\x7d" => "\x7d"
  | "|" => "|"
  | "vert" => "|"
  | "lbrace" => "\x7b"
  | "rbrace" => "\x7d"
  | "langle" => "("
  | "rangle" => ")"
  | _ => ""

/-- The delimiter after `\left` or `\right`: one token, where a point stands for none. -/
def delimiter : List Token → String × List Token
  | [] => ("", [])
  | .command name :: rest => (delimiterSymbol name, rest)
  | .char c :: rest => (if c == '.' then "" else String.singleton c, rest)

def isNumberChar (c : Char) : Bool := Text.isDigit c || c == '.'

/-- The characters from the front that satisfy a test. -/
def takeRun (accept : Char → Bool) : List Token → List Char × List Token
  | .char c :: rest =>
    if accept c then
      let (run, after) := takeRun accept rest
      (c :: run, after)
    else ([], .char c :: rest)
  | ts => ([], ts)

def isFractionCommand (name : String) : Bool :=
  name == "frac" || name == "dfrac" || name == "tfrac"

/-- The commands that print as a constant. -/
def constantName? (name : String) : Option String :=
  match name with
  | "pi" => some "pi"
  | "infty" => some "inf"
  | _ => none

/-- The commands that a function takes as its argument. -/
def startsArgument (name : String) : Bool :=
  name == "left" || name == "\x7b" || name == "sqrt" || name == "operatorname"
    || isFractionCommand name || (Fn.ofCommand? name).isSome || (constantName? name).isSome

/-- Reads one token without descending. An opening brace becomes an empty group, other openers a
parenthesis, and the closers are left to the run around them. -/
def flatAtom (t : Token) (rest : List Token) : Node × List Token :=
  match t with
  | .char c =>
    if c == '{' then (.group [], rest)
    else if c == '(' || c == '[' then (.text "(", rest)
    else if isNumberChar c then (.number (String.singleton c), rest)
    else if Text.isLetter c then (.word (String.singleton c), rest)
    else (.text (String.singleton c), rest)
  | .command name =>
    if name == "left" then (.text "(", (delimiter rest).2)
    else if name == "\x7b" then (.text "(", rest)
    else (.command name, rest)

/-- A number or word: one character where a single token is wanted, else the whole run. -/
def readRun (single : Bool) (accept : Char → Bool) (c : Char) (rest : List Token) :
    String × List Token :=
  if single then (String.singleton c, rest)
  else
    let (run, after) := takeRun accept rest
    (String.ofList (c :: run), after)

mutual

/-- Siblings up to a stop. `acc` holds those already read, last first. -/
def readSiblings : Nat → Stops → Nat → List Node → List Token → List Node × List Token
  | 0, _, _, acc, ts => (acc.reverse, ts)
  | _ + 1, _, _, acc, [] => (acc.reverse, [])
  | fuel + 1, stops, room, acc, t :: rest =>
    if t.stops stops then (acc.reverse, t :: rest)
    else if t.isBlank then readSiblings fuel stops room acc rest
    else match t with
      -- nobody waits for these closers: a brace says nothing, the others print as a parenthesis
      | .char '}' => readSiblings fuel stops room acc rest
      | .char ')' => readSiblings fuel stops room (.text ")" :: acc) rest
      | .char ']' => readSiblings fuel stops room (.text ")" :: acc) rest
      | .command "right" =>
        readSiblings fuel stops room (.text ")" :: acc) (delimiter rest).2
      | .char '^' =>
        -- the sibling read last becomes the base; at the start of a run there is none
        let (exponent, after) := readAtom fuel stops room true rest
        readSiblings fuel stops room (.superscript acc.head? exponent :: acc.tail) after
      | .char '_' =>
        let (script, after) := readAtom fuel stops room true rest
        readSiblings fuel stops room (.subscript acc.head? script :: acc.tail) after
      | _ =>
        let (node, after) := readAtom fuel stops room false (t :: rest)
        readSiblings fuel stops room (node :: acc) after
termination_by structural fuel => fuel

/-- One operand. `single` asks for a single digit or letter instead of a run, as after `^`. -/
def readAtom : Nat → Stops → Nat → Bool → List Token → Node × List Token
  | 0, _, _, _, ts => (.group [], ts)
  | fuel + 1, stops, room, single, ts =>
    match skipBlanks ts with
    | [] => (.group [], [])
    | t :: rest =>
      -- the operand is missing, and the closer is left to the run around it
      if t.stops stops || t.closer? == some .brace || t.closer? == some .right then
        (.group [], t :: rest)
      else match room with
        -- nested too deeply: the opener alone is an operand, and what it encloses become siblings
        | 0 => flatAtom t rest
        | room + 1 => readNested fuel stops room single t rest
termination_by structural fuel => fuel

/-- An operand that starts with the given token, one level further down. -/
def readNested : Nat → Stops → Nat → Bool → Token → List Token → Node × List Token
  | 0, _, _, _, t, rest => (.group [], t :: rest)
  | fuel + 1, stops, room, single, t, rest =>
    match t with
    | .char c =>
      if c == '{' then
        let (children, after) := readSiblings fuel (.brace :: stops) room [] rest
        (.group children, expect .brace after)
      else if c == '(' then
        let (children, after) := readSiblings fuel (.paren :: stops) room [] rest
        (.delimited "(" ")" children, expect .paren after)
      else if c == '[' then
        let (children, after) := readSiblings fuel (.bracket :: stops) room [] rest
        (.delimited "[" "]" children, expect .bracket after)
      else if isNumberChar c then
        let (value, after) := readRun single isNumberChar c rest
        (.number value, after)
      else if Text.isLetter c then
        let (value, after) := readRun single Text.isLetter c rest
        (.word value, after)
      else (.text (String.singleton c), rest)
    | .command name =>
      if name == "left" then
        let (opener, inside) := delimiter rest
        let (children, after) := readSiblings fuel (.right :: stops) room [] inside
        -- the run has ended at a `\right`, at a closer further out, or with the markup
        match after with
        | [] => (.delimited opener "" children, [])
        | u :: more =>
          if u.closer? == some .right then
            let (closer, final) := delimiter more
            (.delimited opener closer children, final)
          else (.delimited opener "" children, u :: more)
      else if name == "\x7b" then
        let (children, after) := readSiblings fuel (.set :: stops) room [] rest
        (.delimited "\x7b" "\x7d" children, expect .set after)
      else if isFractionCommand name then
        let (numerator, middle) := readAtom fuel stops room true rest
        let (denominator, after) := readAtom fuel stops room true middle
        (.fraction numerator denominator, after)
      else if name == "sqrt" then
        match skipBlanks rest with
        | .char '[' :: inside =>
          -- only a bracket directly behind the command is an index
          let (children, middle) := readSiblings fuel (.bracket :: stops) room [] inside
          let (radicand, after) := readAtom fuel stops room true (expect .bracket middle)
          (.root radicand (some (.group children)), after)
        | body =>
          let (radicand, after) := readAtom fuel stops room true body
          (.root radicand none, after)
      else if name == "operatorname" then
        let (inner, after) := readAtom fuel stops room true rest
        match Fn.ofCommand? inner.plainText with
        | some fn => readFunction fuel stops room fn none none after
        -- a name that is no function stands as a word, without an argument
        | none => (.word inner.plainText, after)
      else match Fn.ofCommand? name with
        | some fn => readFunction fuel stops room fn none none rest
        | none => (.command name, rest)
termination_by structural fuel => fuel

/-- The scripts and then the argument of a function; a script given twice counts the last time. -/
def readFunction : Nat → Stops → Nat → Fn → Option Node → Option Node → List Token →
    Node × List Token
  | 0, _, _, fn, script, power, ts => (.function fn none script power, ts)
  | fuel + 1, stops, room, fn, script, power, ts =>
    match skipBlanks ts with
    | .char '_' :: rest =>
      let (node, after) := readAtom fuel stops room true rest
      readFunction fuel stops room fn (some node) power after
    | .char '^' :: rest =>
      let (node, after) := readAtom fuel stops room true rest
      readFunction fuel stops room fn script (some node) after
    | body =>
      let (argument, after) := readArgument fuel stops room body
      (.function fn argument script power, after)
termination_by structural fuel => fuel

/-- The argument of a function: a bracketed or structured operand, or a run of factors. -/
def readArgument : Nat → Stops → Nat → List Token → Option Node × List Token
  | 0, _, _, ts => (none, ts)
  | _ + 1, _, _, [] => (none, [])
  | fuel + 1, stops, room, t :: rest =>
    if t.stops stops then (none, t :: rest)
    else match t with
      | .command name =>
        if startsArgument name then
          let (node, after) := readAtom fuel stops room false (t :: rest)
          (some node, after)
        -- an operator or a plain symbol leaves the function without an argument
        else (none, t :: rest)
      | .char c =>
        if c == '(' || c == '{' || c == '[' then
          let (node, after) := readAtom fuel stops room false (t :: rest)
          (some node, after)
        else if Text.isAlphanumeric c || c == '.' then
          let (factors, after) := readFactors fuel stops room [] (t :: rest)
          (some (.group factors), after)
        else (none, t :: rest)
termination_by structural fuel => fuel

/-- The factors of an argument without brackets: numbers, words and powers of them. -/
def readFactors : Nat → Stops → Nat → List Node → List Token → List Node × List Token
  | 0, _, _, acc, ts => (acc.reverse, ts)
  | fuel + 1, stops, room, acc, ts =>
    match ts with
    | .char c :: rest =>
      -- a power binds its base, and so belongs to the argument and not to the function
      if c == '^' && !acc.isEmpty then
        let (exponent, after) := readAtom fuel stops room true rest
        readFactors fuel stops room (.superscript acc.head? exponent :: acc.tail) after
      else if Text.isAlphanumeric c || c == '.' then
        let (node, after) := readAtom fuel stops room false ts
        readFactors fuel stops room (node :: acc) after
      else (acc.reverse, ts)
    | _ => (acc.reverse, ts)
termination_by structural fuel => fuel

end

/-- Nested calls that suffice for a number of tokens: between two tokens the readers call each
other at most five deep. -/
def readingFuel (tokens : Nat) : Nat := 6 * tokens + 6

/-- The top-level nodes of a token sequence. -/
def Node.ofTokens (ts : List Token) : List Node :=
  (readSiblings (readingFuel ts.length) [] maxNesting [] ts).1

/-- The top-level nodes of a markup text. -/
def Node.ofMarkup (markup : String) : List Node := Node.ofTokens (Token.ofString markup)

end FormulaDesk.Markup
