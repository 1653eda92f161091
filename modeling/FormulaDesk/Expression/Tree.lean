import FormulaDesk.Expression.Literal

/-!
# The structure of an expression

Tokens are read into a tree by the usual precedence: conditionals, `or`, `and`, `not`, comparisons,
`|`, `^`, `&`, shifts, sums, products, signs, powers, and what follows an operand directly. A name
that stands directly before an opening bracket is called. A factorial belongs to the number, name,
bracket or call that ends directly before it.
-/

namespace FormulaDesk.Expression

inductive Grouping where
  | tuple
  | list
  | set
  | table
deriving DecidableEq, Repr, Inhabited

inductive Sign where
  | plus
  | minus
  | complement
deriving DecidableEq, Repr, Inhabited

inductive Operator where
  | add
  | sub
  | mul
  | div
  | floorDiv
  | mod
  | matMul
  | pow
  | shiftLeft
  | shiftRight
  | bitAnd
  | bitOr
  | bitXor
deriving DecidableEq, Repr, Inhabited

inductive Comparison where
  | lt
  | le
  | gt
  | ge
  | eq
  | ne
  | is
  | isNot
  | member
  | notMember
deriving DecidableEq, Repr, Inhabited

inductive Tree where
  | number (a : Symbolic.Amount)
  /-- A name; `called` if an opening bracket follows. -/
  | name (s : String) (called : Bool)
  | text (s : String)
  | truth (b : Bool)
  | nothing
  /-- Three points. -/
  | gap
  | series (g : Grouping) (items : List Tree)
  | call (f : Tree) (args : List Tree)
  | attribute (t : Tree) (name : String)
  | item (t index : Tree)
  | factorial (double : Bool) (t : Tree)
  | signed (s : Sign) (t : Tree)
  | binary (op : Operator) (left right : Tree)
  | comparison (first : Tree) (rest : List (Comparison × Tree))
  | negation (t : Tree)
  | both (left right : Tree)
  | either (left right : Tree)
  | choice (condition yes no : Tree)
  /-- A function that is written out. -/
  | mapping (body : Tree)
deriving Inhabited, Repr

namespace Tree

/-! ## Words and marks -/

/-- The words that are no names. -/
def keywords : List String :=
  ["False", "None", "True", "and", "as", "assert", "async", "await", "break", "class", "continue",
    "def", "del", "elif", "else", "except", "finally", "for", "from", "global", "if", "import",
    "in", "is", "lambda", "nonlocal", "not", "or", "pass", "raise", "return", "try", "while",
    "with", "yield"]

/-- The operators of two operands by how tightly they bind, loosest first. -/
def operators : Nat → String → Option Operator
  | 0, "|" => some .bitOr
  | 1, "^" => some .bitXor
  | 2, "&" => some .bitAnd
  | 3, "<<" => some .shiftLeft
  | 3, ">>" => some .shiftRight
  | 4, "+" => some .add
  | 4, "-" => some .sub
  | 5, "*" => some .mul
  | 5, "/" => some .div
  | 5, "//" => some .floorDiv
  | 5, "%" => some .mod
  | 5, "@" => some .matMul
  | _, _ => none

/-- The level below all operators of two operands. -/
def tightest : Nat := 6

def sign? : String → Option Sign
  | "+" => some .plus
  | "-" => some .minus
  | "~" => some .complement
  | _ => none

/-- The comparison at the front, and what follows it. -/
def comparison? : List Token → Option (Comparison × List Token)
  | .mark "<" :: rest => some (.lt, rest)
  | .mark "<=" :: rest => some (.le, rest)
  | .mark ">" :: rest => some (.gt, rest)
  | .mark ">=" :: rest => some (.ge, rest)
  | .mark "==" :: rest => some (.eq, rest)
  | .mark "!=" :: rest => some (.ne, rest)
  | .name "is" :: .name "not" :: rest => some (.isNot, rest)
  | .name "is" :: rest => some (.is, rest)
  | .name "in" :: rest => some (.member, rest)
  | .name "not" :: .name "in" :: rest => some (.notMember, rest)
  | _ => none

/-! ## What a factorial may follow -/

/-- What ends directly before a place. -/
inductive Ending where
  | number
  | name
  /-- A bracket, or a call of a name that is known. -/
  | bracket
  | other
deriving DecidableEq, Repr, Inhabited

/-- A tree with what it ends in. -/
structure Operand where
  tree : Tree
  ending : Ending
deriving Inhabited

/-- Something that was read, and the tokens that follow it. -/
abbrev Reading (α : Type) := α × List Token

/-- Texts side by side are one text. -/
def joinTexts : (sofar : String) → List Token → String × List Token
  | sofar, .text s :: rest => joinTexts (sofar ++ s) rest
  | sofar, rest => (sofar, rest)

/-- A number, with the imaginary unit as a factor where the number has it. -/
def numberTree? (digits : List Char) : Option Tree :=
  let (isImaginary, digits) := Literal.splitUnit digits
  if isImaginary then none else (Literal.amount? digits).map .number

/-- Writes out the imaginary unit of numbers as a factor. -/
def spellUnits : List Token → List Token
  | .number digits :: rest =>
    match Literal.splitUnit digits with
    | (true, real) => .number real :: .mark "*" :: .name "I" :: spellUnits rest
    | (false, real) => .number real :: spellUnits rest
  | t :: rest => t :: spellUnits rest
  | [] => []

/-- A name, or a word that stands for a value. -/
def word? (s : String) (rest : List Token) : Option Operand :=
  match s with
  | "True" => some ⟨.truth true, .other⟩
  | "False" => some ⟨.truth false, .other⟩
  | "None" => some ⟨.nothing, .other⟩
  | s =>
    if keywords.contains s then none
    else some ⟨.name s (rest.head? == some (.mark "(")), .name⟩

/-- Whether a call of the tree ends like a bracket; a name that nobody knows does not. -/
def endingOfCall (known : String → Bool) : Tree → Ending
  | .name s _ => if known s then .bracket else .other
  | _ => .other

/-- The names of a parameter list, and what follows its colon. -/
def parameters? : List Token → Option (Reading (List String))
  | .mark ":" :: rest => some ([], rest)
  | .name s :: .mark "," :: rest => (parameters? rest).map fun (names, rest) => (s :: names, rest)
  | .name s :: .mark ":" :: rest => some ([s], rest)
  | _ => none

variable (known : String → Bool)

mutual

/-- A conditional, or what binds tighter. -/
def readChoice : Nat → List Token → Option (Reading Tree)
  | 0, _ => none
  | fuel + 1, .name "lambda" :: rest => do
    let (names, rest) ← parameters? rest
    if names.all known then
      let (body, rest) ← readChoice fuel rest
      return (.mapping body, rest)
    else none
  | fuel + 1, tokens => do
    let (yes, rest) ← readEither fuel tokens
    match rest with
    | .name "if" :: rest =>
      let (condition, rest) ← readEither fuel rest
      match rest with
      | .name "else" :: rest =>
        let (no, rest) ← readChoice fuel rest
        return (.choice condition yes no, rest)
      | _ => none
    | rest => return (yes, rest)

def readEither : Nat → List Token → Option (Reading Tree)
  | 0, _ => none
  | fuel + 1, tokens => do
    let (left, rest) ← readBoth fuel tokens
    match rest with
    | .name "or" :: rest =>
      let (right, rest) ← readEither fuel rest
      return (.either left right, rest)
    | rest => return (left, rest)

def readBoth : Nat → List Token → Option (Reading Tree)
  | 0, _ => none
  | fuel + 1, tokens => do
    let (left, rest) ← readNegation fuel tokens
    match rest with
    | .name "and" :: rest =>
      let (right, rest) ← readBoth fuel rest
      return (.both left right, rest)
    | rest => return (left, rest)

def readNegation : Nat → List Token → Option (Reading Tree)
  | 0, _ => none
  | fuel + 1, .name "not" :: rest => do
    let (t, rest) ← readNegation fuel rest
    return (.negation t, rest)
  | fuel + 1, tokens => do
    let (first, rest) ← readBinary fuel 0 tokens
    match comparison? rest with
    | none => return (first, rest)
    | some _ =>
      let (more, rest) ← readComparisons fuel rest
      return (.comparison first more, rest)

def readComparisons : Nat → List Token → Option (Reading (List (Comparison × Tree)))
  | 0, _ => none
  | fuel + 1, tokens =>
    match comparison? tokens with
    | none => some ([], tokens)
    | some (c, rest) => do
      let (t, rest) ← readBinary fuel 0 rest
      let (more, rest) ← readComparisons fuel rest
      return ((c, t) :: more, rest)

/-- Operands joined by the operators of one level. -/
def readBinary : Nat → Nat → List Token → Option (Reading Tree)
  | 0, _, _ => none
  | fuel + 1, level, tokens => do
    let (left, rest) ← readTighter fuel level tokens
    readJoined fuel level left rest

/-- What stands between the operators of one level. -/
def readTighter : Nat → Nat → List Token → Option (Reading Tree)
  | 0, _, _ => none
  | fuel + 1, level, tokens =>
    if level + 1 < tightest then readBinary fuel (level + 1) tokens else readSigned fuel tokens

/-- Joins what follows to the left operand. -/
def readJoined : Nat → Nat → Tree → List Token → Option (Reading Tree)
  | 0, _, _, _ => none
  | fuel + 1, level, left, tokens =>
    match tokens with
    | .mark m :: rest =>
      match operators level m with
      | some op => do
        let (right, rest) ← readTighter fuel level rest
        readJoined fuel level (.binary op left right) rest
      | none => some (left, tokens)
    | _ => some (left, tokens)

/-- A power, with signs before it. -/
def readSigned : Nat → List Token → Option (Reading Tree)
  | 0, _ => none
  | fuel + 1, tokens =>
    match tokens with
    | .mark m :: rest =>
      match sign? m with
      | some s => do
        let (t, rest) ← readSigned fuel rest
        return (.signed s t, rest)
      | none => readPower fuel tokens
    | _ => readPower fuel tokens

def readPower : Nat → List Token → Option (Reading Tree)
  | 0, _ => none
  | fuel + 1, tokens => do
    let (operand, rest) ← readAtom fuel tokens
    let (base, rest) ← readTrailer fuel operand rest
    match rest with
    | .mark "**" :: rest =>
      -- a sign binds tighter than a power on its right, but not on its left
      let (exponent, rest) ← readSigned fuel rest
      return (.binary .pow base exponent, rest)
    | rest => return (base, rest)

/-- Calls, items, attributes and factorials after an operand. -/
def readTrailer : Nat → Operand → List Token → Option (Reading Tree)
  | 0, _, _ => none
  | fuel + 1, operand, tokens =>
    match tokens with
    | .mark "(" :: rest => do
      let (args, rest) ← readItems fuel ")" rest
      readTrailer fuel ⟨.call operand.tree args.1, endingOfCall known operand.tree⟩ rest
    | .mark "[" :: rest => do
      let (index, rest) ← readItems fuel "]" rest
      match index with
      | ([], _) => none
      | ([t], false) => readTrailer fuel ⟨.item operand.tree t, .other⟩ rest
      | (ts, _) => readTrailer fuel ⟨.item operand.tree (.series .tuple ts), .other⟩ rest
    | .mark "." :: .name s :: rest =>
      if keywords.contains s then none
      else readTrailer fuel ⟨.attribute operand.tree s, .other⟩ rest
    | .factorial double spaced :: rest =>
      -- a blank separates a factorial from everything but a name that is known
      let isClosed := match operand.ending, operand.tree with
        | .name, .name s _ => !spaced || known s
        | .number, _ => !spaced
        | .bracket, _ => !spaced
        | _, _ => false
      if isClosed then readTrailer fuel ⟨.factorial double operand.tree, .other⟩ rest else none
    | _ => some (operand.tree, tokens)

def readAtom : Nat → List Token → Option (Reading Operand)
  | 0, _ => none
  | fuel + 1, tokens =>
    match tokens with
    | .number digits :: .mark "[" :: .number more :: .mark "]" :: rest =>
      -- digits in brackets behind a decimal repeat without end
      if Literal.isPlainDecimal digits then
        (Literal.repeating? digits more).map fun q => (⟨.number (.exact q), .bracket⟩, rest)
      else (numberTree? digits).map fun t => (⟨t, .number⟩, tokens.drop 1)
    | .number digits :: rest => (numberTree? digits).map fun t => (⟨t, .number⟩, rest)
    | .name s :: rest => (word? s rest).map fun o => (o, rest)
    | .text s :: rest =>
      let (s, rest) := joinTexts s rest
      some (⟨.text s, .other⟩, rest)
    | .mark "..." :: rest => some (⟨.gap, .other⟩, rest)
    | .mark "(" :: rest => do
      let (items, rest) ← readItems fuel ")" rest
      match items with
      | ([t], false) => return (⟨t, .bracket⟩, rest)
      | (ts, _) => return (⟨.series .tuple ts, .bracket⟩, rest)
    | .mark "[" :: rest => do
      let (items, rest) ← readItems fuel "]" rest
      return (⟨.series .list items.1, .other⟩, rest)
    | .mark "\x7b" :: .mark "\x7d" :: rest => some (⟨.series .table [], .other⟩, rest)
    | .mark "\x7b" :: rest => do
      -- a colon behind the first item tells a table from a set
      let (first, after) ← readChoice fuel rest
      match after with
      | .mark ":" :: after =>
        let (value, after) ← readChoice fuel after
        let (more, after) ← readEntries fuel after
        return (⟨.series .table (first :: value :: more), .other⟩, after)
      | _ =>
        let (items, rest) ← readItems fuel "\x7d" rest
        return (⟨.series .set items.1, .other⟩, rest)
    | _ => none

/-- Items between commas up to a closing bracket, and whether a comma stands among them. -/
def readItems : Nat → String → List Token → Option (Reading (List Tree × Bool))
  | 0, _, _ => none
  | fuel + 1, closer, tokens =>
    match tokens with
    | .mark m :: rest =>
      if m = closer then some (([], false), rest) else readItem fuel closer tokens
    | _ => readItem fuel closer tokens

def readItem : Nat → String → List Token → Option (Reading (List Tree × Bool))
  | 0, _, _ => none
  | fuel + 1, closer, tokens => do
    let (t, rest) ← readChoice fuel tokens
    match rest with
    | .mark "," :: rest =>
      let (more, rest) ← readItems fuel closer rest
      return ((t :: more.1, true), rest)
    | .mark m :: rest => if m = closer then return (([t], false), rest) else none
    | _ => none

/-- The further keys and values of a table, one after the other. -/
def readEntries : Nat → List Token → Option (Reading (List Tree))
  | 0, _ => none
  | fuel + 1, tokens =>
    match tokens with
    | .mark "\x7d" :: rest => some ([], rest)
    | .mark "," :: .mark "\x7d" :: rest => some ([], rest)
    | .mark "," :: rest => do
      let (key, rest) ← readChoice fuel rest
      match rest with
      | .mark ":" :: rest =>
        let (value, rest) ← readChoice fuel rest
        let (more, rest) ← readEntries fuel rest
        return (key :: value :: more, rest)
      | _ => none
    | _ => none

end

/-- The terms of a function that is written out at the very start take part in it by position: its
parameters become one bracket, its body the next argument. -/
def spellMapping : List Token → Option (List Token)
  | .name "lambda" :: rest =>
    let head := rest.takeWhile (· != .mark ":")
    let body := (rest.dropWhile (· != .mark ":")).drop 1
    if rest.isEmpty || head.contains (.mark "*") || head.contains (.mark "**") then none
    else if !rest.contains (.mark ":") then none
    else
      some ([.name "Lambda", .mark "(", .mark "("] ++ head ++ [.mark ")", .mark ","]
        ++ body.map (fun t => if t == .mark ":" then .mark "," else t) ++ [.mark ")"])
  | tokens => some tokens

/-- Tokens as a tree. Commas outside brackets make a tuple. -/
def ofTokens? (tokens : List Token) : Option Tree := do
  let tokens := spellUnits (← spellMapping tokens)
  let fuel := 24 * tokens.length + 24
  -- read like the inside of a bracket, where commas make a tuple
  let (items, rest) ← readItem known fuel ")" (tokens ++ [.mark ")"])
  if !rest.isEmpty then none
  else match items with
    | ([t], false) => return t
    | (ts, _) => return .series .tuple ts

/-- The tree of an expression, given the names that are known. -/
def ofString? (expression : String) : Option Tree :=
  (Token.ofString? expression).bind (ofTokens? known)

end Tree

end FormulaDesk.Expression
