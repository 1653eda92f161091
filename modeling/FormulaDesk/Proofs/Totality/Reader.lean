import FormulaDesk.Proofs.Totality.Cursor

/-! # The reader with a cursor

Reading markup by looking at the token at the cursor and moving over it, in loops that call each
other. Every round of a loop and every call costs a unit of fuel, and every step is one that can
fail.
-/

namespace FormulaDesk.Markup

/-- The token that closes a group. -/
def Closer.token : Closer → Token
  | .brace => .char '}'
  | .paren => .char ')'
  | .bracket => .char ']'
  | .right => .command "right"
  | .set => .command "\x7d"

/-! ## Tables -/

def functionTable : List (String × String) :=
  [("sin", "sin"), ("cos", "cos"), ("tan", "tan"), ("sinh", "sinh"), ("cosh", "cosh"),
    ("tanh", "tanh"), ("arcsin", "asin"), ("arccos", "acos"), ("arctan", "atan"), ("exp", "exp"),
    ("ln", "log"), ("log", "log10")]

def reciprocalTable : List (String × String) := [("csc", "sin"), ("sec", "cos"), ("cot", "tan")]

/-- Whether a table has an entry for a name. -/
def lists (table : List (String × String)) (name : String) : Bool := (table.lookup name).isSome

def isFunctionName (name : String) : Bool :=
  lists functionTable name || lists reciprocalTable name

namespace Reader

/-! ## Single loops -/

def skipSpaces : Nat → Reader Unit
  | 0 => StateT.lift unfinished
  | fuel + 1 => do
    match ← peek with
    | none => return ()
    | some t =>
      if t.isBlank then do
        skip
        skipSpaces fuel
      else return ()
termination_by structural fuel => fuel

/-- Moves over a closing token, if it is there. -/
def dropCloser (closer : Closer) : Reader Unit := do
  if (← peek) == some closer.token then skip

def takeDelimiter : Reader String := do
  match ← peek with
  | none => return ""
  | some t => do
    skip
    match t with
    | .command name => return delimiterSymbol name
    | .char c => return if c == '.' then "" else String.singleton c

/-- Moves over `\right` with its delimiter, if it is there. -/
def takeRight : Reader String := do
  if (← peek) == some Closer.right.token then do
    skip
    takeDelimiter
  else return ""

/-- The characters at the cursor that satisfy a test. -/
def collect (accept : Char → Bool) : Nat → Reader (List Char)
  | 0 => StateT.lift unfinished
  | fuel + 1 => do
    match ← peek with
    | some (.char c) =>
      if accept c then do
        skip
        let run ← collect accept fuel
        return c :: run
      else return []
    | _ => return []
termination_by structural fuel => fuel

/-- One character, or the run that starts with it. -/
def collectFrom (single : Bool) (accept : Char → Bool) (c : Char) (fuel : Nat) :
    Reader String :=
  if single then return String.singleton c
  else do
    let run ← collect accept fuel
    return String.ofList (c :: run)

/-- One token without descending. -/
def flatNode : Reader Node := do
  match ← advance with
  | .char c =>
    if c == '{' then return .group []
    else if c == '(' || c == '[' then return .text "("
    else if isNumberChar c then return .number (String.singleton c)
    else if Text.isLetter c then return .word (String.singleton c)
    else return .text (String.singleton c)
  | .command name =>
    if name == "left" then do
      let _ ← takeDelimiter
      return .text "("
    else if name == "\x7b" then return .text "("
    else return .command name

/-- Takes the last node as the base of a script, if there is one. -/
def popBase (acc : List Node) : Reader (Option Node × List Node) :=
  if acc.isEmpty then return (none, acc)
  else do
    let (node, acc) ← popNode acc
    return (some node, acc)

/-! ## Loops that call each other -/

mutual

/-- Siblings up to a stop, after those in `acc`, last first. -/
def siblings (stops : List Token) (acc : List Node) : Nat → Reader (List Node)
  | 0 => StateT.lift unfinished
  | fuel + 1 => do
    match ← peek with
    | none => return acc.reverse
    | some t =>
      if stops.contains t then return acc.reverse
      else if t.isBlank then do
        skip
        siblings stops acc fuel
      else if t == Closer.brace.token then do
        skip
        siblings stops acc fuel
      else if t == Closer.paren.token || t == Closer.bracket.token then do
        skip
        siblings stops (.text ")" :: acc) fuel
      else if t == Closer.right.token then do
        skip
        let _ ← takeDelimiter
        siblings stops (.text ")" :: acc) fuel
      else if t == .char '^' then do
        skip
        let (base, acc) ← popBase acc
        let exponent ← atom stops true fuel
        siblings stops (.superscript base exponent :: acc) fuel
      else if t == .char '_' then do
        skip
        let (base, acc) ← popBase acc
        let script ← atom stops true fuel
        siblings stops (.subscript base script :: acc) fuel
      else do
        let node ← atom stops false fuel
        siblings stops (node :: acc) fuel
termination_by structural fuel => fuel

/-- One operand. -/
def atom (stops : List Token) (single : Bool) : Nat → Reader Node
  | 0 => StateT.lift unfinished
  | fuel + 1 => do
    skipSpaces fuel
    match ← peek with
    | none => return .group []
    | some t =>
      if stops.contains t || t == Closer.brace.token || t == Closer.right.token then
        return .group []
      else do
        let cursor ← get
        if maxNesting ≤ cursor.depth then flatNode
        else do
          enter
          let node ← nested stops single fuel
          leave
          return node
termination_by structural fuel => fuel

/-- An operand one level further down. -/
def nested (stops : List Token) (single : Bool) : Nat → Reader Node
  | 0 => StateT.lift unfinished
  | fuel + 1 => do
    match ← advance with
    | .char c =>
      if c == '{' then do
        let children ← siblings (stops ++ [Closer.brace.token]) [] fuel
        dropCloser .brace
        return .group children
      else if c == '(' then do
        let children ← siblings (stops ++ [Closer.paren.token]) [] fuel
        dropCloser .paren
        return .delimited "(" ")" children
      else if c == '[' then do
        let children ← siblings (stops ++ [Closer.bracket.token]) [] fuel
        dropCloser .bracket
        return .delimited "[" "]" children
      else if isNumberChar c then do
        let value ← collectFrom single isNumberChar c fuel
        return .number value
      else if Text.isLetter c then do
        let value ← collectFrom single Text.isLetter c fuel
        return .word value
      else return .text (String.singleton c)
    | .command name =>
      if name == "left" then do
        let opener ← takeDelimiter
        let children ← siblings (stops ++ [Closer.right.token]) [] fuel
        let closer ← takeRight
        return .delimited opener closer children
      else if name == "\x7b" then do
        let children ← siblings (stops ++ [Closer.set.token]) [] fuel
        dropCloser .set
        return .delimited "\x7b" "\x7d" children
      else if isFractionCommand name then do
        let numerator ← atom stops true fuel
        let denominator ← atom stops true fuel
        return .fraction numerator denominator
      else if name == "sqrt" then do
        skipSpaces fuel
        if (← peek) == some (.char '[') then do
          skip
          let children ← siblings (stops ++ [Closer.bracket.token]) [] fuel
          dropCloser .bracket
          let radicand ← atom stops true fuel
          return .root radicand (some (.group children))
        else do
          let radicand ← atom stops true fuel
          return .root radicand none
      else if name == "operatorname" then do
        let inner ← atom stops true fuel
        if isFunctionName inner.plainText then function stops inner.plainText none none fuel
        else return .word inner.plainText
      else if isFunctionName name then function stops name none none fuel
      else return .command name
termination_by structural fuel => fuel

/-- The scripts and then the argument of a function. -/
def function (stops : List Token) (name : String) (script power : Option Node) :
    Nat → Reader Node
  | 0 => StateT.lift unfinished
  | fuel + 1 => do
    skipSpaces fuel
    let t ← peek
    if t == some (.char '_') then do
      skip
      let node ← atom stops true fuel
      function stops name (some node) power fuel
    else if t == some (.char '^') then do
      skip
      let node ← atom stops true fuel
      function stops name script (some node) fuel
    else do
      let operand ← argument stops fuel
      let fn ← functionNamed name
      return .function fn operand script power
termination_by structural fuel => fuel

def argument (stops : List Token) : Nat → Reader (Option Node)
  | 0 => StateT.lift unfinished
  | fuel + 1 => do
    match ← peek with
    | none => return none
    | some t =>
      if stops.contains t then return none
      else match t with
        | .command name =>
          if startsArgument name then do
            let node ← atom stops false fuel
            return some node
          else return none
        | .char c =>
          if c == '(' || c == '{' || c == '[' then do
            let node ← atom stops false fuel
            return some node
          else if isFactorChar c then do
            let nodes ← factors stops [] fuel
            return some (.group nodes)
          else return none
termination_by structural fuel => fuel

/-- The factors of an argument without brackets, after those in `acc`, last first. -/
def factors (stops : List Token) (acc : List Node) : Nat → Reader (List Node)
  | 0 => StateT.lift unfinished
  | fuel + 1 => do
    match ← peek with
    | some (.char c) =>
      if c == '^' && !acc.isEmpty then do
        skip
        let (base, acc) ← popNode acc
        let exponent ← atom stops true fuel
        factors stops (.superscript (some base) exponent :: acc) fuel
      else if isFactorChar c then do
        let node ← atom stops false fuel
        factors stops (node :: acc) fuel
      else return acc.reverse
    | _ => return acc.reverse
termination_by structural fuel => fuel

end

end Reader

end FormulaDesk.Markup
