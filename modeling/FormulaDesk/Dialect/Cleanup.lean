import FormulaDesk.Dialect.Printer

/-!
# Clean-up passes

Flat passes over printed text. White space is dropped, a star between a function name and its
parenthesis is dropped, and a digit followed by an ASCII letter becomes a product. A name counts
only as a whole run of word characters. The pass from the evaluable to the graphing dialect works
on any text.
-/

namespace FormulaDesk.Dialect

/-- Removes white space. -/
def dropBlanks (cs : List Char) : List Char := cs.filter fun c => !Text.isBlank c

def isCallName (cs : List Char) : Bool := callNames.contains (String.ofList cs)

/-- Drops the star in `name*(` for every function name. `run` holds the word characters that stand
directly before, last first. -/
def joinCalls : (run : List Char) → List Char → List Char
  | _, [] => []
  | run, c :: cs =>
    if Text.isWord c then c :: joinCalls (c :: run) cs
    -- the whole run has to be the name: `xsin*(` keeps its star
    else if c == '*' && cs.head? == some '(' && isCallName run.reverse then joinCalls [] cs
    else c :: joinCalls [] cs

/-- Puts a star between a decimal digit and an ASCII letter. -/
def splitFactors : List Char → List Char
  | [] => []
  | c :: cs =>
    if Text.isDecimal c && cs.head?.any Text.isAsciiLetter then c :: '*' :: splitFactors cs
    else c :: splitFactors cs

/-- Drops a star before an opening parenthesis. -/
def dropStars : List Char → List Char
  | [] => []
  | c :: cs => if c == '*' && cs.head? == some '(' then dropStars cs else c :: dropStars cs

/-- The passes that end every conversion from markup. -/
def tidy (cs : List Char) : List Char := splitFactors (joinCalls [] (dropBlanks cs))

/-- The passes for a dialect; in the graphing dialect a parenthesis needs no star before it. -/
def finish (d : Dialect) (s : String) : String :=
  let tidied := tidy s.toList
  String.ofList (if d.starless then dropStars tidied else tidied)

/-! ## From the evaluable to the graphing dialect -/

/-- Two stars become a caret. -/
def caretPowers : List Char → List Char
  | '*' :: '*' :: cs => '^' :: caretPowers cs
  | c :: cs => c :: caretPowers cs
  | [] => []

/-- The prefixes that mark where a function comes from. -/
def namespaces : List String := ["math", "numpy", "np"]

/-- Drops a namespace with its point. `run` holds the word characters that stand directly before,
last first. -/
def dropNamespaces : (run : List Char) → List Char → List Char
  | run, [] => run.reverse
  | run, c :: cs =>
    if Text.isWord c then dropNamespaces (c :: run) cs
    else if c == '.' && namespaces.contains (String.ofList run.reverse) then dropNamespaces [] cs
    -- the run is written only now, when no point can drop it any more
    else run.reverse ++ c :: dropNamespaces [] cs

def joinsBefore (c : Char) : Bool := Text.isAsciiLetter c || c == '_'

def joinsAfter (c : Char) : Bool := joinsBefore c || Text.isAsciiDigit c

/-- Writes the word `pi` as the Greek letter. `joined` says whether the character before it belongs
to the same word. -/
def greekPi : (joined : Bool) → List Char → List Char
  | _, [] => []
  | joined, 'p' :: 'i' :: cs =>
    if !joined && !cs.head?.any joinsAfter then 'π' :: greekPi true cs
    else 'p' :: greekPi true ('i' :: cs)
  | _, c :: cs => c :: greekPi (joinsBefore c) cs

/-- An evaluable expression in the graphing dialect. -/
def toGraphing (expression : String) : String :=
  -- powers first: their two stars are no product
  String.ofList (greekPi false (dropNamespaces [] (dropStars (caretPowers expression.toList))))

/-- An expression without its namespace prefixes. -/
def withoutNamespaces (expression : String) : String :=
  String.ofList (dropNamespaces [] expression.toList)

/-! ## Conversion -/

/-- Markup in a dialect. -/
def convert (d : Dialect) (markup : String) : String := d.finish (d.print (Markup.Node.ofMarkup markup))

end FormulaDesk.Dialect
