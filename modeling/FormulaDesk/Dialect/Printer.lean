import FormulaDesk.Markup.Node
import FormulaDesk.Markup.Reading
import FormulaDesk.Text.CharClass

/-!
# Printing a tree in a dialect

The evaluable dialect goes to the solver, the graphing dialect to the plotting widget. They differ
in the mark of a power and in two constants. Two operands side by side are a product.
-/

namespace FormulaDesk

/-- What sets one expression dialect apart. -/
structure Dialect where
  power : String
  euler : String
  pi : String
  /-- Whether a product with a parenthesis is written without its star. -/
  starless : Bool
deriving DecidableEq, Repr

namespace Dialect

open Markup

def evaluable : Dialect := ⟨"**", "math.e", "pi", false⟩

def graphing : Dialect := ⟨"^", "e", "π", true⟩

/-- The names that the evaluator calls as functions. -/
def callNames : List String :=
  ["sin", "cos", "tan", "asin", "acos", "atan", "sinh", "cosh", "tanh", "sqrt", "log", "log10",
    "exp", "pow", "abs"]

/-- The operator that a command stands for. -/
def operator? (name : String) : Option String :=
  match name with
  | "cdot" => some "*"
  | "times" => some "*"
  | "div" => some "/"
  | _ => none

/-- The commands that only space a formula out. -/
def spacingCommands : List String := [" ", "!", ",", ":", ";", "qquad", "quad"]

def isSpacing (name : String) : Bool := spacingCommands.contains name

/-- Commands that are plain symbols are operands; operators, spacing and stray delimiters are
not. -/
def isOperandCommand (name : String) : Bool :=
  !((operator? name).isSome || isSpacing name || name == "left" || name == "right"
    || name == "\x7d" || name == "|")

def isOperand : Node → Bool
  | .text _ => false
  | .command name => isOperandCommand name
  | .group children => !children.isEmpty
  | .superscript base _ => base.isSome
  | .subscript base _ => base.isSome
  | _ => true

/-- Whether two neighbours mean a product. A function without an argument takes what follows, and a
function name typed as letters takes a bracketed operand. -/
def juxtaposed (previous node : Node) : Bool :=
  isOperand previous && isOperand node &&
    match previous with
    | .function _ none _ _ => false
    | .word value =>
      if callNames.contains value then
        match node with
        | .delimited .. => false
        | _ => true
      else true
    | _ => true

/-- Whether an index needs no parentheses: a number or a word, inside any number of braces. -/
def isSimple : Node → Bool
  | .number _ => true
  | .word _ => true
  | .group [child] => isSimple child
  | _ => false

def commandText (d : Dialect) (name : String) : String :=
  match operator? name, name with
  | some op, _ => op
  | none, "pi" => d.pi
  | none, _ =>
    match constantName? name with
    | some constant => constant
    | none =>
      if isSpacing name || name == "left" || name == "right" then ""
      else if name == "\x7d" then ")"
      else name

def inParens (s : String) : String := "(" ++ s ++ ")"

/-- The script of a power: a group keeps its parentheses. -/
def scriptText (script : Node) (printed : String) : String :=
  match script with
  | .group _ => inParens printed
  | _ => printed

/-- The parentheses of a delimited operand; bars are the absolute value. -/
def enclosed (opener inner : String) : String :=
  if opener == "|" then "abs(" ++ inner ++ ")" else inParens inner

/-- A quotient. -/
def fractionText (numerator denominator : String) : String :=
  inParens numerator ++ "/" ++ inParens denominator

/-- A root: the square root, or a power with one divided by the index. -/
def rootText (radicand : String) (index : Option (Node × String)) : String :=
  match index with
  | none => "sqrt" ++ inParens radicand
  | some (node, printed) =>
    "pow(" ++ radicand ++ ", 1/" ++ (if isSimple node then printed else inParens printed) ++ ")"

/-- A power. A power of the letter `e` is the exponential; a quotient as the base keeps
parentheses. -/
def powerText (d : Dialect) (base : Option (Node × String)) (exponent : Node) (printed : String) :
    String :=
  match base with
  | some (.word "e", _) => "exp" ++ inParens printed
  | some (.fraction .., base) => inParens base ++ d.power ++ scriptText exponent printed
  | some (_, base) => base ++ d.power ++ scriptText exponent printed
  | none => d.power ++ scriptText exponent printed

/-- The argument of a call: its own parentheses are those of the call. -/
def argumentText (argument : Node) (inner printed : String) : String :=
  match argument with
  | .delimited opener _ _ => if opener == "|" then printed else inner
  | _ => printed

/-- Whether a superscript marks the inverse of a function that has one. -/
def marksInverse (fn : Fn) (power : Option Node) : Bool :=
  fn.inverseName?.isSome && Node.plainText? power == "-1"

/-- The name under which a function is called. -/
def calledName (fn : Fn) (power : Option Node) : String :=
  if fn.isReciprocal then "1/" ++ fn.callName
  else match fn.inverseName? with
    | some inverse => if marksInverse fn power then inverse else fn.callName
    | none => fn.callName

/-- Whether a logarithm has a base to print: one that is not empty and not the literal ten. -/
def hasLogBase (fn : Fn) (script : Option Node) : Bool :=
  fn == .log && script.isSome &&
    let base := String.ofList (Text.stripBlank (Node.plainText? script).toList)
    !base.isEmpty && base != "10"

/-- A call, from the printed argument, logarithm base and power. -/
def callText (d : Dialect) (fn : Fn) (argument : Option String) (script power : Option Node)
    (base printedPower : String) : String :=
  let withBase := hasLogBase fn script
  let name := if withBase then "log" else calledName fn power
  let call := match argument with
    | none => name
    | some argument =>
      -- a reciprocal is a quotient, which a power around it must not take apart
      let call := name ++ inParens (if withBase then argument ++ "," ++ base else argument)
      if fn.isReciprocal then inParens call else call
  match power with
  | none => call
  | some script =>
    -- the superscript is spent on the name of the inverse
    if marksInverse fn power then call
    else call ++ d.power ++ scriptText script printedPower

mutual

/-- A node in the dialect, before the clean-up. -/
def printNode (d : Dialect) : Node → String
  | .text value => value
  | .number value => value
  | .word value => if value == "e" then d.euler else value
  | .command name => d.commandText name
  | .group children => printSiblings d none children
  | .delimited opener _ children => enclosed opener (printSiblings d none children)
  | .fraction numerator denominator =>
    fractionText (printNode d numerator) (printNode d denominator)
  | .root radicand none => rootText (printNode d radicand) none
  | .root radicand (some index) => rootText (printNode d radicand) (some (index, printNode d index))
  | .superscript none exponent => d.powerText none exponent (printNode d exponent)
  | .superscript (some base) exponent =>
    d.powerText (some (base, printNode d base)) exponent (printNode d exponent)
  -- an index belongs to a name, so its plain text is kept and nothing in it is converted
  | .subscript base script => printOption d base ++ "_" ++ script.plainText
  | .function fn argument script power =>
    d.callText fn (printArgument d argument) script power (printOption d script)
      (printOption d power)

/-- Siblings from left to right, given the one before them; products become explicit. -/
def printSiblings (d : Dialect) (previous : Option Node) : List Node → String
  | [] => ""
  | node :: rest =>
    (if previous.any (juxtaposed · node) then "*" else "") ++ printNode d node
      ++ printSiblings d (some node) rest

def printOption (d : Dialect) : Option Node → String
  | none => ""
  | some node => printNode d node

/-- The argument of a function, without the parentheses of its own. -/
def printArgument (d : Dialect) : Option Node → Option String
  | none => none
  | some (.delimited opener closer children) =>
    let inner := printSiblings d none children
    some (argumentText (.delimited opener closer children) inner (enclosed opener inner))
  | some node => some (printNode d node)

end

/-- Top-level nodes in the dialect, before the clean-up. -/
def print (d : Dialect) (nodes : List Node) : String := printSiblings d none nodes

end Dialect

end FormulaDesk
