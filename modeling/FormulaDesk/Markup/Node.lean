/-!
# Markup trees

A formula is read into a tree of grouping nodes. Leaves carry what was typed; a function node
carries one of fifteen functions, so that no later step has to look a name up.
-/

namespace FormulaDesk.Markup

/-- The functions that markup has a command for. -/
inductive Fn where
  | sin | cos | tan
  | sinh | cosh | tanh
  | arcsin | arccos | arctan
  | exp | ln | log
  | csc | sec | cot
deriving DecidableEq, Repr, Inhabited

namespace Fn

/-- The functions with a name of their own in the evaluable dialect. -/
def direct : List Fn :=
  [.sin, .cos, .tan, .sinh, .cosh, .tanh, .arcsin, .arccos, .arctan, .exp, .ln, .log]

/-- The functions that are written as one divided by another. -/
def reciprocals : List Fn := [.csc, .sec, .cot]

def all : List Fn := direct ++ reciprocals

def command : Fn → String
  | .sin => "sin"
  | .cos => "cos"
  | .tan => "tan"
  | .sinh => "sinh"
  | .cosh => "cosh"
  | .tanh => "tanh"
  | .arcsin => "arcsin"
  | .arccos => "arccos"
  | .arctan => "arctan"
  | .exp => "exp"
  | .ln => "ln"
  | .log => "log"
  | .csc => "csc"
  | .sec => "sec"
  | .cot => "cot"

/-- The name in the evaluable dialect; for a reciprocal, that of the divisor. -/
def callName : Fn → String
  | .arcsin => "asin"
  | .arccos => "acos"
  | .arctan => "atan"
  | .ln => "log"
  | .log => "log10"
  | .csc => "sin"
  | .sec => "cos"
  | .cot => "tan"
  | fn => fn.command

def isReciprocal (fn : Fn) : Bool := reciprocals.contains fn

/-- The name of the inverse, for the functions that take `-1` as a mark of it. -/
def inverseName? : Fn → Option String
  | .sin => some "asin"
  | .cos => some "acos"
  | .tan => some "atan"
  | _ => none

def ofCommand? (name : String) : Option Fn := all.find? (·.command == name)

end Fn

/-- A node of the tree. A missing base, index, argument or script is `none`; a missing group is an
empty one. -/
inductive Node where
  /-- An operator or punctuation character. -/
  | text (value : String)
  | number (value : String)
  /-- A run of letters. -/
  | word (value : String)
  /-- A command without structure of its own. -/
  | command (name : String)
  | group (children : List Node)
  | delimited (opener closer : String) (children : List Node)
  | fraction (numerator denominator : Node)
  | root (radicand : Node) (index : Option Node)
  | superscript (base : Option Node) (exponent : Node)
  | subscript (base : Option Node) (script : Node)
  /-- A function; a subscript carries a base, a superscript a power or the mark of the inverse. -/
  | function (fn : Fn) (argument script power : Option Node)
deriving Repr, Inhabited

namespace Node

mutual

/-- The typed characters of a node without structure; structured nodes have none. -/
def plainText : Node → String
  | .text value => value
  | .number value => value
  | .word value => value
  | .command name => name
  | .group children => plainTexts children
  | .delimited opener closer children => opener ++ plainTexts children ++ closer
  | _ => ""

def plainTexts : List Node → String
  | [] => ""
  | node :: rest => plainText node ++ plainTexts rest

end

/-- The plain text of an optional node. -/
def plainText? : Option Node → String
  | none => ""
  | some node => node.plainText

end Node

end FormulaDesk.Markup
