import FormulaDesk.Markup.Reading

/-! # The rules of reading

What the markup readers do, as a relation: one rule for each way a reader can go on from the tokens
in front of it. The rules have no fuel, so an induction on a derivation is an induction on the
reading itself.

The parameter `flat` says whether the nesting limit may be met. With `flat := True` there is a rule
for every situation and the relation is the graph of the readers; with `flat := False` the one rule
for tokens below the limit is missing, so a derivation is a reading that never reaches it.
-/

namespace FormulaDesk.Markup

/-! ## What the rules ask about a token -/

/-- Whether a token that is no stop starts an operand among siblings. -/
def Token.startsOperand : Token → Bool
  | .char '}' => false
  | .char ')' => false
  | .char ']' => false
  | .command "right" => false
  | .char '^' => false
  | .char '_' => false
  | _ => true

/-- Whether an operand is missing because this token stands in its place. -/
def Token.endsOperand (stops : Stops) (t : Token) : Bool :=
  t.stops stops || t.closer? == some .brace || t.closer? == some .right

/-- Whether a function takes the operand at this token as its argument. -/
def Token.startsBracketed : Token → Bool
  | .command name => startsArgument name
  | .char c => c == '(' || c == '{' || c == '['

/-- The characters of an argument without brackets. -/
def isFactorChar (c : Char) : Bool := Text.isAlphanumeric c || c == '.'

/-- Whether an argument without brackets starts at this token. -/
def Token.startsFactors : Token → Bool
  | .char c => isFactorChar c
  | .command _ => false

/-- The commands that have structure of their own, functions aside. -/
def isStructured (name : String) : Bool :=
  name == "left" || name == "\x7b" || isFractionCommand name || name == "sqrt"
    || name == "operatorname"

/-- The closing delimiter of a `\left` group, where `\right` may be missing. -/
def closeDelimited : List Token → String × List Token
  | [] => ("", [])
  | t :: rest => if t.closer? == some .right then delimiter rest else ("", t :: rest)

/-! ## The rules -/

mutual

/-- Siblings up to a stop, after those in `acc`, last first. -/
inductive ReadsSiblings (flat : Prop) :
    Stops → Nat → List Node → List Token → List Node → List Token → Prop
  | finish {stops room acc} : ReadsSiblings flat stops room acc [] acc.reverse []
  | stop {stops room acc t ts} (hstop : t.stops stops = true) :
      ReadsSiblings flat stops room acc (t :: ts) acc.reverse (t :: ts)
  | blank {stops room acc t ts nodes rest} (hstop : t.stops stops = false)
      (hblank : t.isBlank = true) (h : ReadsSiblings flat stops room acc ts nodes rest) :
      ReadsSiblings flat stops room acc (t :: ts) nodes rest
  | strayBrace {stops room acc ts nodes rest} (hstop : (Token.char '}').stops stops = false)
      (h : ReadsSiblings flat stops room acc ts nodes rest) :
      ReadsSiblings flat stops room acc (.char '}' :: ts) nodes rest
  | strayParen {stops room acc ts nodes rest} (hstop : (Token.char ')').stops stops = false)
      (h : ReadsSiblings flat stops room (.text ")" :: acc) ts nodes rest) :
      ReadsSiblings flat stops room acc (.char ')' :: ts) nodes rest
  | strayBracket {stops room acc ts nodes rest} (hstop : (Token.char ']').stops stops = false)
      (h : ReadsSiblings flat stops room (.text ")" :: acc) ts nodes rest) :
      ReadsSiblings flat stops room acc (.char ']' :: ts) nodes rest
  | strayRight {stops room acc ts nodes rest}
      (hstop : (Token.command "right").stops stops = false)
      (h : ReadsSiblings flat stops room (.text ")" :: acc) (delimiter ts).2 nodes rest) :
      ReadsSiblings flat stops room acc (.command "right" :: ts) nodes rest
  | power {stops room acc ts exponent middle nodes rest}
      (hexp : ReadsAtom flat stops room true ts exponent middle)
      (h : ReadsSiblings flat stops room (.superscript acc.head? exponent :: acc.tail) middle
        nodes rest) :
      ReadsSiblings flat stops room acc (.char '^' :: ts) nodes rest
  | script {stops room acc ts script middle nodes rest}
      (hscript : ReadsAtom flat stops room true ts script middle)
      (h : ReadsSiblings flat stops room (.subscript acc.head? script :: acc.tail) middle
        nodes rest) :
      ReadsSiblings flat stops room acc (.char '_' :: ts) nodes rest
  | operand {stops room acc t ts node middle nodes rest} (hstop : t.stops stops = false)
      (hblank : t.isBlank = false) (hstart : t.startsOperand = true)
      (hnode : ReadsAtom flat stops room false (t :: ts) node middle)
      (h : ReadsSiblings flat stops room (node :: acc) middle nodes rest) :
      ReadsSiblings flat stops room acc (t :: ts) nodes rest

/-- One operand; `single` asks for one digit or letter instead of a run. -/
inductive ReadsAtom (flat : Prop) :
    Stops → Nat → Bool → List Token → Node → List Token → Prop
  | missing {stops room single ts} (hskip : skipBlanks ts = []) :
      ReadsAtom flat stops room single ts (.group []) []
  | ended {stops room single ts t rest} (hskip : skipBlanks ts = t :: rest)
      (hend : t.endsOperand stops = true) :
      ReadsAtom flat stops room single ts (.group []) (t :: rest)
  | limit {stops single ts t rest} (hflat : flat) (hskip : skipBlanks ts = t :: rest)
      (hend : t.endsOperand stops = false) :
      ReadsAtom flat stops 0 single ts (flatAtom t rest).1 (flatAtom t rest).2
  | nested {stops room single ts t rest node after} (hskip : skipBlanks ts = t :: rest)
      (hend : t.endsOperand stops = false)
      (h : ReadsNested flat stops room single t rest node after) :
      ReadsAtom flat stops (room + 1) single ts node after

/-- An operand that starts with the given token, one level further down. -/
inductive ReadsNested (flat : Prop) :
    Stops → Nat → Bool → Token → List Token → Node → List Token → Prop
  | group {stops room single ts nodes after}
      (h : ReadsSiblings flat (.brace :: stops) room [] ts nodes after) :
      ReadsNested flat stops room single (.char '{') ts (.group nodes) (expect .brace after)
  | paren {stops room single ts nodes after}
      (h : ReadsSiblings flat (.paren :: stops) room [] ts nodes after) :
      ReadsNested flat stops room single (.char '(') ts (.delimited "(" ")" nodes)
        (expect .paren after)
  | bracket {stops room single ts nodes after}
      (h : ReadsSiblings flat (.bracket :: stops) room [] ts nodes after) :
      ReadsNested flat stops room single (.char '[') ts (.delimited "[" "]" nodes)
        (expect .bracket after)
  | number {stops room single c ts} (hnum : isNumberChar c = true) :
      ReadsNested flat stops room single (.char c) ts
        (.number (readRun single isNumberChar c ts).1) (readRun single isNumberChar c ts).2
  | word {stops room single c ts} (hnum : isNumberChar c = false)
      (hletter : Text.isLetter c = true) :
      ReadsNested flat stops room single (.char c) ts
        (.word (readRun single Text.isLetter c ts).1) (readRun single Text.isLetter c ts).2
  | text {stops room single c ts} (hopen : c ≠ '{' ∧ c ≠ '(' ∧ c ≠ '[')
      (hnum : isNumberChar c = false) (hletter : Text.isLetter c = false) :
      ReadsNested flat stops room single (.char c) ts (.text (String.singleton c)) ts
  | delimited {stops room single ts nodes after}
      (h : ReadsSiblings flat (.right :: stops) room [] (delimiter ts).2 nodes after) :
      ReadsNested flat stops room single (.command "left") ts
        (.delimited (delimiter ts).1 (closeDelimited after).1 nodes) (closeDelimited after).2
  | set {stops room single ts nodes after}
      (h : ReadsSiblings flat (.set :: stops) room [] ts nodes after) :
      ReadsNested flat stops room single (.command "\x7b") ts (.delimited "\x7b" "\x7d" nodes)
        (expect .set after)
  | fraction {stops room single name ts numerator middle denominator after}
      (hname : isFractionCommand name = true)
      (hnum : ReadsAtom flat stops room true ts numerator middle)
      (hden : ReadsAtom flat stops room true middle denominator after) :
      ReadsNested flat stops room single (.command name) ts (.fraction numerator denominator)
        after
  | indexedRoot {stops room single ts inside nodes middle radicand after}
      (hskip : skipBlanks ts = .char '[' :: inside)
      (hindex : ReadsSiblings flat (.bracket :: stops) room [] inside nodes middle)
      (hrad : ReadsAtom flat stops room true (expect .bracket middle) radicand after) :
      ReadsNested flat stops room single (.command "sqrt") ts
        (.root radicand (some (.group nodes))) after
  | root {stops room single ts radicand after}
      (hskip : (skipBlanks ts).head? ≠ some (.char '['))
      (hrad : ReadsAtom flat stops room true (skipBlanks ts) radicand after) :
      ReadsNested flat stops room single (.command "sqrt") ts (.root radicand none) after
  | namedFunction {stops room single ts inner middle fn node after}
      (hinner : ReadsAtom flat stops room true ts inner middle)
      (hfn : Fn.ofCommand? inner.plainText = some fn)
      (h : ReadsFunction flat stops room fn none none middle node after) :
      ReadsNested flat stops room single (.command "operatorname") ts node after
  | named {stops room single ts inner after}
      (hinner : ReadsAtom flat stops room true ts inner after)
      (hfn : Fn.ofCommand? inner.plainText = none) :
      ReadsNested flat stops room single (.command "operatorname") ts (.word inner.plainText)
        after
  | function {stops room single name ts fn node after}
      (hname : isStructured name = false) (hfn : Fn.ofCommand? name = some fn)
      (h : ReadsFunction flat stops room fn none none ts node after) :
      ReadsNested flat stops room single (.command name) ts node after
  | command {stops room single name ts} (hname : isStructured name = false)
      (hfn : Fn.ofCommand? name = none) :
      ReadsNested flat stops room single (.command name) ts (.command name) ts

/-- The scripts and then the argument of a function. -/
inductive ReadsFunction (flat : Prop) :
    Stops → Nat → Fn → Option Node → Option Node → List Token → Node → List Token → Prop
  | script {stops room fn script power ts inside node middle out after}
      (hskip : skipBlanks ts = .char '_' :: inside)
      (hnode : ReadsAtom flat stops room true inside node middle)
      (h : ReadsFunction flat stops room fn (some node) power middle out after) :
      ReadsFunction flat stops room fn script power ts out after
  | power {stops room fn script power ts inside node middle out after}
      (hskip : skipBlanks ts = .char '^' :: inside)
      (hnode : ReadsAtom flat stops room true inside node middle)
      (h : ReadsFunction flat stops room fn script (some node) middle out after) :
      ReadsFunction flat stops room fn script power ts out after
  | argument {stops room fn script power ts argument after}
      (hscript : (skipBlanks ts).head? ≠ some (.char '_'))
      (hpower : (skipBlanks ts).head? ≠ some (.char '^'))
      (h : ReadsArgument flat stops room (skipBlanks ts) argument after) :
      ReadsFunction flat stops room fn script power ts (.function fn argument script power) after

/-- The argument of a function, if there is one. -/
inductive ReadsArgument (flat : Prop) :
    Stops → Nat → List Token → Option Node → List Token → Prop
  | missing {stops room} : ReadsArgument flat stops room [] none []
  | ended {stops room t ts} (hstop : t.stops stops = true) :
      ReadsArgument flat stops room (t :: ts) none (t :: ts)
  | other {stops room t ts} (hstop : t.stops stops = false)
      (hopen : t.startsBracketed = false) (hfactor : t.startsFactors = false) :
      ReadsArgument flat stops room (t :: ts) none (t :: ts)
  | bracketed {stops room t ts node after} (hstop : t.stops stops = false)
      (hopen : t.startsBracketed = true)
      (h : ReadsAtom flat stops room false (t :: ts) node after) :
      ReadsArgument flat stops room (t :: ts) (some node) after
  | factors {stops room t ts nodes after} (hstop : t.stops stops = false)
      (hopen : t.startsBracketed = false) (hfactor : t.startsFactors = true)
      (h : ReadsFactors flat stops room [] (t :: ts) nodes after) :
      ReadsArgument flat stops room (t :: ts) (some (.group nodes)) after

/-- The factors of an argument without brackets, after those in `acc`, last first. -/
inductive ReadsFactors (flat : Prop) :
    Stops → Nat → List Node → List Token → List Node → List Token → Prop
  | power {stops room acc ts exponent middle nodes after} (hacc : acc.isEmpty = false)
      (hexp : ReadsAtom flat stops room true ts exponent middle)
      (h : ReadsFactors flat stops room (.superscript acc.head? exponent :: acc.tail) middle
        nodes after) :
      ReadsFactors flat stops room acc (.char '^' :: ts) nodes after
  | factor {stops room acc c ts node middle nodes after} (hfactor : isFactorChar c = true)
      (hnode : ReadsAtom flat stops room false (.char c :: ts) node middle)
      (h : ReadsFactors flat stops room (node :: acc) middle nodes after) :
      ReadsFactors flat stops room acc (.char c :: ts) nodes after
  | done {stops room acc ts} (hpower : acc.isEmpty = true ∨ ts.head? ≠ some (.char '^'))
      (hfactor : ∀ c, ts.head? = some (.char c) → isFactorChar c = false) :
      ReadsFactors flat stops room acc ts acc.reverse ts

end

end FormulaDesk.Markup
