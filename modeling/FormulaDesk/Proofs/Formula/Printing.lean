import FormulaDesk.Proofs.Dialect.Settled
import FormulaDesk.Proofs.Dialect.Siblings
import FormulaDesk.Proofs.Formula.Reading

/-! # How a formula is printed

The evaluable text of a formula: what the printer makes of its nodes, and that the clean-up passes
change nothing in it but a blank.
-/

namespace FormulaDesk

open Markup Dialect

namespace Formula

/-! ## Text -/

def isEuler : Formula → Bool
  | .euler => true
  | _ => false

/-- The indices of a root that need no parentheses. -/
def isSimpleIndex : Formula → Bool
  | .numeral _ => true
  | .var _ => true
  | .euler => true
  | _ => false

def inParensIf (needed : Bool) (s : String) : String := if needed then inParens s else s

/-- A call of a function. -/
def callOf (fn : Fn) (argument : String) : String :=
  if fn.isReciprocal then inParens ("1/" ++ fn.callName ++ inParens argument)
  else fn.callName ++ inParens argument

/-- The evaluable text, with a gap between the arguments of a call. -/
def text (gap : String) : Formula → String
  | .numeral n => n.text
  | .var v => String.singleton v.char
  | .euler => "math.e"
  | .pi => "pi"
  | .sum a b => inParensIf a.isCompound (a.text gap) ++ "+" ++ inParensIf b.isCompound (b.text gap)
  | .difference a b =>
    inParensIf a.isCompound (a.text gap) ++ "-" ++ inParensIf b.isCompound (b.text gap)
  | .negation a => "-" ++ inParensIf a.isCompound (a.text gap)
  | .product _ a b =>
    inParensIf a.isCompound (a.text gap) ++ "*" ++ inParensIf b.isCompound (b.text gap)
  | .quotient a b =>
    inParensIf a.isCompound (a.text gap) ++ "/"
      ++ inParensIf (b.isCompound || b.isFraction) (b.text gap)
  | .fraction a b => inParens (a.text gap) ++ "/" ++ inParens (b.text gap)
  | .power a b =>
    if a.isEuler then "exp" ++ inParens (b.text gap)
    else
      inParensIf (a.isCompound || a.isPower || a.isFraction) (a.text gap) ++ "**"
        ++ inParens (b.text gap)
  | .sqrt a => "sqrt" ++ inParens (a.text gap)
  | .root index a =>
    "pow(" ++ a.text gap ++ ("," ++ gap) ++ "1/"
      ++ inParensIf (!index.isSimpleIndex) (index.text gap) ++ ")"
  | .abs a => "abs(" ++ a.text gap ++ ")"
  | .apply fn a => callOf fn (a.text gap)

/-! ## Printing -/

/-- The printed siblings of a formula. -/
def PrintsAs (a : Formula) (s : String) : Prop := printSiblings evaluable none a.nodes = s

theorem PrintsAs.wrapped {a : Formula} {s : String} {needed : Bool} (h : a.PrintsAs s)
    (hneeded : a.isCompound = true → needed = true) :
    printNode evaluable (wrappedNode needed a.nodes) = inParensIf needed s := by
  unfold PrintsAs at h
  cases needed with
  | true => simp [wrappedNode, printNode, enclosed, inParensIf, h]
  | false =>
    obtain ⟨node, hnode⟩ : ∃ node, a.nodes = [node] :=
      nodes_of_not_compound (by simpa using hneeded)
    rw [hnode] at h ⊢
    simpa [wrappedNode, inParensIf, printSiblings] using h

theorem isFactorNode_wrapped (a : Formula) {needed : Bool}
    (hneeded : a.isCompound = true → needed = true) :
    IsFactorNode (wrappedNode needed a.nodes) := by
  have hdelimited : ∀ ns, IsFactorNode (.delimited "(" ")" ns) := fun ns =>
    ⟨rfl, by simp, by simp⟩
  cases needed with
  | true => exact hdelimited _
  | false =>
    cases a
    -- a word is a factor unless it is the name of a call, which one letter never is
    case var v => exact ⟨rfl, by simp [wrappedNode, nodes], by
      intro value hvalue
      simp only [wrappedNode, nodes, Node.word.injEq] at hvalue
      exact hvalue ▸ callNames_singleton v.char⟩
    case euler => exact ⟨rfl, by simp [wrappedNode, nodes], by
      intro value hvalue
      simp only [wrappedNode, nodes, Node.word.injEq] at hvalue
      exact hvalue ▸ by decide⟩
    all_goals first
      | exact absurd (hneeded rfl) (by simp)
      | exact ⟨rfl, by simp [wrappedNode, nodes], by simp [wrappedNode, nodes]⟩

/-- A power is printed with a call for its base `e`, and a fraction as its base in parentheses. -/
theorem powerText_wrapped (a : Formula) (base : String) (exponent : Node) (printed : String) :
    evaluable.powerText (some (wrappedNode (a.isCompound || a.isPower) a.nodes, base)) exponent
        printed
      = if a.isEuler then "exp" ++ inParens printed
        else inParensIf a.isFraction base ++ "**" ++ scriptText exponent printed := by
  cases a
  case var v =>
    simp [isCompound, isPower, isEuler, isFraction, wrappedNode, nodes, inParensIf, powerText,
      v.singleton_ne_e, evaluable]
  all_goals rfl

theorem PrintsAs.raised {a : Formula} {s : String} (h : a.PrintsAs s) (exponent : Node) :
    printNode evaluable
        (.superscript (some (wrappedNode (a.isCompound || a.isPower) a.nodes)) exponent)
      = if a.isEuler then "exp" ++ inParens (printNode evaluable exponent)
        else inParensIf (a.isCompound || a.isPower || a.isFraction) s ++ "**"
          ++ scriptText exponent (printNode evaluable exponent) := by
  have hbase : printNode evaluable (wrappedNode (a.isCompound || a.isPower) a.nodes) = _ :=
    h.wrapped (by simp_all)
  -- parentheses come from the markup or from the printer, never from both
  have hparens : inParensIf a.isFraction (inParensIf (a.isCompound || a.isPower) s)
      = inParensIf (a.isCompound || a.isPower || a.isFraction) s := by
    cases a <;> rfl
  rw [printNode, powerText_wrapped, hbase, hparens]

theorem isSimple_index (a : Formula) : isSimple (.group a.nodes) = a.isSimpleIndex := by
  cases a
  case product dotted a b => cases dotted <;> rfl
  all_goals rfl

/-- Without the mark of the inverse a function is called by its own name. -/
theorem calledName_of_unmarked (fn : Fn) {power : Option Node}
    (h : (Node.plainText? power == "-1") = false) :
    calledName fn power = if fn.isReciprocal then "1/" ++ fn.callName else fn.callName := by
  have hmark : marksInverse fn power = false := by rw [marksInverse, h, Bool.and_false]
  unfold calledName
  rw [hmark]
  cases fn.inverseName? <;> rfl

theorem hasLogBase_none (fn : Fn) : hasLogBase fn none = false := by
  rw [hasLogBase, Option.isSome_none, Bool.and_false, Bool.false_and]

/-- A function with nothing but an argument prints as its call. -/
theorem callText_apply (d : Dialect) (fn : Fn) (argument : String) :
    d.callText fn (some argument) none none "" "" = callOf fn argument := by
  unfold callText callOf
  rw [hasLogBase_none, calledName_of_unmarked fn (by decide)]
  cases fn.isReciprocal <;> rfl

/-- A sign is printed between its two operands. -/
theorem print_around {sign : Node} (h : isOperand sign = false) (node node' : Node) :
    printSiblings evaluable none [node, sign, node']
      = printNode evaluable node ++ printNode evaluable sign ++ printNode evaluable node' := by
  have hsplit : [node, sign, node'] = [node] ++ sign :: [node'] := rfl
  rw [hsplit, printSiblings_around h, printSiblings_single, printSiblings_single,
    String.append_assoc]

/-- The nodes of a formula print as its text, with a gap between the arguments of a call. -/
theorem prints (a : Formula) : a.PrintsAs (a.text " ") := by
  induction a with
  | numeral n => simp [PrintsAs, nodes, printSiblings, printNode, text]
  | var v =>
    simp [PrintsAs, nodes, printSiblings, printNode, text, v.singleton_ne_e]
  | euler => rfl
  | pi => rfl
  | sum a b iha ihb =>
    have hplus : printNode evaluable (.text "+") = "+" := by rw [printNode]
    rw [PrintsAs, nodes, print_around rfl, iha.wrapped id, ihb.wrapped id, hplus, text]
  | difference a b iha ihb =>
    have hminus : printNode evaluable (.text "-") = "-" := by rw [printNode]
    rw [PrintsAs, nodes, print_around rfl, iha.wrapped id, ihb.wrapped id, hminus, text]
  | negation a ih =>
    have hminus : printNode evaluable (.text "-") = "-" := by rw [printNode]
    rw [PrintsAs, nodes, printSiblings_operator rfl, printSiblings_single, ih.wrapped id, hminus,
      text]
  | product dotted a b iha ihb =>
    cases dotted with
    | true =>
      have hcdot : printNode evaluable (.command "cdot") = "*" := by decide
      rw [PrintsAs, nodes, print_around rfl, iha.wrapped id, ihb.wrapped id, hcdot, text]
    | false =>
      -- the star is not typed: the printer puts it between two factors
      have hproduct := (a.isFactorNode_wrapped id).juxtaposed (b.isFactorNode_wrapped id)
      simp [PrintsAs, nodes, printSiblings, text, hproduct, iha.wrapped id, ihb.wrapped id,
        String.append_assoc]
  | quotient a b iha ihb =>
    have hdiv : printNode evaluable (.command "div") = "/" := by decide
    have hb : printNode evaluable (wrappedNode (b.isCompound || b.isFraction) b.nodes) = _ :=
      ihb.wrapped (by simp_all)
    rw [PrintsAs, nodes, print_around rfl, iha.wrapped id, hb, hdiv, text]
  | fraction a b iha ihb =>
    unfold PrintsAs at iha ihb
    simp [PrintsAs, nodes, printSiblings, printNode, text, fractionText, iha, ihb]
  | power a b iha ihb =>
    unfold PrintsAs at ihb
    have hexponent : printNode evaluable (.group b.nodes) = b.text " " := by
      rw [printNode, ihb]
    simp [PrintsAs, nodes, printSiblings, iha.raised, hexponent, scriptText, text]
  | sqrt a ih =>
    unfold PrintsAs at ih
    simp [PrintsAs, nodes, printSiblings, printNode, text, rootText, ih]
  | root index a ihindex ih =>
    unfold PrintsAs at ih ihindex
    have hgap : ", 1/" = "," ++ " " ++ "1/" := by decide
    have hindex : ∀ s, (if index.isSimpleIndex then s else inParens s)
        = inParensIf (!index.isSimpleIndex) s := by
      intro s
      cases index.isSimpleIndex <;> rfl
    simp [PrintsAs, nodes, printSiblings, printNode, text, rootText, isSimple_index, hindex, ih,
      ihindex, hgap, String.append_assoc]
  | abs a ih =>
    unfold PrintsAs at ih
    simp [PrintsAs, nodes, printSiblings, printNode, text, enclosed, ih]
  | apply fn a ih =>
    unfold PrintsAs at ih
    simp [PrintsAs, nodes, printSiblings, printNode, printArgument, printOption, argumentText,
      callText_apply, text, ih]

end Formula

end FormulaDesk
