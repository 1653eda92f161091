import FormulaDesk.Dialect.Printer
import FormulaDesk.Proofs.Totality.Reading

/-! # Printing with lookups

A tree printed by looking names up in tables, where a name that is not there is a fault. A function
node carries a listed function, and every other lookup is made for a name that was found before, so
the text is that of the printer.
-/

namespace FormulaDesk.Dialect

open Markup

/-! ## Tables -/

def operatorTable : List (String × String) := [("cdot", "*"), ("times", "*"), ("div", "/")]

def constantTable : List (String × String) := [("pi", "pi"), ("infty", "inf")]

def inverseTable : List (String × String) := [("sin", "asin"), ("cos", "acos"), ("tan", "atan")]

/-- The entry for a name. -/
def entry (table : List (String × String)) (name : String) : Attempt String :=
  match table.lookup name with
  | some value => return value
  | none => throw (.unlisted name)

def tryCommand (d : Dialect) (name : String) : Attempt String :=
  if lists operatorTable name then entry operatorTable name
  else if name == "pi" then return d.pi
  else if lists constantTable name then entry constantTable name
  else if isSpacing name || name == "left" || name == "right" then return ""
  else if name == "\x7d" then return ")"
  else return name

def tryName (fn : Fn) (power : Option Node) : Attempt String :=
  if lists reciprocalTable fn.command then do
    let divisor ← entry reciprocalTable fn.command
    return "1/" ++ divisor
  else if lists inverseTable fn.command && power.isSome && Node.plainText? power == "-1" then
    entry inverseTable fn.command
  else entry functionTable fn.command

/-- A call under the name that it has without a base. -/
def callUnder (d : Dialect) (name : String) (fn : Fn) (argument : Option String)
    (script power : Option Node) (base printedPower : String) : String :=
  let withBase := hasLogBase fn script
  let name := if withBase then "log" else name
  let call := match argument with
    | none => name
    | some argument =>
      let call := name ++ inParens (if withBase then argument ++ "," ++ base else argument)
      if fn.isReciprocal then inParens call else call
  match power with
  | none => call
  | some script =>
    if marksInverse fn power then call
    else call ++ d.power ++ scriptText script printedPower

mutual

def tryNode (d : Dialect) : Node → Attempt String
  | .text value => return value
  | .number value => return value
  | .word value => return if value == "e" then d.euler else value
  | .command name => tryCommand d name
  | .group children => trySiblings d none children
  | .delimited opener _ children => do
    let inner ← trySiblings d none children
    return enclosed opener inner
  | .fraction numerator denominator => do
    let numerator ← tryNode d numerator
    let denominator ← tryNode d denominator
    return fractionText numerator denominator
  | .root radicand none => do
    let radicand ← tryNode d radicand
    return rootText radicand none
  | .root radicand (some index) => do
    let radicand ← tryNode d radicand
    let printed ← tryNode d index
    return rootText radicand (some (index, printed))
  | .superscript none exponent => do
    let printed ← tryNode d exponent
    return d.powerText none exponent printed
  | .superscript (some base) exponent => do
    let printed ← tryNode d exponent
    let printedBase ← tryNode d base
    return d.powerText (some (base, printedBase)) exponent printed
  | .subscript base script => do
    let base ← tryOption d base
    return base ++ "_" ++ script.plainText
  | .function fn argument script power => do
    let name ← tryName fn power
    let argument ← tryArgument d argument
    let base ← tryOption d script
    let printedPower ← tryOption d power
    return callUnder d name fn argument script power base printedPower

def trySiblings (d : Dialect) (previous : Option Node) : List Node → Attempt String
  | [] => return ""
  | node :: rest => do
    let first ← tryNode d node
    let others ← trySiblings d (some node) rest
    return (if previous.any (juxtaposed · node) then "*" else "") ++ first ++ others

def tryOption (d : Dialect) : Option Node → Attempt String
  | none => return ""
  | some node => tryNode d node

def tryArgument (d : Dialect) : Option Node → Attempt (Option String)
  | none => return none
  | some (.delimited opener closer children) => do
    let inner ← trySiblings d none children
    return some (argumentText (.delimited opener closer children) inner (enclosed opener inner))
  | some node => do
    let printed ← tryNode d node
    return some printed

end

def tryPrint (d : Dialect) (nodes : List Node) : Attempt String := trySiblings d none nodes

/-! ## No lookup fails -/

theorem entry_eq {table : List (String × String)} {name value : String}
    (h : table.lookup name = some value) : entry table name = pure value := by
  rw [entry, h]

theorem lookup_operatorTable (name : String) : operatorTable.lookup name = operator? name := by
  unfold operator?
  split
  · rfl
  · rfl
  · rfl
  · next hcdot htimes hdiv =>
    have hne : (name == "cdot") = false ∧ (name == "times") = false ∧ (name == "div") = false :=
      ⟨beq_eq_false_iff_ne.mpr hcdot, beq_eq_false_iff_ne.mpr htimes, beq_eq_false_iff_ne.mpr hdiv⟩
    simp [operatorTable, List.lookup_cons, hne]

theorem lookup_constantTable (name : String) : constantTable.lookup name = constantName? name := by
  unfold constantName?
  split
  · rfl
  · rfl
  · next hpi hinfty =>
    have hne : (name == "pi") = false ∧ (name == "infty") = false :=
      ⟨beq_eq_false_iff_ne.mpr hpi, beq_eq_false_iff_ne.mpr hinfty⟩
    simp [constantTable, List.lookup_cons, hne]

theorem tryCommand_eq (d : Dialect) (name : String) :
    tryCommand d name = pure (d.commandText name) := by
  unfold tryCommand commandText lists
  rw [lookup_operatorTable, lookup_constantTable]
  cases hoperator : operator? name with
  | some op =>
    have hentry := entry_eq ((lookup_operatorTable name).trans hoperator)
    simp [hentry]
  | none =>
    by_cases hpi : name = "pi"
    · subst hpi
      rfl
    · cases hconstant : constantName? name with
      | some constant =>
        have hentry := entry_eq ((lookup_constantTable name).trans hconstant)
        simp [hpi, hentry]
      | none =>
        simp only [Option.isSome_none, Bool.false_eq_true, if_false, beq_iff_eq, hpi]
        split_ifs <;> rfl

/-- Every function has an entry under its command. -/
theorem lists_command (fn : Fn) : isFunctionName fn.command = true := by
  cases fn <;> decide

theorem tryName_eq (fn : Fn) (power : Option Node) :
    tryName fn power = pure (calledName fn power) := by
  have hmark : (power.isSome && Node.plainText? power == "-1")
      = (Node.plainText? power == "-1") := by
    cases power <;> rfl
  have hreciprocal : lists reciprocalTable fn.command = fn.isReciprocal := by cases fn <;> rfl
  have hinverse : inverseTable.lookup fn.command = fn.inverseName? := by cases fn <;> rfl
  -- the table that is looked into has an entry for every function
  have hcall : (if fn.isReciprocal then reciprocalTable else functionTable).lookup fn.command
      = some fn.callName := by cases fn <;> rfl
  unfold tryName calledName marksInverse
  rw [hreciprocal, lists, hinverse, Bool.and_assoc, hmark]
  cases hkind : fn.isReciprocal with
  | true =>
    rw [hkind, if_pos rfl] at hcall
    rw [if_pos rfl, if_pos rfl, entry_eq hcall]
    rfl
  | false =>
    rw [hkind, if_neg Bool.false_ne_true] at hcall
    rw [if_neg Bool.false_ne_true, if_neg Bool.false_ne_true, entry_eq hcall]
    cases hname : fn.inverseName? with
    | none => rfl
    | some inverse =>
      rw [entry_eq (hinverse.trans hname)]
      simp only [Option.isSome_some, Bool.true_and]
      split <;> rfl

mutual

theorem tryNode_eq (d : Dialect) : ∀ node, tryNode d node = pure (printNode d node)
  | .text _ => rfl
  | .number _ => rfl
  | .word _ => rfl
  | .command name => tryCommand_eq d name
  | .group children => trySiblings_eq d none children
  | .delimited _ _ children => by
      rw [tryNode, trySiblings_eq d none children]
      rfl
  | .fraction numerator denominator => by
      rw [tryNode, tryNode_eq d numerator, tryNode_eq d denominator]
      rfl
  | .root radicand none => by
      rw [tryNode, tryNode_eq d radicand]
      rfl
  | .root radicand (some index) => by
      rw [tryNode, tryNode_eq d radicand, tryNode_eq d index]
      rfl
  | .superscript none exponent => by
      rw [tryNode, tryNode_eq d exponent]
      rfl
  | .superscript (some base) exponent => by
      rw [tryNode, tryNode_eq d exponent, tryNode_eq d base]
      rfl
  | .subscript base script => by
      rw [tryNode, tryOption_eq d base]
      rfl
  | .function fn argument script power => by
      rw [tryNode, tryName_eq, tryArgument_eq d argument, tryOption_eq d script,
        tryOption_eq d power]
      rfl

theorem trySiblings_eq (d : Dialect) (previous : Option Node) :
    ∀ nodes, trySiblings d previous nodes = pure (printSiblings d previous nodes)
  | [] => rfl
  | node :: rest => by
      rw [trySiblings, tryNode_eq d node, trySiblings_eq d (some node) rest]
      rfl

theorem tryOption_eq (d : Dialect) : ∀ node, tryOption d node = pure (printOption d node)
  | none => rfl
  | some node => tryNode_eq d node

theorem tryArgument_eq (d : Dialect) :
    ∀ argument, tryArgument d argument = pure (printArgument d argument)
  | none => rfl
  | some (.delimited opener closer children) => by
      rw [tryArgument, trySiblings_eq d none children]
      rfl
  | some (.text _) | some (.number _) | some (.word _) | some (.command _) | some (.group _)
  | some (.fraction _ _) | some (.root _ _) | some (.superscript _ _) | some (.subscript _ _)
  | some (.function _ _ _ _) => by
      rw [tryArgument, tryNode_eq d]
      · rfl
      · simp

end

theorem tryPrint_eq (d : Dialect) (nodes : List Node) : tryPrint d nodes = pure (d.print nodes) :=
  trySiblings_eq d none nodes

end FormulaDesk.Dialect
