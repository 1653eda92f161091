import FormulaDesk.Dialect.Printer

/-! # How siblings are printed

Siblings are printed one after the other, with a star between two that mean a product. So a row of
siblings is printed from its parts: the star depends on the last node of the one part and the first
of the other, and there is none next to an operator.
-/

namespace FormulaDesk.Dialect

open Markup

variable {d : Dialect} {previous : Option Node} {node node' : Node} {ns ns' : List Node}

/-- What is printed between two siblings. -/
def between (previous : Option Node) (node : Node) : String :=
  if previous.any (juxtaposed · node) then "*" else ""

theorem between_none (node : Node) : between none node = "" := rfl

theorem juxtaposed_operator (h : isOperand node = false ∨ isOperand node' = false) :
    juxtaposed node node' = false := by
  unfold juxtaposed
  rcases h with h | h <;> simp [h]

theorem between_operator (h : isOperand node = false) (previous : Option Node) :
    between previous node = "" := by
  cases previous with
  | none => rfl
  | some p => simp [between, juxtaposed_operator (Or.inr h)]

theorem between_behind_operator (h : isOperand node = false) (node' : Node) :
    between (some node) node' = "" := by
  simp [between, juxtaposed_operator (Or.inl h)]

theorem printSiblings_step (d : Dialect) (previous : Option Node) (node : Node) (ns : List Node) :
    printSiblings d previous (node :: ns)
      = between previous node ++ (printNode d node ++ printSiblings d (some node) ns) := by
  rw [printSiblings, between, String.append_assoc]

/-- A sibling alone has no neighbour to multiply with. -/
theorem printSiblings_single (d : Dialect) (node : Node) :
    printSiblings d none [node] = printNode d node := by
  rw [printSiblings_step, between_none, printSiblings, String.append_empty, String.empty_append]

theorem printSiblings_cons (d : Dialect) (previous : Option Node) (node : Node) (ns : List Node) :
    printSiblings d previous (node :: ns)
      = between previous node ++ printSiblings d none (node :: ns) := by
  rw [printSiblings_step, printSiblings_step d none, between_none, String.empty_append]

/-- Siblings in two parts. -/
theorem printSiblings_append (d : Dialect) (previous : Option Node) (ns : List Node) (node : Node)
    (ns' : List Node) :
    printSiblings d previous (ns ++ node :: ns') = printSiblings d previous ns
      ++ (between (ns.getLast?.or previous) node ++ printSiblings d none (node :: ns')) := by
  induction ns generalizing previous with
  | nil =>
    rw [List.nil_append, printSiblings_cons]
    simp [printSiblings]
  | cons n ns ih =>
    have hlast : (n :: ns).getLast?.or previous = ns.getLast?.or (some n) := by
      rw [List.getLast?_cons]
      cases ns.getLast? <;> rfl
    rw [List.cons_append, printSiblings_step, ih, hlast, printSiblings_step d previous n]
    simp only [String.append_assoc]

/-- Behind an operator, siblings are printed as alone. -/
theorem printSiblings_behind_operator (h : isOperand node = false) (ns : List Node) :
    printSiblings d (some node) ns = printSiblings d none ns := by
  cases ns with
  | nil => rfl
  | cons n ns => rw [printSiblings_cons, between_behind_operator h, String.empty_append]

theorem printSiblings_operator (h : isOperand node = false) (ns : List Node) :
    printSiblings d none (node :: ns) = printNode d node ++ printSiblings d none ns := by
  rw [printSiblings_step, printSiblings_behind_operator h, between_none, String.empty_append]

/-- Siblings around an operator. -/
theorem printSiblings_around (h : isOperand node = false) (ns ns' : List Node) :
    printSiblings d none (ns ++ node :: ns')
      = printSiblings d none ns ++ (printNode d node ++ printSiblings d none ns') := by
  rw [printSiblings_append, between_operator h, printSiblings_operator h, String.empty_append]

/-- Nodes that a product can be made of by putting them side by side. -/
structure IsFactorNode (node : Node) : Prop where
  operand : isOperand node = true
  argument : ∀ fn script power, node ≠ .function fn none script power
  name : ∀ value, node = .word value → callNames.contains value = false

theorem IsFactorNode.juxtaposed_eq (h : IsFactorNode node) (node' : Node) :
    juxtaposed node node' = isOperand node' := by
  unfold Dialect.juxtaposed
  rw [h.operand, Bool.true_and]
  split
  · next fn script power => exact absurd rfl (h.argument fn script power)
  · next value =>
    rw [h.name value rfl]
    simp
  · simp

theorem IsFactorNode.juxtaposed (h : IsFactorNode node) (h' : IsFactorNode node') :
    juxtaposed node node' = true := (h.juxtaposed_eq node').trans h'.operand

end FormulaDesk.Dialect
