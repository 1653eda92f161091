import FormulaDesk.Proofs.Dialect.Lexeme
import FormulaDesk.Proofs.Formula.Reading

/-! # Formulas that can be drawn

The formulas of ordinary arithmetic as they are typed, with parentheses as a construct of their own:
an operand may stand in parentheses or without. Only the base of a power gets them where it needs
them, and a blank is typed behind a command where a letter follows.
-/

namespace FormulaDesk

open Markup Dialect

/-- What is typed between the factors of a product. -/
inductive Link where
  /-- A dot, with or without a blank behind it. -/
  | dot (gap : Bool)
  | blank
deriving DecidableEq, Repr

inductive Drawable where
  | number (value : Figure)
  | var (v : Letter)
  | euler
  | pi
  | sum (a b : Drawable)
  | difference (a b : Drawable)
  | negation (a : Drawable)
  | product (link : Link) (a b : Drawable)
  /-- A quotient in one line, with or without a blank before its divisor. -/
  | quotient (gap : Bool) (a b : Drawable)
  | fraction (a b : Drawable)
  | power (a b : Drawable)
  | sqrt (a : Drawable)
  | root (index a : Drawable)
  | abs (a : Drawable)
  | paren (a : Drawable)
  | apply (fn : Fn) (a : Drawable)

namespace Drawable

/-- The formulas that are more than one operand. -/
def isCompound : Drawable → Bool
  | .sum _ _ => true
  | .difference _ _ => true
  | .negation _ => true
  | .product _ _ _ => true
  | .quotient _ _ _ => true
  | _ => false

/-- A formula as it is typed. -/
def markup : Drawable → String
  | .number value => String.ofList value.chars
  | .var v => String.singleton v.char
  | .euler => "e"
  | .pi => "\\pi"
  | .sum a b => a.markup ++ "+" ++ b.markup
  | .difference a b => a.markup ++ "-" ++ b.markup
  | .negation a => "-" ++ a.markup
  | .product (.dot gap) a b => a.markup ++ commandBefore "cdot" gap b.markup
  | .product .blank a b => a.markup ++ " " ++ b.markup
  | .quotient gap a b => a.markup ++ commandBefore "div" gap b.markup
  | .fraction a b => fracOf a.markup b.markup
  | .power a b => Formula.wrapped a.isCompound a.markup ++ "^" ++ braced b.markup
  | .sqrt a => sqrtOf a.markup
  | .root index a => rootOf index.markup a.markup
  | .abs a => barred a.markup
  | .paren a => leftRight a.markup
  | .apply fn a => commandOf fn.command ++ leftRight a.markup

/-- The nodes that a formula is read as. -/
def nodes : Drawable → List Node
  | .number value => [.number (String.ofList value.chars)]
  | .var v => [.word (String.singleton v.char)]
  | .euler => [.word "e"]
  | .pi => [.command "pi"]
  | .sum a b => a.nodes ++ .text "+" :: b.nodes
  | .difference a b => a.nodes ++ .text "-" :: b.nodes
  | .negation a => .text "-" :: a.nodes
  | .product (.dot _) a b => a.nodes ++ .command "cdot" :: b.nodes
  | .product .blank a b => a.nodes ++ b.nodes
  | .quotient _ a b => a.nodes ++ .command "div" :: b.nodes
  | .fraction a b => [.fraction (.group a.nodes) (.group b.nodes)]
  | .power a b =>
    [.superscript (some (Formula.wrappedNode a.isCompound a.nodes)) (.group b.nodes)]
  | .sqrt a => [.root (.group a.nodes) none]
  | .root index a => [.root (.group a.nodes) (some (.group index.nodes))]
  | .abs a => [.delimited "|" "|" a.nodes]
  | .paren a => [.delimited "(" ")" a.nodes]
  | .apply fn a => [.function fn (some (.delimited "(" ")" a.nodes)) none none]

/-! ## Reading -/

variable {s s' : String} {ns ns' : List Node} {a : Drawable}

/-- A formula that is one operand is one node. -/
theorem nodes_of_not_compound (h : a.isCompound = false) : ∃ node, a.nodes = [node] := by
  cases a <;> simp_all [isCompound, nodes]

/-- The base of a power is one node, in parentheses if it needs them. -/
theorem emits_base {room : Nat} (h : ∀ r, room ≤ r → Emits r a.markup a.nodes) :
    Emits (room + 1) (Formula.wrapped a.isCompound a.markup)
      [Formula.wrappedNode a.isCompound a.nodes] := by
  cases hcompound : a.isCompound with
  | true => exact (h room (Nat.le_refl room)).leftRight.isOperand.emits
  | false =>
    obtain ⟨node, hnode⟩ := nodes_of_not_compound hcompound
    have hread := h (room + 1) (Nat.le_succ room)
    rw [hnode] at hread ⊢
    exact hread

/-- Two texts with an operator command between them. -/
theorem emits_around_command {room : Nat} {name : String} {gap : Bool}
    (hname : name = "cdot" ∨ name = "div") (h : Emits (room + 1) s ns)
    (h' : Emits (room + 1) s' ns') :
    Emits (room + 1) (s ++ commandBefore name gap s') (ns ++ .command name :: ns') := by
  have hcommand : name ≠ "" ∧ name.toList.all Text.isAsciiLetter = true ∧ name ≠ "right" ∧
      isStructured name = false ∧ Fn.ofCommand? name = none := by
    rcases hname with rfl | rfl <;> decide
  obtain ⟨hne, hletters, hright, hplain, hfn⟩ := hcommand
  have hbefore := Emits.after_plain_command gap (closer?_command hletters hright)
    (startsOperand_command hright) hplain hfn h'
    fun cs hcs => scan_command hne hletters (hcs hletters)
  exact h.append hbefore fun cs _ => endsRun_commandBefore name gap s' cs

/-- Wherever the markup of a formula stands, it is read as the nodes of the formula. -/
theorem readable (a : Drawable) : Readable a.markup a.nodes := by
  -- the levels are those that a construct spends: its own and one for parentheses or braces
  induction a with
  | number value =>
    refine readable_operand fun room => isOperand_number ?_ fun c hc => ?_
    · simpa [markup, String.ofList_eq_empty_iff] using value.nonempty
    · exact isNumberChar_of_isFigure (value.accepted c (by simpa [markup] using hc))
  | var v => exact readable_operand fun _ => isOperand_letter v.isLetter
  | euler => exact readable_operand fun _ => isOperand_letter (c := 'e') (by decide)
  | pi =>
    have hpi : "pi" ∈ ["pi", "cdot", "div"] := by decide
    exact readable_operand fun _ => Formula.isOperand_plain_command hpi
  | sum a b iha ihb =>
    refine iha.map₂ ihb 1 fun room ha hb => ?_
    exact (ha _ (by omega)).around_symbol (c := '+') (by decide) (hb _ (by omega))
  | difference a b iha ihb =>
    refine iha.map₂ ihb 1 fun room ha hb => ?_
    exact (ha _ (by omega)).around_symbol (c := '-') (by decide) (hb _ (by omega))
  | negation a ih =>
    refine ih.map 1 fun room ha => ?_
    exact (ha _ (by omega)).after_symbol (c := '-') (by decide)
  | product link a b iha ihb =>
    refine iha.map₂ ihb 1 fun room ha hb => ?_
    cases link with
    | dot gap => exact emits_around_command (Or.inl rfl) (ha _ (by omega)) (hb _ (by omega))
    | blank => exact (ha _ (by omega)).blank (hb _ (by omega))
  | quotient gap a b iha ihb =>
    refine iha.map₂ ihb 1 fun room ha hb => ?_
    exact emits_around_command (Or.inr rfl) (ha _ (by omega)) (hb _ (by omega))
  | fraction a b iha ihb =>
    refine iha.map₂ ihb 2 fun room ha hb => ?_
    exact (isOperand_frac (ha _ (Nat.le_refl room)) (hb _ (Nat.le_refl room))).emits
  | power a b iha ihb =>
    refine iha.map₂ ihb 1 fun room ha hb => ?_
    exact (emits_base ha).superscript (hb _ (Nat.le_refl room)).braced.isScript
  | sqrt a ih => exact ih.map 2 fun _ ha => (isOperand_sqrt (ha _ (Nat.le_refl _))).emits
  | root index a ihindex ih =>
    refine ihindex.map₂ ih 2 fun room hindex ha => ?_
    exact (isOperand_root (ha _ (Nat.le_refl room)) (hindex _ (Nat.le_succ room))).emits
  | abs a ih => exact ih.map 1 fun _ ha => (ha _ (Nat.le_refl _)).barred.isOperand.emits
  | paren a ih => exact ih.map 1 fun _ ha => (ha _ (Nat.le_refl _)).leftRight.isOperand.emits
  | apply fn a ih =>
    exact ih.map 2 fun _ ha => (ha _ (Nat.le_refl _)).leftRight.isApplied.isOperand.emits

/-- Markup of a formula within the limit is read as the nodes of the formula. -/
theorem ofMarkup_eq_nodes (h : WithinLimit a.markup) : Node.ofMarkup a.markup = a.nodes :=
  a.readable.ofMarkup_eq h

end Drawable

end FormulaDesk
