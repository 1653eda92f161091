import FormulaDesk.Proofs.Dialect.Siblings
import FormulaDesk.Proofs.Formula.Printing
import FormulaDesk.Proofs.Reading.Constructs

/-! # Markup around a place

A place among siblings, with what stands around it: brackets, fractions, roots, powers and calls,
one inside the other. What is printed around the place depends on what stands there in one way only,
which is whether anything does.
-/

namespace FormulaDesk

open Markup Dialect

/-- Markup with the siblings that it is read as. -/
structure Piece where
  text : String
  nodes : List Node
  readable : Readable text nodes

namespace Piece

def empty : Piece := ⟨"", [], 0, fun _ _ => .nil⟩

def letter (c : Char) (hc : Text.isAsciiLetter c = true) : Piece :=
  ⟨String.singleton c, [.word (String.singleton c)], readable_operand fun _ => isOperand_letter hc⟩

def symbol (c : Char) (hc : c ∈ symbols) : Piece :=
  ⟨String.singleton c, [.text (String.singleton c)], readable_operand fun _ => isOperand_symbol hc⟩

end Piece

/-! ## One construct around a place -/

/-- The constructs that one operand is made of by what stands inside. -/
inductive Bracket where
  | braces
  | parens
  | brackets
  | set
  /-- Parentheses that grow with what stands inside. -/
  | sized
  | bars
  | numerator (below : Piece)
  | denominator (above : Piece)
  | radicand
  | argument (fn : Fn)

namespace Bracket

def markup (m : String) : Bracket → String
  | .braces => braced m
  | .parens => parenthesized m
  | .brackets => bracketed m
  | .set => setBraced m
  | .sized => leftRight m
  | .bars => barred m
  | .numerator below => fracOf m below.text
  | .denominator above => fracOf above.text m
  | .radicand => sqrtOf m
  | .argument fn => commandOf fn.command ++ leftRight m

def node (ns : List Node) : Bracket → Node
  | .braces => .group ns
  | .parens => .delimited "(" ")" ns
  | .brackets => .delimited "[" "]" ns
  | .set => .delimited "\x7b" "\x7d" ns
  | .sized => .delimited "(" ")" ns
  | .bars => .delimited "|" "|" ns
  | .numerator below => .fraction (.group ns) (.group below.nodes)
  | .denominator above => .fraction (.group above.nodes) (.group ns)
  | .radicand => .root (.group ns) none
  | .argument fn => .function fn (some (.delimited "(" ")" ns)) none none

/-- What is printed, from what is printed of the inside. -/
def printed (d : Dialect) (inner : String) : Bracket → String
  | .braces => inner
  | .bars => enclosed "|" inner
  | .numerator below => fractionText inner (printSiblings d none below.nodes)
  | .denominator above => fractionText (printSiblings d none above.nodes) inner
  | .radicand => rootText inner none
  | .argument fn => Formula.callOf fn inner
  | _ => inParens inner

variable {m : String} {ns : List Node}

theorem isBlock (b : Bracket) (h : Readable m ns) :
    ∃ least, ∀ room, least ≤ room → IsBlock room (b.markup m) (b.node ns) := by
  obtain ⟨least, hreads⟩ := h
  -- two levels suffice: that of the construct and that of the braces or parentheses inside
  have htwo : ∀ other,
      (∀ room, max least other ≤ room → IsBlock (room + 2) (b.markup m) (b.node ns)) →
      ∃ least, ∀ room, least ≤ room → IsBlock room (b.markup m) (b.node ns) := by
    intro other hblock
    refine ⟨max least other + 2, fun room hroom => ?_⟩
    obtain ⟨r, rfl⟩ : ∃ r, room = r + 2 := ⟨room - 2, by omega⟩
    exact hblock r (by omega)
  cases b with
  | braces => exact htwo 0 fun room hroom => (hreads (room + 1) (by omega)).braced.isBlock
  | parens => exact htwo 0 fun room hroom => (hreads (room + 1) (by omega)).parenthesized.isBlock
  | brackets => exact htwo 0 fun room hroom => (hreads (room + 1) (by omega)).bracketed.isBlock
  | set => exact htwo 0 fun room hroom => (hreads (room + 1) (by omega)).setBraced.isBlock
  | sized => exact htwo 0 fun room hroom => (hreads (room + 1) (by omega)).leftRight.isBlock
  | bars => exact htwo 0 fun room hroom => (hreads (room + 1) (by omega)).barred.isBlock
  | numerator below =>
    obtain ⟨other, hother⟩ := below.readable
    exact htwo other fun room hroom =>
      isBlock_frac (hreads room (by omega)) (hother room (by omega))
  | denominator above =>
    obtain ⟨other, hother⟩ := above.readable
    exact htwo other fun room hroom =>
      isBlock_frac (hother room (by omega)) (hreads room (by omega))
  | radicand => exact htwo 0 fun room hroom => isBlock_sqrt (hreads room (by omega))
  | argument fn =>
    exact htwo 0 fun room hroom => (hreads room (by omega)).leftRight.isApplied.isBlock

theorem printNode_node (d : Dialect) (b : Bracket) (ns : List Node) :
    printNode d (b.node ns) = b.printed d (printSiblings d none ns) := by
  cases b with
  | argument fn =>
    simp [node, printed, printNode, printArgument, printOption, argumentText,
      Formula.callText_apply]
  | _ => simp [node, printed, printNode, enclosed]

end Bracket

/-! ## Layers -/

/-- One construct around a place, with what stands on both sides of it. -/
inductive Layer where
  | bracket (before : Piece) (b : Bracket) (after : Piece)
  /-- The place is the exponent of the last sibling before. -/
  | exponent (before : String) (init : List Node) (base : Node)
      (h : Readable before (init ++ [base])) (after : Piece)

namespace Layer

def markup (m : String) : Layer → String
  | .bracket before b after => before.text ++ (b.markup m ++ after.text)
  | .exponent before _ _ _ after => before ++ "^" ++ braced m ++ after.text

/-- The siblings before the construct. -/
def init : Layer → List Node
  | .bracket before _ _ => before.nodes
  | .exponent _ init _ _ _ => init

def node (ns : List Node) : Layer → Node
  | .bracket _ b _ => b.node ns
  | .exponent _ _ base _ _ => .superscript (some base) (.group ns)

def after : Layer → Piece
  | .bracket _ _ after => after
  | .exponent _ _ _ _ after => after

def nodes (ns : List Node) (l : Layer) : List Node := l.init ++ l.node ns :: l.after.nodes

/-- What is printed of the construct, from what is printed of the inside. -/
def construct (d : Dialect) (inner : String) : Layer → String
  | .bracket _ b _ => b.printed d inner
  | .exponent _ _ base _ _ => d.powerText (some (base, printNode d base)) (.group []) inner

/-- What is printed with the siblings on both sides. -/
def printed (d : Dialect) (ns : List Node) (inner : String) (l : Layer) : String :=
  printSiblings d none l.init ++ (between l.init.getLast? (l.node ns)
    ++ (l.construct d inner ++ printSiblings d (some (l.node ns)) l.after.nodes))

variable {m : String} {ns ns' : List Node}

theorem readable (l : Layer) (h : Readable m ns) : Readable (l.markup m) (l.nodes ns) := by
  cases l with
  | bracket before b after =>
    obtain ⟨rb, hblock⟩ := b.isBlock h
    refine before.readable.map₂ after.readable rb fun room hbefore hafter => ?_
    have hb := hblock (room + rb) (by omega)
    exact (hbefore _ (by omega)).append (hb.before (hafter _ (by omega))) fun cs _ => by
      rw [String.toList_append, List.append_assoc]
      exact hb.endsRun _
  | exponent before init base hbase after =>
    obtain ⟨inside, hinside⟩ := h
    refine hbase.map₂ after.readable (inside + 1) fun room hbefore hafter => ?_
    have hscript := (hinside (room + inside) (by omega)).braced.isScript
    exact (hbefore _ (by omega)).superscript_before hscript (hafter _ (by omega))

theorem powerText_group (d : Dialect) (base : Option (Node × String)) (ns : List Node)
    (printed : String) :
    d.powerText base (.group ns) printed = d.powerText base (.group []) printed := by
  unfold powerText
  split <;> rfl

theorem printSiblings_nodes (d : Dialect) (l : Layer) (ns : List Node) :
    printSiblings d none (l.nodes ns) = l.printed d ns (printSiblings d none ns) := by
  have hconstruct : printNode d (l.node ns) = l.construct d (printSiblings d none ns) := by
    cases l with
    | bracket before b after => exact b.printNode_node d ns
    | exponent before init base hbase after =>
      rw [node, printNode, printNode, powerText_group]
      rfl
  rw [nodes, printSiblings_append, Option.or_none, printSiblings_step, between_none,
    String.empty_append, hconstruct]
  rfl

/-- Next to the construct it does not matter what stands inside. -/
theorem juxtaposed_node (l : Layer) (h : ns = [] ↔ ns' = []) (node : Node) :
    juxtaposed node (l.node ns) = juxtaposed node (l.node ns') ∧
      juxtaposed (l.node ns) node = juxtaposed (l.node ns') node := by
  have hempty : ns.isEmpty = ns'.isEmpty := by
    rw [Bool.eq_iff_iff, List.isEmpty_iff, List.isEmpty_iff]
    exact h
  cases l with
  | bracket before b after =>
    cases b <;> simp [Layer.node, Bracket.node, juxtaposed, isOperand, hempty]
  | exponent before init base hbase after => simp [Layer.node, juxtaposed, isOperand]

theorem printed_congr (d : Dialect) (l : Layer) (h : ns = [] ↔ ns' = []) (inner : String) :
    l.printed d ns inner = l.printed d ns' inner := by
  have hbefore : between l.init.getLast? (l.node ns) = between l.init.getLast? (l.node ns') := by
    cases l.init.getLast? with
    | none => rfl
    | some p => simp [between, (l.juxtaposed_node h p).1]
  have hafter : printSiblings d (some (l.node ns)) l.after.nodes
      = printSiblings d (some (l.node ns')) l.after.nodes := by
    cases l.after.nodes with
    | nil => rfl
    | cons n rest =>
      rw [printSiblings_cons, printSiblings_cons d (some (l.node ns')), between, between]
      simp [(l.juxtaposed_node h n).2]
  rw [printed, hbefore, hafter]
  rfl

end Layer

/-! ## Layers around layers -/

/-- Markup inside all layers, the innermost first. -/
def within : List Layer → String → String
  | [], m => m
  | l :: layers, m => within layers (l.markup m)

def nodesWithin : List Layer → List Node → List Node
  | [], ns => ns
  | l :: layers, ns => nodesWithin layers (l.nodes ns)

/-- What is printed with all layers, from what is printed of the siblings inside. -/
def printedWithin (d : Dialect) : List Layer → List Node → String → String
  | [], _, inner => inner
  | l :: layers, ns, inner => printedWithin d layers (l.nodes ns) (l.printed d ns inner)

variable {m : String} {ns ns' : List Node}

theorem readable_within (layers : List Layer) (h : Readable m ns) :
    Readable (within layers m) (nodesWithin layers ns) := by
  induction layers generalizing m ns with
  | nil => exact h
  | cons l layers ih => exact ih (l.readable h)

theorem printSiblings_within (d : Dialect) (layers : List Layer) (ns : List Node) :
    printSiblings d none (nodesWithin layers ns)
      = printedWithin d layers ns (printSiblings d none ns) := by
  induction layers generalizing ns with
  | nil => rfl
  | cons l layers ih => rw [nodesWithin, printedWithin, ih, l.printSiblings_nodes]

theorem printedWithin_congr (d : Dialect) (layers : List Layer) (h : ns = [] ↔ ns' = [])
    (inner : String) :
    printedWithin d layers ns inner = printedWithin d layers ns' inner := by
  induction layers generalizing ns ns' inner with
  | nil => rfl
  | cons l layers ih =>
    have hlayer : l.nodes ns = [] ↔ l.nodes ns' = [] := by simp [Layer.nodes]
    rw [printedWithin, printedWithin, l.printed_congr d h, ih hlayer]

/-- Markup inside layers is converted to what the layers print around it. -/
theorem convert_within (d : Dialect) (layers : List Layer) (h : Readable m ns)
    (hlimit : WithinLimit (within layers m)) :
    d.convert (within layers m)
      = d.finish (printedWithin d layers ns (printSiblings d none ns)) := by
  rw [convert, (readable_within layers h).ofMarkup_eq hlimit, print, printSiblings_within]

end FormulaDesk
