import FormulaDesk.Proofs.Formula.Basic

/-! # How the markup of a formula is read

The nodes that a formula is read as, wherever it stands and with any room that its depth allows.
-/

namespace FormulaDesk

open Markup

namespace Formula

/-! ## Nodes -/

/-- One node for an operand: in parentheses if it needs them. -/
def wrappedNode (needed : Bool) (ns : List Node) : Node :=
  match needed, ns with
  | false, [node] => node
  | _, ns => .delimited "(" ")" ns

/-- The nodes that a formula is read as. -/
def nodes : Formula → List Node
  | .numeral n => [.number n.text]
  | .var v => [.word (String.singleton v.char)]
  | .euler => [.word "e"]
  | .pi => [.command "pi"]
  | .sum a b => [wrappedNode a.isCompound a.nodes, .text "+", wrappedNode b.isCompound b.nodes]
  | .difference a b =>
    [wrappedNode a.isCompound a.nodes, .text "-", wrappedNode b.isCompound b.nodes]
  | .negation a => [.text "-", wrappedNode a.isCompound a.nodes]
  | .product true a b =>
    [wrappedNode a.isCompound a.nodes, .command "cdot", wrappedNode b.isCompound b.nodes]
  | .product false a b => [wrappedNode a.isCompound a.nodes, wrappedNode b.isCompound b.nodes]
  | .quotient a b =>
    [wrappedNode a.isCompound a.nodes, .command "div",
      wrappedNode (b.isCompound || b.isFraction) b.nodes]
  | .fraction a b => [.fraction (.group a.nodes) (.group b.nodes)]
  | .power a b =>
    [.superscript (some (wrappedNode (a.isCompound || a.isPower) a.nodes)) (.group b.nodes)]
  | .sqrt a => [.root (.group a.nodes) none]
  | .root index a => [.root (.group a.nodes) (some (.group index.nodes))]
  | .abs a => [.delimited "|" "|" a.nodes]
  | .apply fn a => [.function fn (some (.delimited "(" ")" a.nodes)) none none]

/-- A formula that is an operand is one node. -/
theorem nodes_of_not_compound {a : Formula} (h : a.isCompound = false) :
    ∃ node, a.nodes = [node] := by
  cases a <;> simp_all [isCompound, nodes]

/-- Levels of grouping that suffice for a formula. -/
def depth : Formula → Nat
  | .sum a b => max a.depth b.depth + 2
  | .difference a b => max a.depth b.depth + 2
  | .negation a => a.depth + 2
  | .product _ a b => max a.depth b.depth + 2
  | .quotient a b => max a.depth b.depth + 2
  | .fraction a b => max a.depth b.depth + 2
  | .power a b => max a.depth b.depth + 2
  | .sqrt a => a.depth + 2
  | .root index a => max index.depth a.depth + 2
  | .abs a => a.depth + 2
  | .apply _ a => a.depth + 2
  | _ => 1

/-! ## Reading -/

/-- The formula is read as its nodes with this much room or more. -/
def ReadsFrom (room : Nat) (a : Formula) : Prop :=
  ∀ room', room ≤ room' → Emits room' a.markup a.nodes

theorem ReadsFrom.wrapped {room room' : Nat} {a : Formula} {needed : Bool} (h : a.ReadsFrom room)
    (hneeded : a.isCompound = true → needed = true) (hroom : room + 1 ≤ room') :
    Emits room' (wrapped needed a.markup) [wrappedNode needed a.nodes] := by
  cases needed with
  | true =>
    obtain ⟨room', rfl⟩ : ∃ r, room' = r + 1 := ⟨room' - 1, by omega⟩
    exact (h room' (by omega)).leftRight.isOperand.emits
  | false =>
    obtain ⟨node, hnode⟩ : ∃ node, a.nodes = [node] :=
      nodes_of_not_compound (by simpa using hneeded)
    have hread := h room' (by omega)
    rw [hnode] at hread ⊢
    exact hread

theorem isNumberChar_of_mem_text {n : Numeral} {c : Char} (hc : c ∈ n.text.toList) :
    isNumberChar c = true := by
  rcases n.mem_text hc with hdigit | rfl
  · simp [isNumberChar, Text.isDigit, (Text.classes_of_isAsciiDigit hdigit).1]
  · rfl

/-- Two operands with a command and a blank between them. -/
theorem emits_around_command {room : Nat} {s s' name : String} {node node' : Node}
    (hname : IsOperand room (commandOf name) (.command name)) (h : Emits room s [node])
    (h' : Emits room s' [node']) :
    Emits room (s ++ (commandOf name ++ " ") ++ s') [node, .command name, node'] := by
  rw [String.append_assoc]
  refine h.append (hname.emits.blank h') fun cs _ => ?_
  have hslash : EndsRun ('\\' :: (name.toList ++ (' ' :: (s'.toList ++ cs)))) :=
    .cons (by decide) (by decide)
  simpa [commandOf] using hslash

theorem isOperand_plain_command {room : Nat} {name : String}
    (hname : name ∈ ["pi", "cdot", "div"]) :
    IsOperand (room + 1) (commandOf name) (.command name) := by
  simp only [List.mem_cons, List.not_mem_nil, or_false] at hname
  rcases hname with rfl | rfl | rfl <;>
    exact isOperand_command (by decide) (by decide) (by decide) (by decide) (by decide)

/-- Wherever the markup of a formula stands, it is read as the nodes of the formula. -/
theorem readsFrom (a : Formula) : a.ReadsFrom a.depth := by
  -- A part is read with the room that its construct leaves, so `depth` counts the levels that the
  -- construct spends: its own and one for parentheses or braces.
  induction a with
  | numeral n =>
    intro room hroom
    obtain ⟨room, rfl⟩ := Nat.exists_eq_add_of_le' hroom
    exact (isOperand_number n.text_ne_empty fun c => isNumberChar_of_mem_text).emits
  | var v =>
    intro room hroom
    obtain ⟨room, rfl⟩ := Nat.exists_eq_add_of_le' hroom
    exact (isOperand_letter v.isLetter).emits
  | euler =>
    intro room hroom
    obtain ⟨room, rfl⟩ := Nat.exists_eq_add_of_le' hroom
    exact (isOperand_letter (c := 'e') (by decide)).emits
  | pi =>
    intro room hroom
    obtain ⟨room, rfl⟩ := Nat.exists_eq_add_of_le' hroom
    exact (isOperand_plain_command (by decide)).emits
  | sum a b iha ihb =>
    intro room hroom
    simp only [depth] at hroom
    obtain ⟨room, rfl⟩ : ∃ r, room = r + 1 := ⟨room - 1, by omega⟩
    exact (iha.wrapped id (by omega)).around_symbol (c := '+') (by decide)
      (ihb.wrapped id (by omega))
  | difference a b iha ihb =>
    intro room hroom
    simp only [depth] at hroom
    obtain ⟨room, rfl⟩ : ∃ r, room = r + 1 := ⟨room - 1, by omega⟩
    exact (iha.wrapped id (by omega)).around_symbol (c := '-') (by decide)
      (ihb.wrapped id (by omega))
  | negation a ih =>
    intro room hroom
    simp only [depth] at hroom
    obtain ⟨room, rfl⟩ : ∃ r, room = r + 1 := ⟨room - 1, by omega⟩
    exact (ih.wrapped id (by omega)).after_symbol (c := '-') (by decide)
  | product dotted a b iha ihb =>
    intro room hroom
    simp only [depth] at hroom
    obtain ⟨room, rfl⟩ : ∃ r, room = r + 1 := ⟨room - 1, by omega⟩
    have ha : Emits (room + 1) _ _ := iha.wrapped id (by omega)
    have hb : Emits (room + 1) _ _ := ihb.wrapped id (by omega)
    cases dotted with
    | true => exact emits_around_command (isOperand_plain_command (by decide)) ha hb
    | false => exact ha.blank hb
  | quotient a b iha ihb =>
    intro room hroom
    simp only [depth] at hroom
    obtain ⟨room, rfl⟩ : ∃ r, room = r + 1 := ⟨room - 1, by omega⟩
    have ha : Emits (room + 1) _ _ := iha.wrapped id (by omega)
    have hb : Emits (room + 1) (Formula.wrapped (b.isCompound || b.isFraction) b.markup) _ :=
      ihb.wrapped (by simp_all) (by omega)
    exact emits_around_command (isOperand_plain_command (by decide)) ha hb
  | fraction a b iha ihb =>
    intro room hroom
    simp only [depth] at hroom
    obtain ⟨room, rfl⟩ : ∃ r, room = r + 2 := ⟨room - 2, by omega⟩
    exact (isOperand_frac (iha room (by omega)) (ihb room (by omega))).emits
  | power a b iha ihb =>
    intro room hroom
    simp only [depth] at hroom
    obtain ⟨room, rfl⟩ : ∃ r, room = r + 1 := ⟨room - 1, by omega⟩
    have ha : Emits (room + 1) (Formula.wrapped (a.isCompound || a.isPower) a.markup) _ :=
      iha.wrapped (by simp_all) (by omega)
    exact ha.superscript (ihb room (by omega)).braced.isScript
  | sqrt a ih =>
    intro room hroom
    simp only [depth] at hroom
    obtain ⟨room, rfl⟩ : ∃ r, room = r + 2 := ⟨room - 2, by omega⟩
    exact (isOperand_sqrt (ih room (by omega))).emits
  | root index a ihindex ih =>
    intro room hroom
    simp only [depth] at hroom
    obtain ⟨room, rfl⟩ : ∃ r, room = r + 2 := ⟨room - 2, by omega⟩
    exact (isOperand_root (ih room (by omega)) (ihindex (room + 1) (by omega))).emits
  | abs a ih =>
    intro room hroom
    simp only [depth] at hroom
    obtain ⟨room, rfl⟩ : ∃ r, room = r + 1 := ⟨room - 1, by omega⟩
    exact (ih room (by omega)).barred.isOperand.emits
  | apply fn a ih =>
    intro room hroom
    simp only [depth] at hroom
    obtain ⟨room, rfl⟩ : ∃ r, room = r + 2 := ⟨room - 2, by omega⟩
    exact (ih room (by omega)).leftRight.isApplied.isOperand.emits

/-- Markup of a formula within the limit is read as the nodes of the formula. -/
theorem ofMarkup_markup {a : Formula} (h : WithinLimit a.markup) :
    Node.ofMarkup a.markup = a.nodes :=
  h.eq_of_reads (a.readsFrom a.depth (Nat.le_refl _)).reads

end Formula

end FormulaDesk
