import FormulaDesk.Proofs.Formula.Reading
import FormulaDesk.Proofs.Reading.Conservation
import FormulaDesk.Proofs.Text.Classes

/-! # What the plain text of a script says

A fraction, a root, a power and a function have no plain text, so the plain text of a formula may
leave out a part of it. The formulas with the plain text `-1`, those without one and those with the
plain text `10` are told by their shape.
-/

namespace FormulaDesk

open Markup

namespace Formula

/-! ## Shapes -/

/-- The formulas that have no plain text. -/
def isSilent : Formula → Bool
  | .fraction _ _ => true
  | .power _ _ => true
  | .sqrt _ => true
  | .root _ _ => true
  | .apply _ _ => true
  | _ => false

/-- The numeral with this text. -/
def isLiteral (text : String) : Formula → Bool
  | .numeral n => n.text == text
  | _ => false

/-- A minus sign and the numeral one. -/
def isMinusOne : Formula → Bool
  | .negation a => a.isLiteral "1"
  | _ => false

/-- One taken from a formula without plain text. -/
def endsInMinusOne : Formula → Bool
  | .difference a b => a.isSilent && b.isLiteral "1"
  | _ => false

/-- The formulas of which nothing is left in plain text. -/
def leavesNothing : Formula → Bool
  | .product false a b => a.isSilent && b.isSilent
  | a => a.isSilent

/-- The formulas of which ten is left in plain text: a factor without plain text, and the digits of
two factors side by side, count for nothing. -/
def leavesTen : Formula → Bool
  | .numeral n => n.text == "10"
  | .product false a b =>
    a.isSilent && b.isLiteral "10" || a.isLiteral "10" && b.isSilent
      || a.isLiteral "1" && b.isLiteral "0"
  | _ => false

/-! ## Operands -/

/-- What the plain text of an operand may be. -/
inductive OperandText : Formula → List Char → Prop
  | silent {a} (hsilent : a.isSilent = true) (hliteral : ∀ s, a.isLiteral s = false) :
      OperandText a []
  | numeral (n : Numeral) : OperandText (.numeral n) n.text.toList
  | other {a c cs} (hsilent : a.isSilent = false) (hliteral : ∀ s, a.isLiteral s = false)
      (hnumber : isNumberChar c = false) (hminus : c ≠ '-') : OperandText a (c :: cs)

/-- A text that begins with a letter is none of the texts that name a mark. -/
theorem operandText_of_letter {a : Formula} {c : Char} {cs : List Char}
    (hc : Text.isAsciiLetter c = true) (hsilent : a.isSilent = false)
    (hliteral : ∀ s, a.isLiteral s = false) : OperandText a (c :: cs) := by
  have hpoint : c ≠ '.' := by
    rintro rfl
    exact absurd hc (by decide)
  refine .other hsilent hliteral ?_ ?_
  · simp [isNumberChar, (Text.classes_of_isAsciiLetter hc).2.1, hpoint]
  · rintro rfl
    exact absurd hc (by decide)

/-- A text that begins with a bracket is none of the texts that name a mark. -/
theorem operandText_of_bracket {a : Formula} {c : Char} {cs : List Char} (hc : c ∈ ['(', '|'])
    (hsilent : a.isSilent = false) (hliteral : ∀ s, a.isLiteral s = false) :
    OperandText a (c :: cs) := by
  simp only [List.mem_cons, List.not_mem_nil, or_false] at hc
  rcases hc with rfl | rfl <;> exact .other hsilent hliteral (by decide) (by decide)

/-- What a formula's operand can leave as plain text. -/
theorem operandText (a : Formula) :
    OperandText a (wrappedNode a.isCompound a.nodes).plainText.toList := by
  cases a
  case numeral n => exact .numeral n
  case var v =>
    have hletter : OperandText (.var v) [v.char] :=
      operandText_of_letter v.isLetter rfl fun _ => rfl
    simpa [wrappedNode, isCompound, nodes, Node.plainText] using hletter
  case euler => exact operandText_of_letter (c := 'e') (by decide) rfl fun _ => rfl
  case pi => exact operandText_of_letter (c := 'p') (by decide) rfl fun _ => rfl
  case abs a =>
    simpa [wrappedNode, isCompound, nodes, Node.plainText] using
      operandText_of_bracket (c := '|') (by decide) rfl fun _ => rfl
  case fraction | power | sqrt | root | apply => exact .silent rfl fun _ => rfl
  -- the others are in parentheses
  all_goals
    simpa [wrappedNode, isCompound, Node.plainText] using
      operandText_of_bracket (c := '(') (by decide) rfl fun _ => rfl

variable {a b : Formula} {s t u : List Char}

/-- Only a silent formula leaves nothing. -/
theorem OperandText.eq_nil_iff (h : OperandText a s) : s = [] ↔ a.isSilent = true := by
  cases h with
  | silent hsilent => simp [hsilent]
  | numeral n =>
    have hne : n.text.toList ≠ [] := by simpa using n.text_ne_empty
    simp [hne, isSilent]
  | other hsilent => simp [hsilent]

/-- Digits are those of a numeral. -/
theorem OperandText.eq_digits_iff (h : OperandText a s) (c : Char) (cs : List Char)
    (hc : isNumberChar c = true) :
    s = c :: cs ↔ a.isLiteral (String.ofList (c :: cs)) = true := by
  cases h with
  | silent _ hliteral => simp [hliteral]
  | numeral n =>
    rw [isLiteral, beq_iff_eq, ← String.toList_inj, String.toList_ofList]
  | other _ hliteral hnumber =>
    rw [hliteral, List.cons.injEq]
    have hne : ∀ {d}, isNumberChar d = false → d ≠ c := by
      rintro d hd rfl
      simp [hd] at hc
    simp [hne hnumber]

/-- An operand does not start with a minus sign. -/
theorem OperandText.append_eq_minus_iff (h : OperandText a s) :
    s ++ t = '-' :: u ↔ s = [] ∧ t = '-' :: u := by
  cases h with
  | silent => simp
  | numeral n =>
    obtain ⟨c, cs, htext⟩ := List.exists_cons_of_ne_nil
      (show n.text.toList ≠ [] by simpa using n.text_ne_empty)
    have hc : c ≠ '-' := by
      rintro rfl
      rcases n.mem_text (htext ▸ List.mem_cons_self) with hdigit | hpoint
      · exact absurd hdigit (by decide)
      · exact absurd hpoint (by decide)
    simp [htext, hc]
  | other _ _ _ hminus => simp [hminus]

/-- No operand's text begins with a minus, since a negation is put in parentheses. -/
theorem OperandText.ne_minus (h : OperandText a s) : s ≠ '-' :: u := by
  intro hs
  have happend : s ++ [] = '-' :: u := by rw [List.append_nil, hs]
  obtain ⟨rfl, -⟩ := h.append_eq_minus_iff.mp happend
  simp at hs

/-! ## Formulas -/

/-- The plain text of a formula. -/
def plain (a : Formula) : List Char := (Node.plainTexts a.nodes).toList

/-- A formula that needs no parentheses leaves the text of an operand. -/
theorem operandText_plain (h : a.isCompound = false) : OperandText a a.plain := by
  obtain ⟨node, hnode⟩ := nodes_of_not_compound h
  have htext := operandText a
  rw [h, hnode] at htext
  simpa [plain, hnode, Node.plainTexts, wrappedNode] using htext

/-- The shapes of a formula without parentheses: it is no minus one, and ten only as a literal. -/
theorem shapes_of_not_compound (h : a.isCompound = false) :
    a.isMinusOne = false ∧ a.endsInMinusOne = false ∧ a.leavesNothing = a.isSilent ∧
      a.leavesTen = a.isLiteral "10" := by
  cases a <;> first | exact ⟨rfl, rfl, rfl, rfl⟩ | simp [isCompound] at h

/-- How the operands of a compound formula are joined. -/
inductive Joined : Formula → Prop
  | negation (a : Formula) : Joined (.negation a)
  | difference (a b : Formula) : Joined (.difference a b)
  | blank (a b : Formula) : Joined (.product false a b)
  /-- With an operator that starts with neither a sign nor a digit. -/
  | other {a : Formula} {c : Char} (hc : c ∈ ['+', 'c', 'd']) (hmem : c ∈ a.plain)
      (hshapes : a.isMinusOne = false ∧ a.endsInMinusOne = false ∧ a.leavesNothing = false ∧
        a.leavesTen = false) : Joined a

/-- A compound formula leaves two operands with a sign between them. -/
theorem joined (h : a.isCompound = true) : Joined a := by
  cases a
  case negation a => exact .negation a
  case difference a b => exact .difference a b
  case sum a b =>
    refine .other (c := '+') (by decide) ?_ ⟨rfl, rfl, rfl, rfl⟩
    simp [plain, nodes, Node.plainTexts, Node.plainText]
  case product dotted a b =>
    cases dotted with
    | false => exact .blank a b
    | true =>
      refine .other (c := 'c') (by decide) ?_ ⟨rfl, rfl, rfl, rfl⟩
      simp [plain, nodes, Node.plainTexts, Node.plainText]
  case quotient a b =>
    refine .other (c := 'd') (by decide) ?_ ⟨rfl, rfl, rfl, rfl⟩
    simp [plain, nodes, Node.plainTexts, Node.plainText]
  all_goals simp [isCompound] at h

/-- A negation leaves a minus in front of its operand. -/
theorem plain_negation (a : Formula) :
    (negation a).plain = '-' :: (wrappedNode a.isCompound a.nodes).plainText.toList := by
  simp [plain, nodes, Node.plainTexts, Node.plainText]

/-- A difference leaves a minus between its operands. -/
theorem plain_difference (a b : Formula) : (difference a b).plain
    = (wrappedNode a.isCompound a.nodes).plainText.toList
      ++ '-' :: (wrappedNode b.isCompound b.nodes).plainText.toList := by
  simp [plain, nodes, Node.plainTexts, Node.plainText]

/-- With nothing but a blank between two factors their plain texts run together. -/
theorem plain_product (a b : Formula) : (product false a b).plain
    = (wrappedNode a.isCompound a.nodes).plainText.toList
      ++ (wrappedNode b.isCompound b.nodes).plainText.toList := by
  simp [plain, nodes, Node.plainTexts]

/-- A text with a character of its own is none of the marks. -/
theorem Joined.ne_of_other {c : Char} (hc : c ∈ ['+', 'c', 'd']) (hmem : c ∈ a.plain)
    (hs : ∀ d ∈ s, d ∈ ['-', '1', '0']) : a.plain ≠ s := by
  rintro rfl
  have hdigits := hs c hmem
  simp only [List.mem_cons, List.not_mem_nil, or_false] at hc hdigits
  rcases hc with rfl | rfl | rfl <;> simp at hdigits

/-- The plain text is `-1` for minus one itself, and where one is taken from a formula without plain
text. -/
theorem plain_eq_minusOne_iff (a : Formula) :
    a.plain = ['-', '1'] ↔ a.isMinusOne = true ∨ a.endsInMinusOne = true := by
  cases hcompound : a.isCompound with
  | false =>
    obtain ⟨hminus, hends, -, -⟩ := shapes_of_not_compound hcompound
    simp [(operandText_plain hcompound).ne_minus, hminus, hends]
  | true =>
    cases joined hcompound with
    | negation a =>
      have ha := (operandText a).eq_digits_iff '1' [] (by decide)
      rw [plain_negation, List.cons.injEq, ha]
      simp [isMinusOne, endsInMinusOne]
    | difference a b =>
      -- a text that ends in `-1` is only this if nothing is left of what stands before
      have hb := (operandText b).eq_digits_iff '1' [] (by decide)
      rw [plain_difference, (operandText a).append_eq_minus_iff, (operandText a).eq_nil_iff,
        List.cons.injEq, hb]
      simp [isMinusOne, endsInMinusOne]
    | blank a b =>
      rw [plain_product, (operandText a).append_eq_minus_iff]
      simp [(operandText b).ne_minus, isMinusOne, endsInMinusOne]
    | other hc hmem hshapes =>
      have hne : a.plain ≠ ['-', '1'] := Joined.ne_of_other hc hmem (by simp)
      simp [hne, hshapes]

/-- Which formulas leave no text at all. -/
theorem plain_eq_nil_iff (a : Formula) : a.plain = [] ↔ a.leavesNothing = true := by
  cases hcompound : a.isCompound with
  | false =>
    obtain ⟨-, -, hnothing, -⟩ := shapes_of_not_compound hcompound
    rw [(operandText_plain hcompound).eq_nil_iff, hnothing]
  | true =>
    cases joined hcompound with
    | negation a => simp [plain_negation, leavesNothing, isSilent]
    | difference a b => simp [plain_difference, leavesNothing, isSilent]
    | blank a b =>
      rw [plain_product, List.append_eq_nil_iff, (operandText a).eq_nil_iff,
        (operandText b).eq_nil_iff]
      simp [leavesNothing]
    | other hc hmem hshapes =>
      have hne : a.plain ≠ [] := Joined.ne_of_other hc hmem (by simp)
      simp [hne, hshapes]

/-- Two characters of a text in two parts. -/
theorem append_eq_pair_iff {c d : Char} :
    s ++ t = [c, d] ↔ s = [] ∧ t = [c, d] ∨ s = [c] ∧ t = [d] ∨ s = [c, d] ∧ t = [] := by
  rcases s with _ | ⟨e, _ | ⟨f, s⟩⟩ <;> simp [and_assoc]

/-- Which formulas leave the text `10`. -/
theorem plain_eq_ten_iff (a : Formula) : a.plain = ['1', '0'] ↔ a.leavesTen = true := by
  cases hcompound : a.isCompound with
  | false =>
    obtain ⟨-, -, -, hten⟩ := shapes_of_not_compound hcompound
    rw [(operandText_plain hcompound).eq_digits_iff '1' ['0'] (by decide), hten]
  | true =>
    cases joined hcompound with
    | negation a => simp [plain_negation, leavesTen]
    | difference a b =>
      -- the sign stays in the text
      have hmem : '-' ∈ (difference a b).plain := by simp [plain_difference]
      have hne : (difference a b).plain ≠ ['1', '0'] := by
        intro h
        rw [h] at hmem
        simp at hmem
      simp [hne, leavesTen]
    | blank a b =>
      have ha := operandText a
      have hb := operandText b
      rw [plain_product, append_eq_pair_iff, ha.eq_nil_iff, hb.eq_nil_iff,
        ha.eq_digits_iff '1' [] (by decide), ha.eq_digits_iff '1' ['0'] (by decide),
        hb.eq_digits_iff '0' [] (by decide), hb.eq_digits_iff '1' ['0'] (by decide)]
      simp [leavesTen, or_left_comm, or_comm]
    | other hc hmem hshapes =>
      have hne : a.plain ≠ ['1', '0'] := Joined.ne_of_other hc hmem (by simp)
      simp [hne, hshapes]

/-! ## Blanks -/

/-- The text has no blanks. -/
def Unspaced (s : String) : Prop := ∀ c ∈ s.toList, Text.isBlank c = false

instance : DecidablePred Unspaced := fun s =>
  decidable_of_iff (s.toList.all (fun c => !Text.isBlank c) = true) (by simp [Unspaced])

theorem Unspaced.append {s t : String} (hs : Unspaced s) (ht : Unspaced t) :
    Unspaced (s ++ t) := by
  intro c hc
  rw [String.toList_append, List.mem_append] at hc
  exact hc.elim (hs c) (ht c)

/-- Parentheses add no blank. -/
theorem unspaced_wrapped {ns : List Node} {needed : Bool} (h : Unspaced (Node.plainTexts ns)) :
    Unspaced (wrappedNode needed ns).plainText := by
  have hopen : Unspaced "(" := by decide
  have hclose : Unspaced ")" := by decide
  unfold wrappedNode
  split
  · simpa [Node.plainTexts] using h
  · exact (hopen.append h).append hclose

/-- Two operands with an operator between them. -/
theorem unspaced_around {a b : Formula} {needed needed' : Bool} {operator : String}
    (ha : Unspaced (Node.plainTexts a.nodes)) (hoperator : Unspaced operator)
    (hb : Unspaced (Node.plainTexts b.nodes)) :
    Unspaced ((wrappedNode needed a.nodes).plainText
      ++ (operator ++ ((wrappedNode needed' b.nodes).plainText ++ ""))) := by
  have hnone : Unspaced "" := by decide
  exact (unspaced_wrapped ha).append (hoperator.append ((unspaced_wrapped hb).append hnone))

/-- The plain text of a formula has no blank. -/
theorem unspaced_nodes (a : Formula) : Unspaced (Node.plainTexts a.nodes) := by
  have hnone : Unspaced "" := by decide
  have hplus : Unspaced "+" := by decide
  have hminus : Unspaced "-" := by decide
  have hcdot : Unspaced "cdot" := by decide
  have hdiv : Unspaced "div" := by decide
  have hbar : Unspaced "|" := by decide
  induction a with
  | numeral n =>
    intro c hc
    have hc : c ∈ n.text.toList := by simpa [nodes, Node.plainTexts, Node.plainText] using hc
    exact isBlank_of_isNumberChar (isNumberChar_of_mem_text hc)
  | var v =>
    intro c hc
    obtain rfl : c = v.char := by simpa [nodes, Node.plainTexts, Node.plainText] using hc
    exact (Text.classes_of_isAsciiLetter v.isLetter).2.2
  | euler =>
    have he : Unspaced "e" := by decide
    exact he
  | pi =>
    have hpi : Unspaced "pi" := by decide
    exact hpi
  | sum a b iha ihb => exact unspaced_around iha hplus ihb
  | difference a b iha ihb => exact unspaced_around iha hminus ihb
  | negation a ih => exact hminus.append ((unspaced_wrapped ih).append hnone)
  | product dotted a b iha ihb =>
    cases dotted with
    | true => exact unspaced_around iha hcdot ihb
    | false => exact (unspaced_wrapped iha).append ((unspaced_wrapped ihb).append hnone)
  | quotient a b iha ihb => exact unspaced_around iha hdiv ihb
  | abs a ih => exact ((hbar.append ih).append hbar).append hnone
  -- nothing is left of a node with structure
  | fraction | power | sqrt | root | apply => exact hnone

end Formula

/-- Stripping the plain text of a formula changes nothing. -/
theorem Formula.stripBlank_plain (a : Formula) : Text.stripBlank a.plain = a.plain :=
  Text.stripBlank_eq_self a.unspaced_nodes

end FormulaDesk
