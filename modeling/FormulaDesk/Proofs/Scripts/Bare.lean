import FormulaDesk.Proofs.Balance.Reading
import FormulaDesk.Proofs.Reading.Conservation

/-! # Markup without structure

Where braces are the only structure, the plain text of a tree is all that was typed, without braces
and blanks (`plainTexts_bare`). It is read off the leaves, which keep what was typed.
-/

namespace FormulaDesk.Markup

variable {flat : Prop} {c : Char} {ts : List Token} {nodes : List Node} {node : Node}

/-- The characters that give markup more structure than braces do. -/
def structuring : List Char := ['\\', '(', ')', '[', ']', '^', '_']

/-- The token is a character without structure, or a brace. -/
def Token.isBare : Token → Bool
  | .char c => !structuring.contains c
  | .command _ => false

/-- The plain text of a node is all that was typed of it. -/
def Spells (n : Node) : Prop := n.plainText.toList = ungrouped n.leafText

/-- Siblings that each spell their leaves do so together. -/
theorem spells_of_forall (h : ∀ n ∈ nodes, Spells n) :
    (Node.plainTexts nodes).toList = ungrouped (Node.leafTexts nodes) := by
  induction nodes with
  | nil => rfl
  | cons n ns ih =>
    rw [List.forall_mem_cons] at h
    rw [Node.plainTexts, Node.leafTexts, ungrouped_append, String.toList_append, h.1, ih h.2]

/-- A group spells what its members spell. -/
theorem spells_group (h : ∀ n ∈ nodes, Spells n) : Spells (.group nodes) := spells_of_forall h

/-- A run accepts no grouping character. -/
theorem isGrouping_eq_false_of {accept : Char → Bool}
    (haccept : groupingChars.all (fun g => !accept g) = true) (hc : accept c = true) :
    isGrouping c = false := by
  by_contra hgroup
  simp only [isGrouping, List.contains_eq_mem, decide_eq_false_iff_not, not_not] at hgroup
  have hno := List.all_eq_true.mp haccept c hgroup
  simp [hc] at hno

/-- A text without grouping characters stays whole. -/
theorem ungrouped_eq_self {cs : List Char} (h : ∀ c ∈ cs, isGrouping c = false) :
    ungrouped cs = cs := by
  simpa [ungrouped] using h

/-- A number or a word that was read has no grouping character. -/
theorem ungrouped_readRun {accept : Char → Bool} (single : Bool)
    (haccept : groupingChars.all (fun g => !accept g) = true) (hc : accept c = true)
    (ts : List Token) :
    (readRun single accept c ts).1.toList = ungrouped (readRun single accept c ts).1.toList := by
  refine (ungrouped_eq_self fun d hd => ?_).symm
  cases single with
  | true =>
    obtain rfl : d = c := by simpa [readRun] using hd
    exact isGrouping_eq_false_of haccept hc
  | false =>
    simp only [readRun, Bool.false_eq_true, if_false, String.toList_ofList, List.mem_cons] at hd
    rcases hd with rfl | hd
    · exact isGrouping_eq_false_of haccept hc
    · exact isGrouping_eq_false_of haccept (takeRun_accepted accept ts d hd)

/-- A bare character that is no brace is text of its own. -/
theorem spells_singleton (hc : (Token.char c).isBare = true) (hopen : c ≠ '{')
    (hclose : c ≠ '}') : ungrouped (String.singleton c).toList = (String.singleton c).toList := by
  refine ungrouped_eq_self fun d hd => ?_
  obtain rfl : d = c := by simpa using hd
  simp only [Token.isBare, structuring, Bool.not_eq_true', List.contains_eq_mem,
    decide_eq_false_iff_not, List.mem_cons, List.not_mem_nil, or_false, not_or] at hc
  simp [isGrouping, groupingChars, hopen, hclose, hc]

/-- A token that an operand can begin with is no closing brace. -/
theorem ne_brace_of_endsOperand {stops : Stops} (h : (Token.char c).endsOperand stops = false) :
    c ≠ '}' := by
  rintro rfl
  have hbrace : (Token.char '}').closer? = some .brace := rfl
  simp [Token.endsOperand, hbrace] at h

/-- Beyond the limit a bare character spells itself. -/
theorem spells_flatAtom {t : Token} {stops : Stops} (ht : t.isBare = true)
    (hend : t.endsOperand stops = false) (ts : List Token) : Spells (flatAtom t ts).1 := by
  cases t with
  | command name => simp [Token.isBare] at ht
  | char c =>
    have hclose := ne_brace_of_endsOperand hend
    unfold flatAtom
    dsimp only
    split_ifs with hbrace hopen
    · rfl
    · simp only [Bool.or_eq_true, beq_iff_eq] at hopen
      rcases hopen with rfl | rfl <;> exact absurd ht (by decide)
    all_goals exact (spells_singleton ht (by simpa using hbrace) hclose).symm

mutual

/-- Bare siblings spell their leaves. -/
theorem ReadsSiblings.spells {stops room acc ts nodes after} (hts : ∀ t ∈ ts, t.isBare = true)
    (hacc : ∀ n ∈ acc, Spells n) :
    ReadsSiblings flat stops room acc ts nodes after → ∀ n ∈ nodes, Spells n
  | .finish => by simpa using hacc
  | .stop _ => by simpa using hacc
  | .blank _ _ h => h.spells (List.forall_mem_cons.mp hts).2 hacc
  | .strayBrace _ h => h.spells (List.forall_mem_cons.mp hts).2 hacc
  | .operand _ _ _ hnode h =>
    h.spells (fun t ht => hts t (hnode.suffix.subset ht))
      (List.forall_mem_cons.mpr ⟨hnode.spells hts, hacc⟩)
  -- the other tokens give structure
  | .strayParen _ _ | .strayBracket _ _ | .strayRight _ _ | .power _ _ | .script _ _ =>
    absurd (hts _ List.mem_cons_self) (by decide)

/-- A bare atom spells its leaf. -/
theorem ReadsAtom.spells {stops room single ts node after} (hts : ∀ t ∈ ts, t.isBare = true) :
    ReadsAtom flat stops room single ts node after → Spells node
  | .missing _ => rfl
  | .ended _ _ => rfl
  | .limit _ hskip hend =>
    have hmem := (skipBlanks_suffix ts).subset (hskip ▸ List.mem_cons_self)
    spells_flatAtom (hts _ hmem) hend _
  | .nested hskip hend h =>
    h.spells (fun t ht => hts t ((skipBlanks_suffix ts).subset (hskip ▸ ht))) hend

/-- A bare part spells its leaves. -/
theorem ReadsNested.spells {stops room single t ts node after}
    (hts : ∀ u ∈ t :: ts, u.isBare = true) (hend : t.endsOperand stops = false) :
    ReadsNested flat stops room single t ts node after → Spells node
  | .group h => spells_group (h.spells (List.forall_mem_cons.mp hts).2 (by simp))
  | .number hnum => ungrouped_readRun single (by decide) hnum ts
  | .word _ hletter => ungrouped_readRun single (by decide) hletter ts
  | .text hopen _ _ =>
    (spells_singleton (hts _ List.mem_cons_self) hopen.1 (ne_brace_of_endsOperand hend)).symm
  | .paren _ | .bracket _ | .delimited _ | .set _ | .fraction _ _ _ | .indexedRoot _ _ _ | .root _ _
  | .namedFunction _ _ _ | .named _ _ | .function _ _ _ | .command _ _ =>
    absurd (hts _ List.mem_cons_self) (by simp [Token.isBare, structuring])

end

/-- Markup with no structure but braces. -/
def isBareMarkup (m : String) : Bool := m.toList.all fun c => !structuring.contains c

/-- What is typed in such markup, without blanks and braces. -/
def typedOf (m : String) : List Char :=
  m.toList.filter fun c => !(Text.isBlank c || c == '{' || c == '}')

/-- Text without a structuring character is scanned character by character. -/
theorem scan_bare {cs : List Char} (h : ∀ c ∈ cs, structuring.contains c = false) :
    Token.scan none cs = cs.map Token.char := by
  induction cs with
  | nil => rfl
  | cons c cs ih =>
    rw [List.forall_mem_cons] at h
    have hslash : c ≠ '\\' := by
      rintro rfl
      exact absurd h.1 (by decide)
    simp [Token.scan, hslash, ih h.2]

/-- Of bare characters, all but blanks and braces count as typed. -/
theorem typedText_bare {cs : List Char} (h : ∀ c ∈ cs, structuring.contains c = false) :
    typedText false (cs.map Token.char)
      = cs.filter fun c => !(Text.isBlank c || c == '{' || c == '}') := by
  induction cs with
  | nil => rfl
  | cons c cs ih =>
    rw [List.forall_mem_cons] at h
    have hstructure := h.1
    simp only [structuring, List.contains_eq_mem, decide_eq_false_iff_not, List.mem_cons,
      List.not_mem_nil, or_false, not_or] at hstructure
    have hgroup : isGrouping c = (c == '{' || c == '}') := by
      simp [isGrouping, groupingChars, hstructure, Bool.beq_eq_decide_eq]
    rw [List.map_cons, typedText, List.filter_cons, Bool.or_assoc, ← hgroup]
    simp only [Token.typed, Token.takesDelimiter, Bool.false_eq_true, if_false, ih h.2]
    cases Text.isBlank c || isGrouping c <;> rfl

/-- The plain text of markup with no structure but braces is what was typed. -/
theorem plainTexts_bare {m : String} (h : isBareMarkup m = true) :
    (Node.plainTexts (Node.ofMarkup m)).toList = typedOf m := by
  have hchars : ∀ c ∈ m.toList, structuring.contains c = false := by
    simpa [isBareMarkup] using h
  have htokens : Token.ofString m = m.toList.map Token.char := scan_bare hchars
  have hbare : ∀ t ∈ Token.ofString m, t.isBare = true := by
    rw [htokens]
    simpa [Token.isBare] using hchars
  have hcommand : ∀ name, .command name ∉ Token.ofString m := by simp [htokens]
  have hspelled : Spelled (Token.ofString m) := {
    unnamed := hcommand _
    scriptless := fun name rest hsuffix =>
      absurd (hsuffix.subset List.mem_cons_self) (hcommand name)
    delimited := fun t u rest hsuffix ht => by
      cases t with
      | char c => simp [Token.takesDelimiter] at ht
      | command name => exact absurd (hsuffix.subset List.mem_cons_self) (hcommand name) }
  -- no node of bare markup has structure, so its plain text is the text of its leaves
  have hnodes := (ofTokens_reads_all (Token.ofString m)).spells hbare (by simp)
  rw [Node.ofMarkup, spells_of_forall hnodes, ← Node.ofMarkup, ofMarkup_keeps_text hspelled,
    htokens, typedText_bare hchars, typedOf]

end FormulaDesk.Markup
