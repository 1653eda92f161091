import FormulaDesk.Proofs.Dialect.Passes
import FormulaDesk.Proofs.Dialect.Siblings
import FormulaDesk.Proofs.Drawable.Basic
import FormulaDesk.Proofs.Formula.Printing

/-! # How a formula is drawn

In every dialect a formula is printed as one row of lexemes, so the two ways from its markup to the
graphing dialect meet: printing it there, and rewriting what is printed in the evaluable dialect
(`directGraphing_eq`).
-/

namespace FormulaDesk

open Markup Dialect

namespace Drawable

/-! ## The lexemes of a formula -/

def isEuler : Drawable → Bool
  | .euler => true
  | _ => false

def isFraction : Drawable → Bool
  | .fraction _ _ => true
  | _ => false

/-- The formulas that are typed with a minus in front. Before one of these a blank means no
product. -/
def startsMinus : Drawable → Bool
  | .negation _ => true
  | .sum a _ => a.startsMinus
  | .difference a _ => a.startsMinus
  | .product _ a _ => a.startsMinus
  | .quotient _ a _ => a.startsMinus
  | _ => false

def one : Lexeme := .number ⟨['1'], by decide, List.all_eq_true.mp (by decide)⟩

def parensIf (needed : Bool) (row : List Lexeme) : List Lexeme :=
  if needed then parens row else row

/-- The name of a function is one that the evaluator calls. -/
theorem callName_mem (fn : Fn) : fn.callName ∈ callNames := by
  cases fn <;> decide

/-- The call of a function; some are one divided by another. -/
def callRow (fn : Fn) (row : List Lexeme) : List Lexeme :=
  if fn.isReciprocal then
    parens (one :: .mark .slash :: .call fn.callName (callName_mem fn) :: parens row)
  else .call fn.callName (callName_mem fn) :: parens row

/-- The row that a formula is printed as. -/
def lexemes : Drawable → List Lexeme
  | .number value => [.number value]
  | .var v => [.letter v]
  | .euler => [.euler]
  | .pi => [.pi]
  | .sum a b => a.lexemes ++ .mark .plus :: b.lexemes
  | .difference a b => a.lexemes ++ .mark .minus :: b.lexemes
  | .negation a => .mark .minus :: a.lexemes
  | .product (.dot _) a b => a.lexemes ++ .times :: b.lexemes
  | .product .blank a b =>
    if b.startsMinus then a.lexemes ++ b.lexemes else a.lexemes ++ .times :: b.lexemes
  | .quotient _ a b => a.lexemes ++ .mark .slash :: b.lexemes
  | .fraction a b => parens a.lexemes ++ .mark .slash :: parens b.lexemes
  | .power a b =>
    if a.isEuler then .call "exp" (by decide) :: parens b.lexemes
    else parensIf (a.isCompound || a.isFraction) a.lexemes ++ .power :: parens b.lexemes
  | .sqrt a => .call "sqrt" (by decide) :: parens a.lexemes
  | .root index a =>
    .call "pow" (by decide) :: parens (a.lexemes ++ .mark .comma :: one :: .mark .slash
      :: parensIf (!isSimple (.group index.nodes)) index.lexemes)
  | .abs a => .call "abs" (by decide) :: parens a.lexemes
  | .paren a => parens a.lexemes
  | .apply fn a => callRow fn a.lexemes

/-- A leading minus is the first lexeme. -/
theorem lexemes_of_startsMinus {a : Drawable} (h : a.startsMinus = true) :
    a.lexemes.head? = some (.mark .minus) := by
  induction a with
  | negation a => rfl
  | sum a b iha => simp [lexemes, iha h]
  | difference a b iha => simp [lexemes, iha h]
  | quotient gap a b iha => simp [lexemes, iha h]
  | product link a b iha =>
    cases link with
    | dot gap => simp [lexemes, iha h]
    | blank =>
      rw [lexemes]
      split <;> simp [iha h]
  | _ => simp [startsMinus] at h

/-- The numerator of a reciprocal and of the exponent of a root. -/
theorem isPhrase_one : IsPhrase [one] := .single rfl rfl

theorem isPhrase_parensIf {row : List Lexeme} (h : IsPhrase row) (needed : Bool) :
    IsPhrase (parensIf needed row) := by
  cases needed with
  | true => exact h.parens
  | false => exact h

/-- A call is a phrase, that of a reciprocal in parentheses. -/
theorem isPhrase_callRow {row : List Lexeme} (h : IsPhrase row) (fn : Fn) :
    IsPhrase (callRow fn row) := by
  have hcall := h.call (callName_mem fn)
  unfold callRow
  split
  · exact (isPhrase_one.around (x := .mark .slash) rfl hcall).parens
  · exact hcall

/-- In the row of a formula every lexeme may stand where it stands. -/
theorem isPhrase (a : Drawable) : IsPhrase a.lexemes := by
  induction a with
  | number value => exact .single rfl rfl
  | var v => exact .single rfl rfl
  | euler => exact .single rfl rfl
  | pi => exact .single rfl rfl
  | sum a b iha ihb => exact iha.around rfl ihb
  | difference a b iha ihb => exact iha.around rfl ihb
  | negation a ih => exact ih.after_mark .minus
  | product link a b iha ihb =>
    cases link with
    | dot gap => exact iha.around rfl ihb
    | blank =>
      rw [lexemes]
      split
      -- a negated factor stands behind its sign, with no star before it
      · next hminus =>
        refine iha.append ihb fun y hy => ?_
        rw [lexemes_of_startsMinus hminus, Option.some.injEq] at hy
        exact hy ▸ rfl
      · exact iha.around rfl ihb
  | quotient gap a b iha ihb => exact iha.around rfl ihb
  | fraction a b iha ihb => exact iha.parens.around rfl ihb.parens
  | power a b iha ihb =>
    rw [lexemes]
    split
    · exact ihb.call _
    · exact (isPhrase_parensIf iha _).around rfl ihb.parens
  | sqrt a ih => exact ih.call _
  | root index a ihindex ih =>
    have hindex := isPhrase_one.around (x := .mark .slash) rfl
      (isPhrase_parensIf ihindex (!isSimple (.group index.nodes)))
    exact (ih.around (x := .mark .comma) rfl hindex).call _
  | abs a ih => exact ih.call _
  | paren a ih => exact ih.parens
  | apply fn a ih => exact isPhrase_callRow ih fn

/-! ## The nodes at both ends -/

/-- A formula has a first node. It is an operand unless it is the minus of a negative one. -/
theorem first_node (a : Drawable) :
    ∃ node rest, a.nodes = node :: rest ∧ isOperand node = !a.startsMinus := by
  induction a with
  | sum a b iha =>
    obtain ⟨node, rest, hnodes, hoperand⟩ := iha
    exact ⟨node, _, by rw [nodes, hnodes, List.cons_append], hoperand⟩
  | difference a b iha =>
    obtain ⟨node, rest, hnodes, hoperand⟩ := iha
    exact ⟨node, _, by rw [nodes, hnodes, List.cons_append], hoperand⟩
  | quotient gap a b iha =>
    obtain ⟨node, rest, hnodes, hoperand⟩ := iha
    exact ⟨node, _, by rw [nodes, hnodes, List.cons_append], hoperand⟩
  | product link a b iha =>
    obtain ⟨node, rest, hnodes, hoperand⟩ := iha
    cases link <;> exact ⟨node, _, by rw [nodes, hnodes, List.cons_append], hoperand⟩
  | _ => exact ⟨_, _, rfl, rfl⟩

/-- A formula has a last node, which can be a factor. -/
theorem last_node (a : Drawable) : ∃ node, a.nodes.getLast? = some node ∧ IsFactorNode node := by
  have hword : ∀ value, callNames.contains value = false → IsFactorNode (.word value) :=
    fun value hvalue => ⟨rfl, by simp, fun w hw => Node.word.inj hw ▸ hvalue⟩
  -- the last node is that of the last operand
  have hbehind : ∀ (ns : List Node) (b : Drawable),
      (∃ node, b.nodes.getLast? = some node ∧ IsFactorNode node) →
      ∃ node, (ns ++ b.nodes).getLast? = some node ∧ IsFactorNode node := by
    rintro ns b ⟨node, hlast, hnode⟩
    exact ⟨node, by simp [hlast], hnode⟩
  induction a with
  | var v => exact ⟨_, rfl, hword _ (callNames_singleton v.char)⟩
  | euler => exact ⟨_, rfl, hword "e" (by decide)⟩
  | sum a b _ ihb =>
    rw [nodes, List.append_cons]
    exact hbehind _ b ihb
  | difference a b _ ihb =>
    rw [nodes, List.append_cons]
    exact hbehind _ b ihb
  | negation a ih => exact hbehind [.text "-"] a ih
  | product link a b _ ihb =>
    cases link with
    | dot gap =>
      rw [nodes, List.append_cons]
      exact hbehind _ b ihb
    | blank => exact hbehind a.nodes b ihb
  | quotient gap a b _ ihb =>
    rw [nodes, List.append_cons]
    exact hbehind _ b ihb
  | _ => exact ⟨_, rfl, ⟨rfl, by simp, by simp⟩⟩

/-! ## Printing -/

/-- The text without its blanks is the row in this dialect. -/
def Spells (d : Dialect) (s : String) (row : List Lexeme) : Prop :=
  dropBlanks s.toList = spell d row

variable {d : Dialect} {s s' : String} {row row' : List Lexeme}

/-- Texts one after the other spell the rows one after the other. -/
theorem Spells.append (h : Spells d s row) (h' : Spells d s' row') :
    Spells d (s ++ s') (row ++ row') := by
  unfold Spells dropBlanks at *
  rw [String.toList_append, List.filter_append, h, h', spell_append]

/-- A lexeme that is spelled without blanks. -/
theorem spells_lexeme {x : Lexeme} (hchars : s.toList = x.chars d)
    (hblank : s.toList.any Text.isBlank = false) : Spells d s [x] := by
  have hsqueezed : dropBlanks s.toList = s.toList := squeezes_self hblank
  rw [Spells, hsqueezed, hchars]
  simp [spell]

theorem spells_mark (m : Mark) : Spells d (String.singleton m.char) [.mark m] := by
  refine spells_lexeme (by simp [Lexeme.chars]) ?_
  cases m <;> decide

theorem spells_name {name : String} (h : name ∈ callNames) : Spells d name [.call name h] := by
  have hall : ∀ name ∈ callNames, name.toList.any Text.isBlank = false := by decide
  exact spells_lexeme rfl (hall name h)

theorem spells_one : Spells d "1" [one] := by
  have hone : "1".toList = ['1'] := by decide
  exact spells_lexeme hone (by decide)

/-- Parentheses are marks of the row too. -/
theorem Spells.inParens (h : Spells d s row) : Spells d (inParens s) (parens row) := by
  have hparens := ((spells_mark .opening).append h).append (spells_mark (d := d) .closing)
  exact hparens

theorem Spells.inParensIf (h : Spells d s row) (needed : Bool) :
    Spells d (Formula.inParensIf needed s) (parensIf needed row) := by
  cases needed with
  | true => exact h.inParens
  | false => exact h

theorem Spells.called (h : Spells d s row) {name : String} (hname : name ∈ callNames) :
    Spells d (name ++ Dialect.inParens s) (.call name hname :: parens row) :=
  (spells_name hname).append h.inParens

/-- A call is spelled as its row. -/
theorem Spells.callOf (h : Spells d s row) (fn : Fn) :
    Spells d (Formula.callOf fn s) (callRow fn row) := by
  have hcall := h.called (callName_mem fn)
  unfold Formula.callOf callRow
  split
  · have hslash : Spells d "/" [.mark .slash] := spells_mark .slash
    have hquotient := (spells_one.append (hslash.append hcall)).inParens
    have htext : "1/" ++ fn.callName ++ Dialect.inParens s
        = "1" ++ ("/" ++ (fn.callName ++ Dialect.inParens s)) := by
      simp [← String.append_assoc]
    rw [htext]
    exact hquotient
  · exact hcall

theorem spells_figure (value : Figure) :
    Spells d (String.ofList value.chars) [.number value] := by
  refine spells_lexeme (by simp [Lexeme.chars]) (List.any_eq_false.mpr fun c hc => ?_)
  have hfigure := value.accepted c (by simpa using hc)
  simp only [isFigure, Bool.or_eq_true, beq_iff_eq] at hfigure
  rcases hfigure with hdigit | rfl
  · simp [(Text.classes_of_isAsciiDigit hdigit).2.2]
  · decide

theorem spells_letter (v : Letter) : Spells d (String.singleton v.char) [.letter v] := by
  refine spells_lexeme (by simp [Lexeme.chars]) ?_
  simp [(Text.classes_of_isAsciiLetter v.isLetter).2.2]

/-- What a dialect spells in its own way has no blanks either. -/
theorem spells_own (hd : Plain d) : Spells d d.euler [.euler] ∧ Spells d d.pi [.pi] ∧
    Spells d d.power [.power] := by
  refine ⟨spells_lexeme rfl ?_, spells_lexeme rfl ?_, spells_lexeme rfl ?_⟩
  · rcases hd.euler with h | h <;> rw [h] <;> decide
  · rcases hd.pi with h | h <;> rw [h] <;> decide
  · rcases hd.power with h | h <;> rw [h] <;> decide

theorem spells_times : Spells d "*" [.times] := by
  have hstar : "*".toList = ['*'] := by decide
  exact spells_lexeme hstar (by decide)

/-- The blank behind a comma is dropped by the clean-up. -/
theorem spells_gap : Spells d ", " [.mark .comma] := by
  have hgap : dropBlanks ", ".toList = [','] := by decide
  exact hgap

/-- Two printed parts around an operator. -/
theorem Spells.around {ns ns' : List Node} {x : Lexeme}
    (h : Spells d (printSiblings d none ns) row) (node : Node) (hoperator : isOperand node = false)
    (hx : Spells d (printNode d node) [x]) (h' : Spells d (printSiblings d none ns') row') :
    Spells d (printSiblings d none (ns ++ node :: ns')) (row ++ x :: row') := by
  rw [printSiblings_around hoperator]
  exact h.append (hx.append h')

/-- Two factors with a blank between them. -/
theorem Spells.product {a b : Drawable} (h : Spells d (printSiblings d none a.nodes) a.lexemes)
    (h' : Spells d (printSiblings d none b.nodes) b.lexemes) :
    Spells d (printSiblings d none (a.nodes ++ b.nodes))
      (if b.startsMinus then a.lexemes ++ b.lexemes else a.lexemes ++ .times :: b.lexemes) := by
  obtain ⟨last, hlast, hfactor⟩ := a.last_node
  obtain ⟨first, rest, hnodes, hoperand⟩ := b.first_node
  have hbetween : between (some last) first = if b.startsMinus then "" else "*" := by
    rw [between, Option.any_some, hfactor.juxtaposed_eq, hoperand]
    cases b.startsMinus <;> rfl
  rw [hnodes] at h' ⊢
  rw [printSiblings_append, hlast, Option.some_or, hbetween]
  cases b.startsMinus with
  | true => exact h.append h'
  | false => exact h.append (spells_times.append h')

/-- The base of a power is printed in parentheses just when it is compound. -/
theorem printNode_base (d : Dialect) (a : Drawable) :
    printNode d (Formula.wrappedNode a.isCompound a.nodes)
      = Formula.inParensIf a.isCompound (printSiblings d none a.nodes) := by
  cases hcompound : a.isCompound with
  | true => simp [Formula.wrappedNode, printNode, enclosed, Formula.inParensIf]
  | false =>
    obtain ⟨node, hnode⟩ := nodes_of_not_compound hcompound
    rw [hnode, printSiblings_single]
    rfl

/-- A power is printed with a call for its base `e`, and a fraction as its base in parentheses. -/
theorem powerText_base (d : Dialect) (a : Drawable) (base : String) (exponent : Node)
    (printed : String) :
    d.powerText (some (Formula.wrappedNode a.isCompound a.nodes, base)) exponent printed
      = if a.isEuler then "exp" ++ inParens printed
        else Formula.inParensIf a.isFraction base ++ d.power ++ scriptText exponent printed := by
  cases a
  case var v =>
    simp [isCompound, isEuler, isFraction, Formula.wrappedNode, nodes, Formula.inParensIf,
      powerText, v.singleton_ne_e]
  all_goals rfl

/-- Bars are printed as a call. -/
theorem enclosed_bars (s : String) : enclosed "|" s = "abs" ++ inParens s := by
  apply String.toList_inj.mp
  simp [enclosed, Dialect.inParens]

/-- A root with an index is printed as a power with a reciprocal exponent. -/
theorem rootText_index (s printed : String) (node : Node) :
    rootText s (some (node, printed)) = "pow" ++ inParens (s ++ (", " ++ ("1" ++ ("/"
      ++ Formula.inParensIf (!isSimple node) printed)))) := by
  apply String.toList_inj.mp
  by_cases hsimple : isSimple node = true <;>
    simp [rootText, hsimple, Dialect.inParens, Formula.inParensIf]

/-- In every dialect a formula is printed as its row. -/
theorem prints (hd : Plain d) (a : Drawable) :
    Spells d (printSiblings d none a.nodes) a.lexemes := by
  obtain ⟨heuler, hpi, hpower⟩ := spells_own hd
  have hslash : Spells d "/" [.mark .slash] := spells_mark .slash
  induction a with
  | number value =>
    rw [nodes, printSiblings_single]
    exact spells_figure value
  | var v =>
    have hprint : printNode d (.word (String.singleton v.char)) = String.singleton v.char := by
      simp [printNode, v.singleton_ne_e]
    rw [nodes, printSiblings_single, hprint]
    exact spells_letter v
  | euler =>
    rw [nodes, printSiblings_single]
    exact heuler
  | pi =>
    rw [nodes, printSiblings_single]
    exact hpi
  | sum a b iha ihb => exact iha.around (.text "+") rfl (spells_mark .plus) ihb
  | difference a b iha ihb => exact iha.around (.text "-") rfl (spells_mark .minus) ihb
  | negation a ih =>
    rw [nodes, printSiblings_operator rfl]
    exact (spells_mark .minus).append ih
  | product link a b iha ihb =>
    cases link with
    | dot gap => exact iha.around (.command "cdot") rfl spells_times ihb
    | blank => exact iha.product ihb
  | quotient gap a b iha ihb => exact iha.around (.command "div") rfl hslash ihb
  | fraction a b iha ihb =>
    rw [nodes, printSiblings_single, printNode, printNode, printNode, fractionText]
    have hfraction := (iha.inParens.append hslash).append ihb.inParens
    rwa [List.append_assoc] at hfraction
  | power a b iha ihb =>
    rw [nodes, printSiblings_single, printNode, powerText_base, printNode_base, printNode, lexemes]
    split
    · exact ihb.called _
    · have hbase := (iha.inParensIf a.isCompound).inParensIf a.isFraction
      have hparens : parensIf a.isFraction (parensIf a.isCompound a.lexemes)
          = parensIf (a.isCompound || a.isFraction) a.lexemes := by
        cases a <;> rfl
      have htext := (hbase.append hpower).append ihb.inParens
      rwa [hparens, List.append_assoc] at htext
  | sqrt a ih =>
    rw [nodes, printSiblings_single, printNode, printNode, rootText]
    exact ih.called _
  | root index a ihindex ih =>
    have hindex := ihindex.inParensIf (!isSimple (.group index.nodes))
    have hquotient := spells_one.append (hslash.append hindex)
    have harguments := ih.append (spells_gap.append hquotient)
    have hpow : "pow" ∈ callNames := by decide
    rw [nodes, printSiblings_single, printNode, printNode, printNode, rootText_index]
    exact harguments.called hpow
  | abs a ih =>
    rw [nodes, printSiblings_single, printNode, enclosed_bars]
    exact ih.called _
  | paren a ih =>
    rw [nodes, printSiblings_single, printNode, enclosed]
    exact ih.inParens
  | apply fn a ih =>
    have htext : printNode d (.function fn (some (.delimited "(" ")" a.nodes)) none none)
        = Formula.callOf fn (printSiblings d none a.nodes) := by
      simp [printNode, printArgument, printOption, argumentText, Formula.callText_apply]
    rw [nodes, printSiblings_single, htext]
    exact ih.callOf fn

/-! ## Both ways -/

/-- Straight to the graphing dialect, a formula becomes its lexemes without the stars. -/
theorem directGraphing_spells {a : Drawable} (h : WithinLimit a.markup) :
    Conversion.directGraphing a.markup = String.ofList (spell graphing (dropTimes a.lexemes)) := by
  rw [directGraphing_eq_convert, convert, ofMarkup_eq_nodes h]
  exact finish_graphing a.isPhrase.joined (a.prints plain_graphing)

/-- In the evaluable dialect a formula becomes its lexemes. -/
theorem evaluableOf_spells {a : Drawable} (h : WithinLimit a.markup) :
    (Conversion.evaluableOf a.markup).value = String.ofList (spell evaluable a.lexemes) := by
  rw [evaluableOf_value, convert, ofMarkup_eq_nodes h]
  exact finish_evaluable a.isPhrase.joined (a.prints plain_evaluable)

/-- Straight to the graphing dialect and by way of the evaluable one, a formula becomes the same
text. -/
theorem directGraphing_eq {a : Drawable} (h : WithinLimit a.markup) :
    Conversion.directGraphing a.markup
      = (Conversion.graphingOf (Conversion.evaluableOf a.markup).value).value := by
  rw [directGraphing_spells h, evaluableOf_spells h, graphingOf_value,
    toGraphing_spell a.isPhrase.joined]

/-- A product with a parenthesis, both constants, a reciprocal and a root. -/
def spread : Drawable :=
  .quotient false
    (.product .blank
      (.product .blank (.number ⟨['2'], by decide, List.all_eq_true.mp (by decide)⟩) .pi)
      (.paren (.difference (.fraction (.power .euler (.var .x)) .euler) (.apply .csc (.var .x)))))
    (.root (.number ⟨['3'], by decide, List.all_eq_true.mp (by decide)⟩) (.var .x))

/-- A formula with a power of the constant, a reciprocal function, an indexed root and `\pi`,
printed both ways. -/
theorem directGraphing_eq_spread : WithinLimit spread.markup ∧
    Conversion.directGraphing spread.markup = "2*π((exp(x))/(e)-(1/sin(x)))/pow(x,1/3)" ∧
    Conversion.directGraphing spread.markup
      = (Conversion.graphingOf (Conversion.evaluableOf spread.markup).value).value := by
  have hlimit : WithinLimit spread.markup := withinLimit_of_length (by decide)
  refine ⟨hlimit, ?_, directGraphing_eq hlimit⟩
  rw [directGraphing_spells hlimit]
  decide +kernel

end Drawable

end FormulaDesk
