import FormulaDesk.Proofs.Balance.Text
import FormulaDesk.Proofs.Dialect.Lexeme

/-! # Trees that are printed balanced

A node is closed if every text that is made of it is balanced: its print in each dialect, its print
as the argument of a call, and its characters as they were typed. There is one lemma for each kind
of node, which asks for closed parts; only leaves and typed delimiters ask for more.
-/

namespace FormulaDesk.Dialect

open Markup

variable {d : Dialect} {s t opener closer name value : String} {node base : Node}
  {children : List Node}

/-- Every text that is made of the node is balanced. -/
structure Closed (node : Node) : Prop where
  printed : ∀ d, Plain d → Balanced (printNode d node).toList
  argument : ∀ d, Plain d → ∀ s, printArgument d (some node) = some s → Balanced s.toList
  plain : Balanced node.plainText.toList

/-- Only delimited operands are printed in another way as an argument. -/
theorem Closed.of_printed (hargument : ∀ d, printArgument d (some node) = some (printNode d node))
    (printed : ∀ d, Plain d → Balanced (printNode d node).toList)
    (plain : Balanced node.plainText.toList) : Closed node := by
  refine ⟨printed, fun d hd s hs => ?_, plain⟩
  rw [hargument, Option.some.injEq] at hs
  exact hs ▸ printed d hd

/-- The three texts a dialect chooses for itself have no parenthesis. -/
theorem Plain.flat (hd : Plain d) : Flat d.power ∧ Flat d.euler ∧ Flat d.pi := by
  refine ⟨?_, ?_, ?_⟩
  · rcases hd.power with h | h <;> rw [h] <;> decide
  · rcases hd.euler with h | h <;> rw [h] <;> decide
  · rcases hd.pi with h | h <;> rw [h] <;> decide

/-! ## Leaves -/

/-- A text node is closed when its text is balanced. -/
theorem closed_text (h : Balanced value.toList) : Closed (.text value) :=
  .of_printed (fun _ => rfl) (fun _ _ => h) h

/-- A number node is closed when its figures are balanced. -/
theorem closed_number (h : Balanced value.toList) : Closed (.number value) :=
  .of_printed (fun _ => rfl) (fun _ _ => h) h

/-- A word node is closed when its text is balanced: both spellings of `e` are flat. -/
theorem closed_word (h : Balanced value.toList) : Closed (.word value) := by
  refine .of_printed (fun _ => rfl) (fun d hd => ?_) h
  rw [printNode]
  split
  · exact hd.flat.2.1.balanced
  · exact h

/-- No operator's spelling has a parenthesis. -/
theorem flat_operator {op : String} (h : operator? name = some op) : Flat op := by
  unfold operator? at h
  split at h
  case h_4 => cases h
  all_goals
    cases h
    decide

/-- No constant's spelling has a parenthesis. -/
theorem flat_constantName {constant : String} (h : constantName? name = some constant) :
    Flat constant := by
  unfold constantName? at h
  split at h
  case h_3 => cases h
  all_goals
    cases h
    decide

/-- A command without structure, unless it is a closing delimiter. -/
theorem closed_command (h : Flat name) (hclose : name ≠ "\x7d") : Closed (.command name) := by
  refine .of_printed (fun _ => rfl) (fun d hd => ?_) h.balanced
  rw [printNode]
  unfold commandText
  split
  · next op _ hop => exact (flat_operator hop).balanced
  · exact hd.flat.2.2.balanced
  · split
    · next constant hconstant => exact (flat_constantName hconstant).balanced
    · split
      · exact .nil
      · rw [if_neg (by simpa using hclose)]
        exact h.balanced

/-! ## Siblings -/

/-- Siblings that each print balanced text print balanced text together: what is put between them is
flat. -/
theorem balanced_printSiblings (hd : Plain d) (h : ∀ n ∈ children, Closed n)
    (previous : Option Node) : Balanced (printSiblings d previous children).toList := by
  induction children generalizing previous with
  | nil => exact .nil
  | cons n children ih =>
    obtain ⟨hn, hrest⟩ := List.forall_mem_cons.mp h
    have hstar : Balanced (if previous.any (juxtaposed · n) then "*" else "").toList := by
      split
      · exact Flat.balanced (by decide)
      · exact .nil
    exact balanced_append (balanced_append hstar (hn.printed d hd)) (ih hrest (some n))

/-- The plain texts of closed siblings are balanced. -/
theorem balanced_plainTexts (h : ∀ n ∈ children, Closed n) :
    Balanced (Node.plainTexts children).toList := by
  induction children with
  | nil => exact .nil
  | cons n children ih =>
    obtain ⟨hn, hrest⟩ := List.forall_mem_cons.mp h
    exact balanced_append hn.plain (ih hrest)

/-- A part that may be missing prints balanced text, the empty one when it is missing. -/
theorem balanced_printOption (hd : Plain d) {node : Option Node} (h : ∀ n ∈ node, Closed n) :
    Balanced (printOption d node).toList := by
  cases node with
  | none => exact .nil
  | some n => exact (h n rfl).printed d hd

/-- A group prints as its siblings do. -/
theorem closed_group (h : ∀ n ∈ children, Closed n) : Closed (.group children) :=
  .of_printed (fun _ => rfl) (fun _ hd => balanced_printSiblings hd h none)
    (balanced_plainTexts h)

/-! ## Delimiters -/

/-- Two texts that may be put around a balanced one. -/
def Encloses (opener closer : String) : Prop :=
  ∀ s : String, Balanced s.toList → Balanced (opener ++ s ++ closer).toList

/-- A pair of parentheses encloses what it surrounds. -/
theorem encloses_parens : Encloses "(" ")" := fun _ h => balanced_inParens h

/-- Two flat delimiters leave what they surround balanced. -/
theorem encloses_of_flat (hopener : Flat opener) (hcloser : Flat closer) :
    Encloses opener closer :=
  fun _ h => balanced_append (balanced_append hopener.balanced h) hcloser.balanced

/-- A group's text stays balanced whatever pair it is printed with: parentheses, or nothing. -/
theorem balanced_enclosed (opener : String) (h : Balanced s.toList) :
    Balanced (enclosed opener s).toList := by
  unfold enclosed
  split
  · have habs : "abs(" ++ s ++ ")" = "abs" ++ inParens s := by
      rw [inParens, ← String.append_assoc, ← String.append_assoc]
      rfl
    rw [habs]
    exact balanced_append (Flat.balanced (by decide)) (balanced_inParens h)
  · exact balanced_inParens h

/-- The delimiters are printed as parentheses, but their characters stay what was typed. -/
theorem closed_delimited (hends : Encloses opener closer) (h : ∀ n ∈ children, Closed n) :
    Closed (.delimited opener closer children) where
  printed d hd := balanced_enclosed opener (balanced_printSiblings hd h none)
  argument d hd s hs := by
    have hinner := balanced_printSiblings hd h none
    rw [printArgument, Option.some.injEq] at hs
    subst hs
    dsimp only [argumentText]
    split
    · exact balanced_enclosed opener hinner
    · exact hinner
  plain := hends _ (balanced_plainTexts h)

/-! ## Structured nodes -/

/-- Structured nodes have no characters of their own. -/
theorem Closed.of_structured (hargument : ∀ d, printArgument d (some node) = some (printNode d node))
    (hplain : node.plainText = "") (printed : ∀ d, Plain d → Balanced (printNode d node).toList) :
    Closed node := by
  refine .of_printed hargument printed ?_
  rw [hplain]
  exact .nil

/-- A fraction puts each of its two parts in parentheses of their own. -/
theorem closed_fraction {numerator denominator : Node} (hnum : Closed numerator)
    (hden : Closed denominator) : Closed (.fraction numerator denominator) := by
  refine .of_structured (fun _ => rfl) rfl fun d hd => ?_
  rw [printNode, fractionText]
  exact balanced_append
    (balanced_append (balanced_inParens (hnum.printed d hd)) (Flat.balanced (by decide)))
    (balanced_inParens (hden.printed d hd))

/-- A square root prints as the call of `sqrt`. -/
theorem closed_squareRoot {radicand : Node} (hrad : Closed radicand) :
    Closed (.root radicand none) := by
  refine .of_structured (fun _ => rfl) rfl fun d hd => ?_
  rw [printNode, rootText]
  exact balanced_append (Flat.balanced (by decide)) (balanced_inParens (hrad.printed d hd))

/-- A root with an index prints as a power. -/
theorem closed_root {radicand index : Node} (hrad : Closed radicand) (hindex : Closed index) :
    Closed (.root radicand (some index)) := by
  refine .of_structured (fun _ => rfl) rfl fun d hd => ?_
  have hprinted : Balanced (if isSimple index then printNode d index
      else inParens (printNode d index)).toList := by
    split
    · exact hindex.printed d hd
    · exact balanced_inParens (hindex.printed d hd)
  -- one pair of parentheses is around the radicand and the exponent
  have hinside := balanced_append (balanced_append (hrad.printed d hd)
    (Flat.balanced (s := ", 1/") (by decide))) hprinted
  have hcall := balanced_append (Flat.balanced (s := "pow") (by decide))
    (balanced_inParens hinside)
  rw [printNode, rootText]
  simpa [inParens] using hcall

/-- A script is parenthesized or bare, and balanced either way. -/
theorem balanced_scriptText (script : Node) (h : Balanced s.toList) :
    Balanced (scriptText script s).toList := by
  unfold scriptText
  split
  · exact balanced_inParens h
  · exact h

/-- A power prints its base, the dialect's sign and its exponent. -/
theorem closed_superscript {base : Option Node} {exponent : Node} (hbase : ∀ n ∈ base, Closed n)
    (hexp : Closed exponent) : Closed (.superscript base exponent) := by
  refine .of_structured (fun _ => rfl) rfl fun d hd => ?_
  have hscript := balanced_scriptText exponent (hexp.printed d hd)
  have hpower := balanced_append hd.flat.1.balanced hscript
  cases base with
  | none => exact hpower
  | some n =>
    have hn := (hbase n rfl).printed d hd
    rw [printNode]
    -- Euler's number prints as a call, a fraction in parentheses of its own, all else as it is
    unfold powerText
    split
    · exact balanced_append (Flat.balanced (by decide)) (balanced_inParens (hexp.printed d hd))
    · next heq =>
      cases heq
      rw [String.append_assoc]
      exact balanced_append (balanced_inParens hn) hpower
    · next heq =>
      cases heq
      rw [String.append_assoc]
      exact balanced_append hn hpower
    · next heq => cases heq

/-- A subscript prints its base, an underscore and its script. -/
theorem closed_subscript {base : Option Node} {script : Node} (hbase : ∀ n ∈ base, Closed n)
    (hscript : Closed script) : Closed (.subscript base script) := by
  refine .of_structured (fun _ => rfl) rfl fun d hd => ?_
  rw [printNode]
  exact balanced_append
    (balanced_append (balanced_printOption hd hbase) (Flat.balanced (by decide))) hscript.plain

/-- The name a function is called by has no parenthesis. -/
theorem flat_calledName (fn : Fn) (power : Option Node) : Flat (calledName fn power) := by
  unfold calledName
  split
  · cases fn <;> decide
  · split
    · next inverse hinverse =>
      split
      · cases fn <;> first | cases hinverse; done | (cases hinverse; decide)
      · cases fn <;> decide
    · cases fn <;> decide

/-- A call puts its argument in parentheses, its base or its power behind them. -/
theorem balanced_callText (hd : Plain d) (fn : Fn) {argument : Option String}
    {script power : Option Node} (hargument : ∀ s, argument = some s → Balanced s.toList)
    (hs : Balanced s.toList) (ht : Balanced t.toList) :
    Balanced (d.callText fn argument script power s t).toList := by
  unfold callText
  extract_lets withBase name call
  have hname : Flat name := by
    unfold name
    split
    · decide
    · exact flat_calledName fn power
  have hbased : ∀ a : String, Balanced a.toList →
      Balanced (if withBase then a ++ "," ++ s else a).toList := by
    intro a ha
    split
    · exact balanced_append (balanced_append ha (Flat.balanced (by decide))) hs
    · exact ha
  have hcall : Balanced call.toList := by
    unfold call
    split
    · exact hname.balanced
    · next a =>
      have happlied := balanced_append hname.balanced
        (balanced_inParens (hbased a (hargument a rfl)))
      dsimp only
      split
      · exact balanced_inParens happlied
      · exact happlied
  -- a power stands behind the whole call
  split
  · exact hcall
  · split
    · exact hcall
    · exact balanced_append (balanced_append hcall hd.flat.1.balanced) (balanced_scriptText _ ht)

/-- A function prints as a call, or as its bare name when it has no argument. -/
theorem closed_function (fn : Fn) {argument script power : Option Node}
    (hargument : ∀ n ∈ argument, Closed n) (hscript : ∀ n ∈ script, Closed n)
    (hpower : ∀ n ∈ power, Closed n) : Closed (.function fn argument script power) := by
  refine .of_structured (fun _ => rfl) rfl fun d hd => ?_
  rw [printNode]
  refine balanced_callText hd fn (fun s hs => ?_) (balanced_printOption hd hscript)
    (balanced_printOption hd hpower)
  cases argument with
  | none => cases hs
  | some n => exact (hargument n rfl).argument d hd s hs

/-- Closed siblings convert to a balanced text. -/
theorem balanced_print (hd : Plain d) (h : ∀ n ∈ children, Closed n) :
    Balanced (d.finish (d.print children)).toList :=
  balanced_finish d (balanced_printSiblings hd h none)

end FormulaDesk.Dialect
