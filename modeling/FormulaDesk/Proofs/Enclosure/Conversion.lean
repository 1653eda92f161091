import FormulaDesk.Proofs.Dialect.Parts
import FormulaDesk.Proofs.Enclosure.Reading

/-! # Brackets inside brackets, converted

Braces leave no trace in an expression and every other bracket is a parenthesis in it, whether it is
read as a level, as a leaf or as a closing bracket left over. So any number of brackets around a
number or word converts to as many parentheses around what stands inside (`evaluableOf_nest`).

What stands inside is itself only within the nesting limit. Past it each of its characters is a leaf
of its own, and leaves side by side are factors of a product.
-/

namespace FormulaDesk.Markup

open Dialect

variable {d : Dialect} {previous : Option Node} {k : Nat} {c : Char} {cs s : List Char}
  {t w : String} {nodes ns : List Node}

namespace Enclosure

variable (b : Enclosure)

/-! ## What brackets are printed as -/

def shownOpening : Enclosure → String
  | braces => ""
  | _ => "("

def shownClosing : Enclosure → String
  | braces => ""
  | _ => ")"

/-- A text with so many brackets around it as they are printed. -/
def shown (b : Enclosure) (n : Nat) (t : String) : String :=
  String.join (List.replicate n b.shownOpening) ++ t
    ++ String.join (List.replicate n b.shownClosing)

theorem shown_zero (t : String) : b.shown 0 t = t := by simp [shown]

theorem shown_succ (n : Nat) (t : String) :
    b.shown (n + 1) t = b.shownOpening ++ b.shown n t ++ b.shownClosing := by
  rw [shown, List.replicate_succ, List.replicate_succ', String.join_cons, String.join_append,
    shown]
  simp [String.append_assoc]

/-- The node of an enclosure prints its content between the opening and the closing the enclosure
shows. -/
theorem printNode_node (d : Dialect) (nodes : List Node) :
    d.printNode (b.node nodes)
      = b.shownOpening ++ d.printSiblings none nodes ++ b.shownClosing := by
  cases b <;> simp [node, printNode, enclosed, inParens, shownOpening, shownClosing]

/-- A tower of enclosures prints as its content with as many openings and closings around it. -/
theorem print_tower (d : Dialect) (nodes : List Node) (m : Nat) :
    d.printSiblings none (b.tower nodes m) = b.shown m (d.printSiblings none nodes) := by
  induction m with
  | zero => rw [tower, shown_zero]
  | succ m ih =>
    rw [tower, printSiblings_step, between_none, printNode_node, ih, shown_succ]
    simp [printSiblings]

/-- Openings read beyond the limit print one behind the other, in front of what follows. -/
theorem print_flatOpenings (d : Dialect) (k : Nat) (ns : List Node) :
    d.printSiblings none (List.replicate k b.flatOpening ++ ns)
      = String.join (List.replicate k b.shownOpening) ++ d.printSiblings none ns := by
  have hoperator : isOperand b.flatOpening = false := by cases b <;> rfl
  have hprinted : d.printNode b.flatOpening = b.shownOpening := by
    cases b <;> simp [flatOpening, shownOpening, printNode, printSiblings]
  induction k with
  | zero => simp
  | succ k ih =>
    rw [List.replicate_succ, List.cons_append, printSiblings_operator hoperator, ih, hprinted,
      List.replicate_succ, String.join_cons, String.append_assoc]

/-- A closing bracket left over is an operator, or nothing at all. -/
theorem print_stray (d : Dialect) (previous : Option Node) (ns : List Node) :
    ∃ previous', d.printSiblings previous (b.stray ++ ns)
      = b.shownClosing ++ d.printSiblings previous' ns := by
  have hoperator : ∀ node, isOperand node = false → d.printNode node = ")" →
      d.printSiblings previous ([node] ++ ns) = ")" ++ d.printSiblings (some node) ns := by
    intro node hnode hprinted
    rw [List.singleton_append, printSiblings_step, between_operator hnode, String.empty_append,
      hprinted]
  cases b with
  | braces => exact ⟨previous, by simp [stray, shownClosing]⟩
  | set => exact ⟨_, hoperator (.command "\x7d") rfl rfl⟩
  | _ => exact ⟨_, hoperator (.text ")") rfl rfl⟩

/-- Closings left over from beyond the limit print one behind the other. -/
theorem print_strays (d : Dialect) (k : Nat) (previous : Option Node) :
    d.printSiblings previous (List.replicate k b.stray).flatten
      = String.join (List.replicate k b.shownClosing) := by
  induction k generalizing previous with
  | zero => simp [printSiblings]
  | succ k ih =>
    obtain ⟨previous', hstray⟩ := b.print_stray d previous (List.replicate k b.stray).flatten
    rw [List.replicate_succ, List.flatten_cons, hstray, ih, List.replicate_succ, String.join_cons]

/-- Left-over closings do not touch what is printed in front of them. -/
theorem print_before_strays (d : Dialect) (k : Nat) (previous : Option Node) (ns : List Node) :
    d.printSiblings previous (ns ++ (List.replicate k b.stray).flatten)
      = d.printSiblings previous ns ++ String.join (List.replicate k b.shownClosing) := by
  -- no star is printed next to a closing bracket, so it does not matter which sibling is the last
  induction ns generalizing previous with
  | nil => simp [print_strays, printSiblings]
  | cons n ns ih =>
    rw [List.cons_append, printSiblings_step, ih, printSiblings_step]
    simp only [String.append_assoc]

/-- Brackets in two places, as those beyond the limit are. -/
theorem shown_add (m k : Nat) (t : String) :
    b.shown m (String.join (List.replicate k b.shownOpening) ++ t)
        ++ String.join (List.replicate k b.shownClosing) = b.shown (m + k) t := by
  simp only [shown, ← List.replicate_append_replicate, String.join_append, String.append_assoc]

end Enclosure

/-! ## What stands inside -/

/-- A character alone as it is printed. -/
def shownChar (c : Char) : String := if c = 'e' then "math.e" else String.singleton c

/-- The characters of a text as factors of a product. -/
def spread : List Char → String
  | [] => ""
  | [c] => shownChar c
  | c :: d :: cs => shownChar c ++ "*" ++ spread (d :: cs)

/-- A number or a word prints as it is written, `e` apart. -/
theorem printNode_runNode (hw : w ≠ "e") : evaluable.printNode (runNode w.toList) = w := by
  unfold runNode
  split <;> simp [printNode, hw]

/-- A single character prints as itself, `e` as the constant. -/
theorem printNode_leaf (c : Char) : evaluable.printNode (runNode [c]) = shownChar c := by
  by_cases he : c = 'e'
  · subst he
    rfl
  · have hne : String.singleton c ≠ "e" := fun h => he (by simpa using congrArg String.toList h)
    have := printNode_runNode hne
    rw [String.toList_singleton] at this
    rw [this, shownChar, if_neg he]

/-- A single character is a factor, so that neighbours of its kind are joined by a star. -/
theorem isFactorNode_leaf (c : Char) : IsFactorNode (runNode [c]) := by
  unfold runNode
  split
  · exact ⟨rfl, by simp, by simp⟩
  · refine ⟨rfl, by simp, fun value hvalue => ?_⟩
    rw [← Node.word.inj hvalue]
    exact callNames_singleton c

/-- Characters read one by one print as a product of them. -/
theorem print_leaves (cs : List Char) :
    evaluable.printSiblings none (cs.map fun c => runNode [c]) = spread cs := by
  induction cs with
  | nil => rfl
  | cons c cs ih =>
    rw [List.map_cons, printSiblings_step, between_none, String.empty_append, printNode_leaf]
    cases cs with
    | nil => simp [printSiblings, spread]
    | cons d cs =>
      rw [List.map_cons] at ih
      have hstar : between (some (runNode [c])) (runNode [d]) = "*" := by
        simp [between, (isFactorNode_leaf c).juxtaposed (isFactorNode_leaf d)]
      rw [List.map_cons, printSiblings_cons, hstar, ih, spread, String.append_assoc]

namespace Enclosure

variable (b : Enclosure)

/-- Within the limit and past it, brackets are printed in the places where they are typed. -/
theorem print_nest (hw : IsCore w.toList) (he : w ≠ "e") (n : Nat) :
    evaluable.print (Node.ofMarkup (b.nest n w))
      = b.shown n (if n < maxNesting then w else spread w.toList) := by
  split
  · next hn =>
    have hsingle : evaluable.printSiblings none [runNode w.toList] = w := by
      rw [printSiblings_step, between_none, printNode_runNode he]
      simp [printSiblings]
    rw [print, b.ofMarkup_nest hw hn, print_tower, hsingle]
  · next hn =>
    obtain ⟨k, rfl⟩ := Nat.exists_eq_add_of_le (Nat.le_of_not_lt hn)
    rw [print, b.ofMarkup_nest_beyond hw k, print_before_strays, print_tower, flatNodes,
      print_flatOpenings, print_leaves, shown_add]

end Enclosure

/-! ## The clean-up -/

/-- The clean-up of a parenthesized text is the clean-up of what stands inside. -/
theorem tidy_parens (s : List Char) : tidy ('(' :: (s ++ [')'])) = '(' :: (tidy s ++ [')']) := by
  have hname := tidy_name (w := []) (by simp) (by decide) (by simp) (s ++ [')'])
  have hclosing := tidy_append (c := ')') rfl s []
  rw [List.nil_append, hclosing] at hname
  exact hname

/-- Enclosures around a text that the clean-up leaves alone are left alone too. -/
theorem Enclosure.tidy_shown (b : Enclosure) (ht : tidy t.toList = t.toList) (n : Nat) :
    tidy (b.shown n t).toList = (b.shown n t).toList := by
  induction n with
  | zero => rwa [shown_zero]
  | succ n ih =>
    rw [shown_succ]
    cases b with
    | braces => simpa [shownOpening, shownClosing] using ih
    | _ => simp [shownOpening, shownClosing, tidy_parens, ih]

/-- Letters alone have no place where the clean-up would put a star. -/
theorem unsplit_of_letters (h : ∀ c ∈ cs, Text.isAsciiLetter c = true) : Unsplit cs := by
  refine (List.isChain_isInfix cs).imp fun c _ hpair => Or.inl ?_
  have hdigit := (Text.classes_of_isAsciiLetter (h c (hpair.subset (by simp)))).2.1
  simp only [Text.isDigit, Bool.or_eq_false_iff] at hdigit
  exact hdigit.1

/-- The innermost text has no blank to be dropped. -/
theorem IsCore.dropBlanks_eq (hw : IsCore cs) : dropBlanks cs = cs := by
  refine List.filter_eq_self.mpr fun c hc => ?_
  have hblank := (run_char (hw.mem_run hc)).2.1
  simpa [Token.isBlank] using hblank

/-- A number or word stays whole, and so does a word that is the name of a call. -/
theorem IsCore.tidy_eq (hw : IsCore cs) : tidy cs = cs := by
  have hblanks := hw.dropBlanks_eq
  cases hw with
  | number _ h =>
    have hsqueezed : Squeezes (String.ofList cs) (String.ofList cs) := by
      simpa [Squeezes] using hblanks
    simpa using hsqueezed.tidy_eq (by simpa using Settled.figures h)
  | word _ h =>
    have hword : ∀ c ∈ cs, Text.isWord c = true := fun c hc => by
      simp [Text.isWord, Text.isAlphanumeric, (Text.classes_of_isAsciiLetter (h c hc)).1]
    have hjoin := joinCalls_word hword [] []
    have hsplit := @splitFactors_word cs (unsplit_of_letters h) [] (by simp)
    simp only [List.append_nil, joinCalls, splitFactors] at hjoin hsplit
    rw [tidy, hblanks, hjoin, hsplit]

/-- What one character prints as has nothing for the clean-up to rewrite. -/
theorem settled_shownChar (hc : isFigure c = true ∨ Text.isAsciiLetter c = true) :
    Settled (shownChar c).toList := by
  unfold shownChar
  split
  · have hmath : Settled "math".toList :=
      .word (List.all_eq_true.mp (by decide)) (by decide) (by decide)
    exact hmath.around_mark (c := '.') rfl (.letter (c := 'e') rfl)
  · rw [String.toList_singleton]
    exact hc.elim (fun hfigure => .figures (by simpa using hfigure)) .letter

/-- What one character prints as has no space to be squeezed. -/
theorem squeezes_shownChar (hc : isFigure c = true ∨ Text.isAsciiLetter c = true) :
    Squeezes (shownChar c) (shownChar c) := by
  have hcore : IsCore [c] := hc.elim (fun hc => .number (by simp) (by simpa using hc))
    fun hc => .word (by simp) (by simpa using hc)
  unfold shownChar
  split
  · exact squeezes_self (by decide)
  · simpa [Squeezes] using hcore.dropBlanks_eq

/-- A product of single characters has nothing for the clean-up to rewrite and no space to be
squeezed. -/
theorem clean_spread (hcs : ∀ c ∈ cs, isFigure c = true ∨ Text.isAsciiLetter c = true) :
    Settled (spread cs).toList ∧ Squeezes (spread cs) (spread cs) := by
  induction cs with
  | nil => exact ⟨.nil, squeezes_self (by decide)⟩
  | cons c cs ih =>
    have hc := hcs c List.mem_cons_self
    obtain ⟨hsettled, hsqueezed⟩ := ih fun d hd => hcs d (List.mem_cons_of_mem c hd)
    cases cs with
    | nil => exact ⟨settled_shownChar hc, squeezes_shownChar hc⟩
    | cons d cs =>
      refine ⟨?_, ((squeezes_shownChar hc).append (squeezes_self (by decide))).append hsqueezed⟩
      have := (settled_shownChar hc).around_mark (c := '*') rfl hsettled
      simpa [spread] using this

/-- The product a core is spread into is left as it is by the clean-up. -/
theorem IsCore.tidy_spread (hw : IsCore cs) : tidy (spread cs).toList = (spread cs).toList := by
  obtain ⟨hsettled, hsqueezed⟩ := clean_spread fun c hc => hw.mem hc
  exact hsqueezed.tidy_eq hsettled

/-! ## Conversion -/

/-- Spreading a core into a product of its characters changes it unless it is one character. -/
theorem spread_eq_iff (hw : IsCore w.toList) (he : w ≠ "e") :
    spread w.toList = w ↔ w.toList.length = 1 := by
  have hlist : w = String.ofList w.toList := String.ofList_toList.symm
  generalize hcs : w.toList = cs at *
  match cs with
  | [] => cases hw <;> contradiction
  | [c] =>
    have hne : c ≠ 'e' := by
      rintro rfl
      exact he hlist
    simpa [spread, shownChar, hne] using hlist.symm
  | c :: d :: cs =>
    -- a product has a star, which is in no number and no word
    have hstar : '*' ∈ (spread (c :: d :: cs)).toList := by simp [spread]
    refine ⟨fun h => ?_, fun h => by simp at h⟩
    rw [h, hcs] at hstar
    exact absurd (hw.mem hstar) (by decide)

/-- Enclosures shown around two texts give the same text only for equal ones. -/
theorem Enclosure.shown_inj (b : Enclosure) (n : Nat) {t t' : String} :
    b.shown n t = b.shown n t' ↔ t = t' := by
  simp [shown, ← String.toList_inj]

/-- Brackets of one kind around a number or word convert to as many parentheses, or to nothing for
braces. What stands inside is kept whole within the nesting limit, and past it only where it is one
character. -/
theorem evaluableOf_nest (b : Enclosure) (n : Nat) (hw : IsCore w.toList) (he : w ≠ "e") :
    (Conversion.evaluableOf (b.nest n w)).value
        = b.shown n (if n < maxNesting then w else spread w.toList) ∧
      ((Conversion.evaluableOf (b.nest n w)).value = b.shown n w
        ↔ n < maxNesting ∨ w.toList.length = 1) := by
  -- the clean-up has nothing to do inside, so it is the brackets around that decide the text
  have htidy : tidy (if n < maxNesting then w else spread w.toList).toList
      = (if n < maxNesting then w else spread w.toList).toList := by
    split
    · exact hw.tidy_eq
    · exact hw.tidy_spread
  have hvalue : (Conversion.evaluableOf (b.nest n w)).value
      = b.shown n (if n < maxNesting then w else spread w.toList) := by
    rw [evaluableOf_value]
    refine convert_eq_of_tidy ?_
    rw [b.print_nest hw he, b.tidy_shown htidy]
  refine ⟨hvalue, ?_⟩
  rw [hvalue, b.shown_inj]
  split
  · next hn => simp [hn]
  · next hn => simp [hn, spread_eq_iff hw he]

/-- A hundred opening braces around `12` are within the hypotheses, and the conversion is `1*2`. -/
theorem evaluableOf_nest_twelve : IsCore "12".toList ∧ "12" ≠ "e" ∧
    (Conversion.evaluableOf (Enclosure.braces.nest maxNesting "12")).value = "1*2" := by
  have hw : IsCore "12".toList := .number (by decide) (List.all_eq_true.mp (by decide))
  have he : "12" ≠ "e" := by decide
  refine ⟨hw, he, ?_⟩
  rw [(evaluableOf_nest .braces maxNesting hw he).1]
  decide +kernel

end FormulaDesk.Markup
