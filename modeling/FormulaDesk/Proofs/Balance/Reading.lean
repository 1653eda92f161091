import FormulaDesk.Proofs.Balance.Printing
import FormulaDesk.Proofs.Dialect.Passes
import FormulaDesk.Proofs.Reading.Limit
import FormulaDesk.Proofs.Reading.Nesting

/-! # Well-nested markup converts to balanced text

Brackets are read as groups, as delimiters, as the index of a root or as scripts, and are printed by
the rule of the node they end up in. What carries the proof is that well-nested tokens end exactly
where a run of siblings ends (`ReadsSiblings.anywhere`), so no closer is ever left to be kept as a
text. Then every node that is read is closed (`ReadsSiblings.closed`), and closed nodes print
balanced.

Typed delimiters keep their characters in a subscript or in the name of an operator, so that `\left`
and its `\right` have to carry the symbols of one pair.
-/

namespace FormulaDesk.Markup

open Dialect (Balanced Closed Flat Encloses)

variable {stops : Stops} {room : Nat} {single : Bool} {t d d' : Token}
  {m ts u rest after : List Token} {acc nodes : List Node} {node : Node} {name : String}

/-! ## Paired delimiters -/

/-- The symbols that `\left` and `\right` may carry. -/
def symbolPairs : List (Token × Token) :=
  [(.char '(', .char ')'), (.char '[', .char ']'), (.command "\x7b", .command "\x7d"),
    (.char '|', .char '|')]

/-- Every `\left` carries the opening symbol of a pair, and its `\right` the closing one. -/
def PairedDelimiters (ts : List Token) : Prop :=
  ∀ d inner d' rest, .command "left" :: d :: (inner ++ .command "right" :: d' :: rest) <:+ ts →
    WellNested inner → (d, d') ∈ symbolPairs

/-- What the leaves of well-nested tokens need, to be printed balanced. -/
structure Tame (ts : List Token) : Prop where
  paired : PairedDelimiters ts
  flat : ∀ name, .command name ∈ ts → Flat name

/-- What is left to read has its delimiters paired as the whole has. -/
theorem Tame.of_suffix (h : Tame ts) (hrest : rest <:+ ts) : Tame rest where
  paired d inner d' rest' hsuffix := h.paired d inner d' rest' (hsuffix.trans hrest)
  flat name hname := h.flat name (hrest.subset hname)

theorem Tame.tail (h : Tame (t :: ts)) : Tame ts := h.of_suffix (List.suffix_cons t ts)

/-- Skipping blanks keeps the delimiters paired. -/
theorem Tame.of_skipBlanks (h : Tame ts) (hskip : skipBlanks ts = t :: rest) : Tame (t :: rest) :=
  h.of_suffix (hskip ▸ skipBlanks_suffix ts)

/-- The delimiters of one pair print as texts that enclose. -/
theorem encloses_of_pair (h : (d, d') ∈ symbolPairs) (ts ts' : List Token) :
    Encloses (delimiter (d :: ts)).1 (delimiter (d' :: ts')).1 := by
  have hfirst : ∀ t ts, (delimiter (t :: ts)).1 = (delimiter [t]).1 := by
    intro t ts
    cases t <;> rfl
  rw [hfirst d, hfirst d']
  simp only [symbolPairs, List.mem_cons, Prod.mk.injEq, List.not_mem_nil, or_false] at h
  rcases h with ⟨rfl, rfl⟩ | ⟨rfl, rfl⟩ | ⟨rfl, rfl⟩ | ⟨rfl, rfl⟩
  · exact Dialect.encloses_parens
  all_goals exact Dialect.encloses_of_flat (by decide) (by decide)

/-! ## Names of commands -/

/-- A run of letters or one character. -/
def IsName (name : String) : Prop :=
  (∀ c ∈ name.toList, Text.isAsciiLetter c = true) ∨ ∃ c, name = String.singleton c

/-- Letters collected in reverse spell a name. -/
theorem isName_of_letters {letters : List Char}
    (h : ∀ c ∈ letters, Text.isAsciiLetter c = true) : IsName (String.ofList letters.reverse) := by
  left
  simpa using h

/-- `before` holds the letters read so far, as in `Token.scan`. -/
theorem isName_of_scan {cs : List Char} {before : Option (List Char)}
    (hbefore : ∀ letters, before = some letters → ∀ c ∈ letters, Text.isAsciiLetter c = true)
    (h : .command name ∈ Token.scan before cs) : IsName name := by
  induction cs generalizing before with
  | nil =>
    rcases before with _ | (_ | ⟨c, letters⟩)
    · simp [Token.scan] at h
    · simp [Token.scan] at h
    · rw [Token.scan, List.mem_singleton, Token.command.injEq] at h
      · exact h ▸ isName_of_letters (hbefore _ rfl)
      · simp
  | cons c cs ih =>
    have hnone := @ih none (by simp)
    have hempty := @ih (some []) (by simp)
    rcases before with _ | letters
    · rw [Token.scan] at h
      split at h
      · exact hempty h
      · exact hnone (by simpa using h)
    · -- a name grows by letters; a first character that is none is a name by itself
      have hletters := hbefore letters rfl
      rw [Token.scan] at h
      split_ifs at h with hletter hstart hslash
      · refine ih ?_ h
        rintro _ ⟨⟩
        exact List.forall_mem_cons.mpr ⟨hletter, hletters⟩
      · rcases List.mem_cons.mp h with h | h
        · exact Or.inr ⟨c, Token.command.inj h⟩
        · exact hnone h
      · rcases List.mem_cons.mp h with h | h
        · exact Token.command.inj h ▸ isName_of_letters hletters
        · exact hempty h
      · rcases List.mem_cons.mp h with h | h
        · exact Token.command.inj h ▸ isName_of_letters hletters
        · exact hnone (by simpa using h)

/-- Only two commands have a parenthesis in their name. -/
theorem flat_of_ofString {markup : String} (hopening : .command "(" ∉ Token.ofString markup)
    (hclosing : .command ")" ∉ Token.ofString markup)
    (h : .command name ∈ Token.ofString markup) : Flat name := by
  obtain hletters | ⟨c, rfl⟩ := isName_of_scan (by simp) h
  · intro c hc
    have hletter := hletters c hc
    constructor <;> rintro rfl <;> exact absurd hletter (by decide)
  · intro c' hc'
    simp only [String.toList_singleton, List.mem_singleton] at hc'
    subst hc'
    constructor <;> rintro rfl
    · exact hopening h
    · exact hclosing h

/-! ## Runs -/

/-- Every character of a run is one the run accepts. -/
theorem takeRun_accepted (accept : Char → Bool) (ts : List Token) :
    ∀ c ∈ (takeRun accept ts).1, accept c = true := by
  induction ts with
  | nil => simp [takeRun]
  | cons t ts ih =>
    cases t with
    | command name => simp [takeRun]
    | char c =>
      unfold takeRun
      split
      · next hc => exact List.forall_mem_cons.mpr ⟨hc, ih⟩
      · simp

/-- A run of accepted characters is flat when parentheses are not accepted. -/
theorem flat_readRun {accept : Char → Bool} {c : Char} (hc : accept c = true)
    (haccept : accept '(' = false ∧ accept ')' = false) (single : Bool) (ts : List Token) :
    Flat (readRun single accept c ts).1 := by
  have hflat : ∀ d, accept d = true → d ≠ '(' ∧ d ≠ ')' := by
    intro d hd
    constructor <;> rintro rfl <;> simp [haccept] at hd
  cases single with
  | true => simpa [readRun, Flat] using hflat c hc
  | false =>
    intro d hd
    simp only [readRun, Bool.false_eq_true, if_false, String.toList_ofList, List.mem_cons] at hd
    rcases hd with rfl | hd
    · exact hflat _ hc
    · exact hflat d (takeRun_accepted accept ts d hd)

/-! ## Siblings -/

/-- The last node read is one of those read. -/
theorem closed_head {acc : List Node} (h : ∀ n ∈ acc, Closed n) : ∀ n ∈ acc.head?, Closed n :=
  fun n hn => h n (List.mem_of_mem_head? hn)

/-- Replacing the last node read by a closed one keeps the nodes closed. -/
theorem closed_behind {script : Node} (hscript : Closed script) (h : ∀ n ∈ acc, Closed n) :
    ∀ n ∈ script :: acc.tail, Closed n :=
  List.forall_mem_cons.mpr ⟨hscript, fun n hn => h n (List.mem_of_mem_tail hn)⟩

/-- Wrapping the last node in a power keeps the nodes closed. -/
theorem closed_superscript_acc {exponent : Node} (hexp : Closed exponent)
    (h : ∀ n ∈ acc, Closed n) : ∀ n ∈ .superscript acc.head? exponent :: acc.tail, Closed n :=
  closed_behind (Dialect.closed_superscript (closed_head h) hexp) h

/-- Wrapping the last node in a subscript keeps the nodes closed. -/
theorem closed_subscript_acc {script : Node} (hscript : Closed script)
    (h : ∀ n ∈ acc, Closed n) : ∀ n ∈ .subscript acc.head? script :: acc.tail, Closed n :=
  closed_behind (Dialect.closed_subscript (closed_head h) hscript) h

theorem closed_reverse (h : ∀ n ∈ acc, Closed n) : ∀ n ∈ acc.reverse, Closed n := by
  simpa using h

/-- The group that stands for a missing operand prints nothing. -/
theorem closed_empty : Closed (.group []) := Dialect.closed_group (by simp)

/-- Nothing well nested begins with a closing brace. -/
theorem ne_close_of_wellNested (h : WellNested (.command name :: m)) : name ≠ "\x7d" := by
  rintro rfl
  exact absurd h.head_closer? (by decide)

/-- No closer is met before the stop. -/
theorem AtStop.no_stray (hu : AtStop stops u) (hts : t :: ts = m ++ u) (hm : WellNested m)
    (hstop : t.stops stops = false) : t.closer? = none := by
  obtain ⟨m, rfl, -⟩ := hu.split hts hstop
  exact hm.head_closer?

/-- What stands between a bracket and its closer, whatever the closers around it. -/
theorem closed_inside {closer : Closer} {close : Token} {inner : List Token}
    (ih : ∀ m u, ts = m ++ u → WellNested m → AtStop (closer :: stops) u → Tame ts →
      (∀ n ∈ ([] : List Node), Closed n) → ∀ n ∈ nodes, Closed n)
    (hts : ts = inner ++ close :: m ++ u) (hi : WellNested inner)
    (hclose : close.closer? = some closer) (htame : Tame ts) : ∀ n ∈ nodes, Closed n :=
  ih inner (close :: (m ++ u)) (by simp [hts]) hi (AtStop.cons hclose List.mem_cons_self) htame
    (by simp)

mutual

-- Induction on the derivation. As in `anywhere`, `m` is what is left of the well-nested tokens; what
-- a part leaves of them is well nested again.
/-- Siblings read from well-nested tokens each print balanced text. The induction runs over the
reading; the tokens `m` are those of the siblings, up to the stop. -/
theorem ReadsSiblings.closed {stops room acc ts nodes after} :
    ReadsSiblings False stops room acc ts nodes after → ∀ m u, ts = m ++ u → WellNested m →
      AtStop stops u → Tame ts → (∀ n ∈ acc, Closed n) → ∀ n ∈ nodes, Closed n
  | .finish, _, _, _, _, _, _, hacc => closed_reverse hacc
  | .stop _, _, _, _, _, _, _, hacc => closed_reverse hacc
  | .blank (t := t) hstop hblank h, m, u, hts, hm, hu, htame, hacc => by
      have ih := h.closed
      obtain ⟨m, rfl, rfl⟩ := hu.split hts hstop
      exact ih m u rfl (hm.tail (isOrdinary_of_isBlank hblank)) hu htame.tail hacc
  | .strayBrace hstop _, _, _, hts, hm, hu, _, _ => absurd (hu.no_stray hts hm hstop) (by decide)
  | .strayParen hstop _, _, _, hts, hm, hu, _, _ => absurd (hu.no_stray hts hm hstop) (by decide)
  | .strayBracket hstop _, _, _, hts, hm, hu, _, _ => absurd (hu.no_stray hts hm hstop) (by decide)
  | .strayRight hstop _, _, _, hts, hm, hu, _, _ => absurd (hu.no_stray hts hm hstop) (by decide)
  | .power hexp h, m, u, hts, hm, hu, htame, hacc => by
      have ihexp := hexp.closed
      have ih := h.closed
      obtain ⟨m, rfl, rfl⟩ := hu.split hts rfl
      obtain ⟨m', hm', hmiddle, -⟩ := hexp.anywhere m u rfl (hm.tail rfl) hu
      have hexponent := ihexp m u rfl (hm.tail rfl) hu htame.tail
      exact ih m' u hmiddle hm' hu (htame.tail.of_suffix hexp.suffix)
        (closed_superscript_acc hexponent hacc)
  | .script hscript h, m, u, hts, hm, hu, htame, hacc => by
      have ihscript := hscript.closed
      have ih := h.closed
      obtain ⟨m, rfl, rfl⟩ := hu.split hts rfl
      obtain ⟨m', hm', hmiddle, -⟩ := hscript.anywhere m u rfl (hm.tail rfl) hu
      have hsub := ihscript m u rfl (hm.tail rfl) hu htame.tail
      exact ih m' u hmiddle hm' hu (htame.tail.of_suffix hscript.suffix)
        (closed_subscript_acc hsub hacc)
  | .operand _ _ _ hnode h, m, u, hts, hm, hu, htame, hacc => by
      have ihnode := hnode.closed
      have ih := h.closed
      obtain ⟨m', hm', hmiddle, -⟩ := hnode.anywhere m u hts hm hu
      have hnodeClosed := ihnode m u hts hm hu htame
      exact ih m' u hmiddle hm' hu (htame.of_suffix hnode.suffix)
        (List.forall_mem_cons.mpr ⟨hnodeClosed, hacc⟩)

/-- An atom read from well-nested tokens prints balanced text. -/
theorem ReadsAtom.closed {stops room single ts node after} :
    ReadsAtom False stops room single ts node after → ∀ m u, ts = m ++ u → WellNested m →
      AtStop stops u → Tame ts → Closed node
  | .missing _, _, _, _, _, _, _ => closed_empty
  | .ended _ _, _, _, _, _, _, _ => closed_empty
  | .nested (t := t) hskip hend h, m, u, hts, hm, hu, htame => by
      have ih := h.closed
      have hnestedTame := htame.of_skipBlanks hskip
      subst hts
      rw [skipBlanks_append_atStop hu] at hskip
      obtain ⟨m', hm', hrest⟩ := hu.split hskip.symm (stops_of_endsOperand hend)
      exact ih m' u hrest (hm' ▸ wellNested_skipBlanks hm) hu hnestedTame

/-- An enclosed part read from well-nested tokens prints balanced text. -/
theorem ReadsNested.closed {stops room single t ts node after} :
    ReadsNested False stops room single t ts node after → ∀ m u, ts = m ++ u →
      WellNested (t :: m) → AtStop stops u → Tame (t :: ts) → Closed node
  | .group h, m, u, hts, hm, hu, htame => by
      have ih := h.closed
      cases hm with
      | token ht _ => exact absurd ht (by decide)
      | @braces inner m hi hm =>
        exact Dialect.closed_group (closed_inside ih hts hi rfl htame.tail)
  | .paren h, m, u, hts, hm, hu, htame => by
      have ih := h.closed
      cases hm with
      | token ht _ => exact absurd ht (by decide)
      | @parens inner m hi hm =>
        exact Dialect.closed_delimited Dialect.encloses_parens
          (closed_inside ih hts hi rfl htame.tail)
  | .bracket h, m, u, hts, hm, hu, htame => by
      have ih := h.closed
      cases hm with
      | token ht _ => exact absurd ht (by decide)
      | @brackets inner m hi hm =>
        exact Dialect.closed_delimited (Dialect.encloses_of_flat (by decide) (by decide))
          (closed_inside ih hts hi rfl htame.tail)
  | .number hnum, _, _, _, _, _, _ =>
    Dialect.closed_number (flat_readRun hnum (by decide) single ts).balanced
  | .word _ hletter, _, _, _, _, _, _ =>
    Dialect.closed_word (flat_readRun hletter (by decide) single ts).balanced
  | .text (c := c) hopen _ _, m, u, hts, hm, _, _ => by
      -- a closing parenthesis would be a closer with no opener
      have hclose : c ≠ ')' := by
        rintro rfl
        exact absurd hm.head_closer? (by decide)
      apply Dialect.closed_text
      exact Flat.balanced (by simpa [Flat] using And.intro hopen.2.1 hclose)
  | .delimited h, m, u, hts, hm, hu, htame => by
      have ih := h.closed
      obtain ⟨d, inner, d', m, rfl, hi, hm⟩ := hm.of_left
      subst hts
      have hinside : (delimiter (d :: (inner ++ .command "right" :: d' :: m) ++ u)).2
          = inner ++ .command "right" :: (d' :: m) ++ u := by cases d <;> rfl
      have hnodes := closed_inside ih hinside hi rfl (htame.tail.of_suffix (delimiter_suffix _))
      -- the symbol of `\right` comes next where the siblings end
      obtain ⟨rfl, -⟩ := group_anywhere h.anywhere hinside hi rfl
      have hpair : (d, d') ∈ symbolPairs :=
        htame.paired d inner d' (m ++ u) (by simp) hi
      exact Dialect.closed_delimited (encloses_of_pair hpair _ _) hnodes
  | .set h, m, u, hts, hm, hu, htame => by
      have ih := h.closed
      obtain ⟨inner, m, rfl, hi, hm⟩ := hm.of_set
      exact Dialect.closed_delimited (Dialect.encloses_of_flat (by decide) (by decide))
        (closed_inside ih hts hi rfl htame.tail)
  | .fraction hname hnum hden, m, u, hts, hm, hu, htame => by
      have ihnum := hnum.closed
      have ihden := hden.closed
      have hne := ne_of_isFractionCommand hname
      have hm := hm.tail_command hne.1 hne.2
      obtain ⟨m', hm', hmiddle, -⟩ := hnum.anywhere m u hts hm hu
      exact Dialect.closed_fraction (ihnum m u hts hm hu htame.tail)
        (ihden m' u hmiddle hm' hu (htame.tail.of_suffix hnum.suffix))
  | .indexedRoot hskip hindex hrad, m, u, hts, hm, hu, htame => by
      have ihindex := hindex.closed
      have ihrad := hrad.closed
      have hm := hm.tail_command (by decide) (by decide)
      have hinsideTame := (htame.tail.of_skipBlanks hskip).tail
      obtain ⟨m₁, hm₁, hinside, hnested⟩ := hu.skip_split hm (hts ▸ hskip) rfl
      cases hnested with
      | token ht _ => exact absurd ht (by decide)
      | @brackets inner m₂ hi hm₂ =>
        have hnodes := closed_inside ihindex hinside hi rfl hinsideTame
        have hradTame := hinsideTame.of_suffix ((expect_suffix .bracket _).trans hindex.suffix)
        obtain ⟨rfl, -⟩ := group_anywhere hindex.anywhere hinside hi rfl
        exact Dialect.closed_root (ihrad m₂ u (expect_cons rfl) hm₂ hu hradTame)
          (Dialect.closed_group hnodes)
  | .root hskip hrad, m, u, hts, hm, hu, htame => by
      have ihrad := hrad.closed
      have hm := hm.tail_command (by decide) (by decide)
      have hradTame := htame.tail.of_suffix (skipBlanks_suffix ts)
      subst hts
      exact Dialect.closed_squareRoot (ihrad (skipBlanks m) u (skipBlanks_append_atStop hu)
        (wellNested_skipBlanks hm) hu hradTame)
  | .namedFunction hinner hfn h, m, u, hts, hm, hu, htame => by
      have ih := h.closed
      have hm := hm.tail_command (by decide) (by decide)
      obtain ⟨m', hm', hmiddle, -⟩ := hinner.anywhere m u hts hm hu
      exact ih m' u hmiddle hm' hu (htame.tail.of_suffix hinner.suffix) (by simp) (by simp)
  | .named hinner hfn, m, u, hts, hm, hu, htame => by
      have ihinner := hinner.closed
      have hm := hm.tail_command (by decide) (by decide)
      exact Dialect.closed_word (ihinner m u hts hm hu htame.tail).plain
  | .function hname hfn h, m, u, hts, hm, hu, htame => by
      have ih := h.closed
      have hne := ne_of_not_structured hname
      exact ih m u hts (hm.tail_command hne.1 hne.2) hu htame.tail (by simp) (by simp)
  | .command _ _, _, _, _, hm, _, htame =>
    Dialect.closed_command (htame.flat _ List.mem_cons_self) (ne_close_of_wellNested hm)

/-- A function read from well-nested tokens prints balanced text, its scripts included. -/
theorem ReadsFunction.closed {stops room fn script power ts node after} :
    ReadsFunction False stops room fn script power ts node after → ∀ m u, ts = m ++ u →
      WellNested m → AtStop stops u → Tame ts → (∀ n ∈ script, Closed n) →
      (∀ n ∈ power, Closed n) → Closed node
  | .script hskip hnode h, m, u, hts, hm, hu, htame, _, hpower => by
      have ihnode := hnode.closed
      have ih := h.closed
      have hinsideTame := (htame.of_skipBlanks hskip).tail
      obtain ⟨m₁, -, hinside, hnested⟩ := hu.skip_split hm (hts ▸ hskip) rfl
      obtain ⟨m', hm', hmiddle, -⟩ := hnode.anywhere m₁ u hinside (hnested.tail rfl) hu
      have hscript := ihnode m₁ u hinside (hnested.tail rfl) hu hinsideTame
      exact ih m' u hmiddle hm' hu (hinsideTame.of_suffix hnode.suffix)
        (by simpa using hscript) hpower
  | .power hskip hnode h, m, u, hts, hm, hu, htame, hscript, _ => by
      have ihnode := hnode.closed
      have ih := h.closed
      have hinsideTame := (htame.of_skipBlanks hskip).tail
      obtain ⟨m₁, -, hinside, hnested⟩ := hu.skip_split hm (hts ▸ hskip) rfl
      obtain ⟨m', hm', hmiddle, -⟩ := hnode.anywhere m₁ u hinside (hnested.tail rfl) hu
      have hpower := ihnode m₁ u hinside (hnested.tail rfl) hu hinsideTame
      exact ih m' u hmiddle hm' hu (hinsideTame.of_suffix hnode.suffix) hscript
        (by simpa using hpower)
  | .argument _ _ h, m, u, hts, hm, hu, htame, hscript, hpower => by
      have ih := h.closed
      have hargumentTame := htame.of_suffix (skipBlanks_suffix ts)
      subst hts
      exact Dialect.closed_function _ (ih (skipBlanks m) u (skipBlanks_append_atStop hu)
        (wellNested_skipBlanks hm) hu hargumentTame) hscript hpower

/-- An argument read from well-nested tokens prints balanced text. -/
theorem ReadsArgument.closed {stops room ts argument after} :
    ReadsArgument False stops room ts argument after → ∀ m u, ts = m ++ u → WellNested m →
      AtStop stops u → Tame ts → ∀ n ∈ argument, Closed n
  | .missing, _, _, _, _, _, _ => by simp
  | .ended _, _, _, _, _, _, _ => by simp
  | .other _ _ _, _, _, _, _, _, _ => by simp
  | .bracketed _ _ h, m, u, hts, hm, hu, htame => by
      have ih := h.closed
      simpa using ih m u hts hm hu htame
  | .factors _ _ _ h, m, u, hts, hm, hu, htame => by
      have ih := h.closed
      simpa using Dialect.closed_group (ih m u hts hm hu htame (by simp))

/-- The factors of a bare argument read from well-nested tokens print balanced text. -/
theorem ReadsFactors.closed {stops room acc ts nodes after} :
    ReadsFactors False stops room acc ts nodes after → ∀ m u, ts = m ++ u → WellNested m →
      AtStop stops u → Tame ts → (∀ n ∈ acc, Closed n) → ∀ n ∈ nodes, Closed n
  | .power _ hexp h, m, u, hts, hm, hu, htame, hacc => by
      have ihexp := hexp.closed
      have ih := h.closed
      obtain ⟨m, rfl, rfl⟩ := hu.split hts rfl
      obtain ⟨m', hm', hmiddle, -⟩ := hexp.anywhere m u rfl (hm.tail rfl) hu
      have hexponent := ihexp m u rfl (hm.tail rfl) hu htame.tail
      exact ih m' u hmiddle hm' hu (htame.tail.of_suffix hexp.suffix)
        (closed_superscript_acc hexponent hacc)
  | .factor _ hnode h, m, u, hts, hm, hu, htame, hacc => by
      have ihnode := hnode.closed
      have ih := h.closed
      obtain ⟨m', hm', hmiddle, -⟩ := hnode.anywhere m u hts hm hu
      have hnodeClosed := ihnode m u hts hm hu htame
      exact ih m' u hmiddle hm' hu (htame.of_suffix hnode.suffix)
        (List.forall_mem_cons.mpr ⟨hnodeClosed, hacc⟩)
  | .done _ _, _, _, _, _, _, _, hacc => closed_reverse hacc

end

/-! ## Markup -/

/-- Markup whose brackets come in pairs, where `\left` and `\right` carry those of one pair, and with
no command that is a parenthesis. -/
structure MatchedMarkup (markup : String) : Prop where
  nested : WellNested (Token.ofString markup)
  paired : PairedDelimiters (Token.ofString markup)
  opening : .command "(" ∉ Token.ofString markup
  closing : .command ")" ∉ Token.ofString markup

/-- Every top-level node of matched markup within the limit prints balanced text. -/
theorem MatchedMarkup.closed {markup : String} (h : MatchedMarkup markup)
    (hlimit : WithinLimit markup) : ∀ n ∈ Node.ofMarkup markup, Closed n := by
  have htame : Tame (Token.ofString markup) :=
    ⟨h.paired, fun _ => flat_of_ofString h.opening h.closing⟩
  -- the whole markup is one run of siblings, with nothing behind it
  exact hlimit.reads.closed _ [] (List.append_nil _).symm h.nested (Or.inl rfl) htame (by simp)

/-- Markup whose brackets come in pairs converts to balanced texts in both dialects, whatever else
it is made of: scripts, names of operators, operands that are missing, commands that are unknown. -/
theorem convert_balanced {markup : String} (h : MatchedMarkup markup)
    (hlimit : WithinLimit markup) :
    Balanced (Conversion.evaluableOf markup).value.toList ∧
      Balanced (Conversion.directGraphing markup).toList := by
  have hclosed := h.closed hlimit
  rw [Dialect.evaluableOf_value, Dialect.directGraphing_eq_convert]
  exact ⟨Dialect.balanced_print Dialect.plain_evaluable hclosed,
    Dialect.balanced_print Dialect.plain_graphing hclosed⟩

/-- A subscript keeps its parentheses as they were typed, and an exponent is missing. -/
theorem convert_balanced_subscript :
    MatchedMarkup "\\left(x_\x7b(i)\x7d\\right)^" ∧
      (Conversion.evaluableOf "\\left(x_\x7b(i)\x7d\\right)^").value = "(x_(i))**()" ∧
      Balanced "(x_(i))**()".toList := by
  have htokens : Token.ofString "\\left(x_\x7b(i)\x7d\\right)^"
      = [.command "left", .char '(', .char 'x', .char '_', .char '{', .char '(', .char 'i',
        .char ')', .char '}', .command "right", .char ')', .char '^'] := by decide +kernel
  have hmatched : MatchedMarkup "\\left(x_\x7b(i)\x7d\\right)^" := by
    constructor
    · have hsubscript : WellNested
          [.char 'x', .char '_', .char '{', .char '(', .char 'i', .char ')', .char '}'] :=
        .token rfl (.token rfl (.braces (.parens (.token rfl .nil) .nil) .nil))
      rw [htokens]
      exact .delimited hsubscript (.token rfl .nil)
    · intro d inner d' rest hsuffix _
      rw [htokens] at hsuffix
      obtain ⟨rfl, -, rfl, -⟩ : d = .char '(' ∧ inner = _ ∧ d' = .char ')' ∧ rest = _ := by
        simpa [List.suffix_cons_iff, List.append_eq_cons_iff, List.cons_eq_append_iff]
          using hsuffix
      decide
    · rw [htokens]
      decide
    · rw [htokens]
      decide
  have hvalue : (Conversion.evaluableOf "\\left(x_\x7b(i)\x7d\\right)^").value
      = "(x_(i))**()" := by decide +kernel
  have hbalanced := (convert_balanced hmatched (withinLimit_of_length (by decide))).1
  rw [hvalue] at hbalanced
  exact ⟨hmatched, hvalue, hbalanced⟩

end FormulaDesk.Markup
