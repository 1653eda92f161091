import FormulaDesk.Proofs.Dialect.Siblings
import FormulaDesk.Proofs.Scripts.Calls
import Mathlib.Data.List.Forall2

/-! # Arguments without brackets

Behind a function, a run of letters, digits and points with powers of them is its argument. The run
is read factor by factor as siblings are (`factorRun_reads`), so the function takes the same nodes
as from the same run in parentheses. They stand in a group there and between delimiters here, and
what follows may take the function as the base of a power. No printer tells the two trees apart
(`Alike`), and so a function converts alike with and without parentheses (`evaluableOf_implicit`).
-/

namespace FormulaDesk.Markup

variable {flat : Prop} {stops : Stops} {room : Nat} {fn : Fn} {c : Char} {cs w s : List Char}
  {ts after rest : List Token} {acc acc' nodes : List Node} {node : Node}

/-! ## Runs of factors -/

/-- Letters, digits and points, and carets with one of these behind them. -/
structure IsFactorRun (cs : List Char) : Prop where
  accepted : ∀ c ∈ cs, isFactorChar c = true ∨ c = '^'
  raised : ∀ rest, '^' :: rest <:+ cs → rest.head?.any isFactorChar = true

/-- A run that starts with a factor. -/
structure IsBareArgument (cs : List Char) : Prop extends IsFactorRun cs where
  first : cs.head?.any isFactorChar = true

/-- The rest of a run of factors is a run of factors. -/
theorem IsFactorRun.of_suffix (h : IsFactorRun cs) (hsuffix : w <:+ cs) : IsFactorRun w where
  accepted c hc := h.accepted c (hsuffix.subset hc)
  raised rest hrest := h.raised rest (hrest.trans hsuffix)

/-- No command starts in a run. -/
theorem IsFactorRun.ne_backslash (h : IsFactorRun cs) : ∀ c ∈ cs, c ≠ '\\' := by
  rintro c hc rfl
  rcases h.accepted _ hc with hfactor | hcaret
  · exact absurd hfactor (by decide)
  · exact absurd hcaret (by decide)

/-- An argument does not begin with a power, which would be that of the function. -/
theorem IsBareArgument.head_ne_caret (h : IsBareArgument cs) : cs.head? ≠ some '^' := by
  intro hcaret
  have hfirst := h.first
  rw [hcaret] at hfirst
  exact absurd hfirst (by decide)

instance : Decidable (IsFactorRun cs) :=
  decidable_of_iff ((cs.all fun c => isFactorChar c || c == '^') = true ∧
      (cs.tails.all fun t => t.head? != some '^' || t.tail.head?.any isFactorChar) = true) <| by
    simp only [List.all_eq_true, Bool.or_eq_true, beq_iff_eq, bne_iff_ne, ← imp_iff_not_or]
    refine ⟨fun h => ⟨h.1, fun rest hrest => h.2 _ ((List.mem_tails _ _).mpr hrest) rfl⟩,
      fun h => ⟨h.accepted, fun t ht hcaret => ?_⟩⟩
    obtain ⟨rest, rfl⟩ := List.head?_eq_some_iff.mp hcaret
    exact h.raised rest ((List.mem_tails _ _).mp ht)

instance : Decidable (IsBareArgument cs) :=
  decidable_of_iff (IsFactorRun cs ∧ cs.head?.any isFactorChar = true)
    ⟨fun h => ⟨h.1, h.2⟩, fun h => ⟨h.toIsFactorRun, h.first⟩⟩

/-- The tokens go on neither with a factor nor with a power. -/
def EndsFactors (ts : List Token) : Prop :=
  ∀ c, ts.head? = some (.char c) → isFactorChar c = false ∧ c ≠ '^'

/-- The tokens go on with no factor. A power may come. -/
def StartsNoFactor (ts : List Token) : Prop :=
  ∀ c, ts.head? = some (.char c) → isFactorChar c = false

/-- What ends the factors begins none. -/
theorem EndsFactors.startsNoFactor (h : EndsFactors ts) : StartsNoFactor ts :=
  fun c hc => (h c hc).1

/-- The tokens of characters. -/
abbrev charTokens (cs : List Char) : List Token := cs.map .char

/-- A figure or a letter is a factor's character. -/
theorem isFactorChar_of_run (h : isNumberChar c = true ∨ Text.isLetter c = true) :
    isFactorChar c = true := by
  simp only [isNumberChar, Bool.or_eq_true] at h
  simp only [isFactorChar, Text.isAlphanumeric, Bool.or_eq_true]
  tauto

/-- A run is taken from the characters of the argument alone. -/
theorem takeRun_charTokens {accept : Char → Bool}
    (haccept : ∀ c, accept c = true → isFactorChar c = true) (hafter : StartsNoFactor after)
    (cs : List Char) : takeRun accept (charTokens cs ++ after)
      = (cs.takeWhile accept, charTokens (cs.dropWhile accept) ++ after) := by
  induction cs with
  | nil =>
    cases after with
    | nil => rfl
    | cons t after =>
      cases t with
      | command name => rfl
      | char c =>
        have hc : accept c = false := by
          by_contra hc
          have := haccept c (by simpa using hc)
          rw [hafter c rfl] at this
          exact absurd this (by simp)
        simp [takeRun, hc]
  | cons c cs ih =>
    by_cases hc : accept c = true
    · simp [takeRun, hc, ih]
    · simp [takeRun, hc]

/-- A number or word of a run does not depend on what stands behind the run. -/
theorem readRun_charTokens {accept : Char → Bool} (single : Bool) (c : Char)
    (haccept : ∀ c, accept c = true → isFactorChar c = true) (cs : List Char) :
    ∃ value rest, rest <:+ cs ∧ ∀ after, StartsNoFactor after →
      readRun single accept c (charTokens cs ++ after) = (value, charTokens rest ++ after) := by
  cases single with
  | true => exact ⟨String.singleton c, cs, List.suffix_rfl, fun _ _ => rfl⟩
  | false =>
    refine ⟨String.ofList (c :: cs.takeWhile accept), cs.dropWhile accept,
      List.dropWhile_suffix _, fun after hafter => ?_⟩
    simp [readRun, takeRun_charTokens haccept hafter]

/-- A factor is read in the same way wherever it stands. -/
theorem factor_reads (flat : Prop) (hc : isFactorChar c = true) (single : Bool) (cs : List Char) :
    ∃ node rest, rest <:+ cs ∧ ∀ stops room after, StartsNoFactor after →
      ReadsAtom flat stops (room + 1) single (charTokens (c :: cs) ++ after) node
        (charTokens rest ++ after) := by
  have hatom : ∀ {stops room ts node after},
      ReadsNested flat stops room single (.char c) ts node after →
      ReadsAtom flat stops (room + 1) single (.char c :: ts) node after := fun h =>
    .nested (skipBlanks_cons (isBlank_eq_false_of_factor hc)) (endsOperand_false_of_factor hc) h
  -- a number, a word, or an alphanumeric character that starts neither
  by_cases hnum : isNumberChar c = true
  · obtain ⟨value, rest, hsuffix, hrun⟩ := readRun_charTokens single c
      (fun c hc => isFactorChar_of_run (Or.inl hc)) cs
    refine ⟨.number value, rest, hsuffix, fun stops room after hafter => hatom ?_⟩
    have := @ReadsNested.number flat stops room single c (charTokens cs ++ after) hnum
    rwa [hrun after hafter] at this
  · rw [Bool.not_eq_true] at hnum
    by_cases hletter : Text.isLetter c = true
    · obtain ⟨value, rest, hsuffix, hrun⟩ := readRun_charTokens single c
        (fun c hc => isFactorChar_of_run (Or.inr hc)) cs
      refine ⟨.word value, rest, hsuffix, fun stops room after hafter => hatom ?_⟩
      have := @ReadsNested.word flat stops room single c (charTokens cs ++ after) hnum hletter
      rwa [hrun after hafter] at this
    · refine ⟨.text (String.singleton c), cs, List.suffix_rfl, fun stops room after _ => hatom ?_⟩
      refine .text ⟨?_, ?_, ?_⟩ hnum (by simpa using hletter) <;> rintro rfl <;>
        exact absurd hc (by decide)

/-- A factor among siblings is an operand. -/
theorem factor_starts (hc : isFactorChar c = true) (stops : Stops) :
    (Token.char c).stops stops = false ∧ (Token.char c).isBlank = false ∧
      (Token.char c).startsOperand = true := by
  refine ⟨stops_of_endsOperand (endsOperand_false_of_factor hc), isBlank_eq_false_of_factor hc, ?_⟩
  unfold Token.startsOperand
  split <;> simp_all [isFactorChar] <;> exact absurd hc (by decide)

/-- The same run is read by the loop over factors and by the loop over siblings. Both go on behind it
with what they have read. -/
theorem factorRun_reads (flat : Prop) (h : IsFactorRun cs)
    (hacc : acc.isEmpty = false ∨ cs.head? ≠ some '^') :
    ∃ acc', (acc'.isEmpty = true → acc.isEmpty = true ∧ cs = []) ∧
      ∀ stops room after, StartsNoFactor after → ∀ out rest,
        (ReadsFactors flat stops (room + 1) acc' after out rest →
          ReadsFactors flat stops (room + 1) acc (charTokens cs ++ after) out rest) ∧
        (ReadsSiblings flat stops (room + 1) acc' after out rest →
          ReadsSiblings flat stops (room + 1) acc (charTokens cs ++ after) out rest) := by
  -- each factor and each power takes at least one character
  induction hn : cs.length using Nat.strong_induction_on generalizing cs acc with
  | _ n ih =>
  cases cs with
  | nil => exact ⟨acc, fun hempty => ⟨hempty, rfl⟩, fun _ _ _ _ _ _ => ⟨id, id⟩⟩
  | cons c cs =>
    have hlen : ∀ rest : List Char, rest <:+ cs → rest.length < n := fun rest hrest => by
      have := hrest.length_le
      simp only [List.length_cons] at hn
      omega
    rcases h.accepted c List.mem_cons_self with hc | rfl
    · obtain ⟨node, rest, hsuffix, hnode⟩ := factor_reads flat hc false cs
      have hrun := h.of_suffix (hsuffix.trans (List.suffix_cons c cs))
      have hbehind : (node :: acc).isEmpty = false := rfl
      obtain ⟨acc', hfilled, hreads⟩ := ih _ (hlen rest hsuffix) hrun (Or.inl hbehind) rfl
      refine ⟨acc', fun hempty => absurd (hfilled hempty).1 (by simp), ?_⟩
      intro stops room after hafter out final
      obtain ⟨hfactors, hsiblings⟩ := hreads stops room after hafter out final
      have hatom := hnode stops room after hafter
      obtain ⟨hstop, hblank, hstart⟩ := factor_starts hc stops
      exact ⟨fun hfinal => .factor hc hatom (hfactors hfinal), fun hfinal =>
        .operand hstop hblank hstart hatom (hsiblings hfinal)⟩
    · have hbase : acc.isEmpty = false := hacc.resolve_right (by simp)
      have hfirst := h.raised cs List.suffix_rfl
      cases cs with
      | nil => exact absurd hfirst (by simp)
      | cons d cs =>
        obtain ⟨exponent, rest, hsuffix, hexponent⟩ := factor_reads flat hfirst true cs
        have hrest := hsuffix.trans (List.suffix_cons d cs)
        have hrun := h.of_suffix (hrest.trans (List.suffix_cons '^' _))
        have hbehind : (Node.superscript acc.head? exponent :: acc.tail).isEmpty = false := rfl
        obtain ⟨acc', hfilled, hreads⟩ := ih _ (hlen rest hrest) hrun (Or.inl hbehind) rfl
        refine ⟨acc', fun hempty => absurd (hfilled hempty).1 (by simp), ?_⟩
        intro stops room after hafter out final
        obtain ⟨hfactors, hsiblings⟩ := hreads stops room after hafter out final
        have hatom := hexponent stops room after hafter
        exact ⟨fun hfinal => .power hbase hatom (hfactors hfinal), fun hfinal =>
          .power hatom (hsiblings hfinal)⟩

/-- Where the factors end, those read so far are returned. -/
theorem EndsFactors.done (h : EndsFactors ts) (acc : List Node) :
    ReadsFactors flat stops room acc ts acc.reverse ts :=
  .done (.inr fun hcaret => (h _ hcaret).2 rfl) h.startsNoFactor

/-! ## Calls -/

/-- A call among siblings is the reading of its argument. -/
theorem ReadsArgument.call {argument : Option Node} {out : List Node}
    (h : ReadsArgument flat stops room (skipBlanks ts) argument after)
    (hscript : (skipBlanks ts).head? ≠ some (.char '_'))
    (hpower : (skipBlanks ts).head? ≠ some (.char '^'))
    (hrest : ReadsSiblings flat stops (room + 1) (.function fn argument none none :: acc) after out
      rest) :
    ReadsSiblings flat stops (room + 1) acc (.command fn.command :: ts) out rest := by
  obtain ⟨-, hletters, hright, hplain, hfn⟩ := fn_command_facts fn
  have hcloser : (Token.command fn.command).closer? = none := closer?_command hletters hright
  exact .operand (stops_eq_false_of_closer hcloser) rfl (startsOperand_command hright)
    (.nested (skipBlanks_cons rfl) (endsOperand_eq_false_of_closer hcloser)
      (.function hplain hfn (.argument hscript hpower h))) hrest

/-- A function before an argument without brackets. -/
theorem ReadsFactors.call {out : List Node} (hcs : IsBareArgument cs)
    (h : ReadsFactors flat stops room [] (charTokens cs ++ ts) nodes after)
    (hrest : ReadsSiblings flat stops (room + 1) (.function fn (some (.group nodes)) none none :: acc)
      after out rest) :
    ReadsSiblings flat stops (room + 1) acc
      (.command fn.command :: .char ' ' :: (charTokens cs ++ ts)) out rest := by
  have hfirst := hcs.first
  cases cs with
  | nil => exact absurd hfirst (by simp)
  | cons c cs =>
    have hc : isFactorChar c = true := hfirst
    obtain ⟨hstop, hblank, -⟩ := factor_starts hc stops
    have hskip : skipBlanks (.char ' ' :: (charTokens (c :: cs) ++ ts))
        = charTokens (c :: cs) ++ ts := by
      rw [skipBlanks, List.dropWhile_cons_of_pos (by decide)]
      exact skipBlanks_cons hblank
    have hopen : (Token.char c).startsBracketed = false := by
      unfold Token.startsBracketed
      by_contra hopen
      simp only [Bool.not_eq_false, Bool.or_eq_true, beq_iff_eq] at hopen
      rcases hopen with (rfl | rfl) | rfl <;> exact absurd hc (by decide)
    have hargument : ReadsArgument flat stops room
        (skipBlanks (.char ' ' :: (charTokens (c :: cs) ++ ts))) (some (.group nodes)) after := by
      rw [hskip]
      exact .factors hstop hopen hc h
    refine hargument.call ?_ ?_ hrest
    · rw [hskip]
      rintro ⟨⟩
      exact absurd hc (by decide)
    · rw [hskip]
      rintro ⟨⟩
      exact absurd hc (by decide)

/-- A function with a run behind it, and with the same run in parentheses. -/
theorem call_reads (flat : Prop) (fn : Fn) (stops : Stops) (room : Nat) (h : IsBareArgument cs) :
    ∃ nodes, ∀ after, EndsFactors after → ∀ acc out rest,
      (ReadsSiblings flat stops (room + 3) (.function fn (some (.group nodes)) none none :: acc)
          after out rest →
        ReadsSiblings flat stops (room + 3) acc
          (.command fn.command :: .char ' ' :: (charTokens cs ++ after)) out rest) ∧
      (ReadsSiblings flat stops (room + 3)
          (.function fn (some (.delimited "(" ")" nodes)) none none :: acc) after out rest →
        ReadsSiblings flat stops (room + 3) acc
          (.command fn.command :: leftRightTokens (charTokens cs) after) out rest) := by
  have hbase : ([] : List Node).isEmpty = false ∨ cs.head? ≠ some '^' := Or.inr h.head_ne_caret
  obtain ⟨acc', -, hreads⟩ := factorRun_reads flat h.toIsFactorRun hbase
  refine ⟨acc'.reverse, fun after hafter acc out rest => ⟨fun hrest => ?_, fun hrest => ?_⟩⟩
  · exact ReadsFactors.call h
      ((hreads stops (room + 1) after hafter.startsNoFactor _ _).1 (hafter.done acc')) hrest
  · have hskip : skipBlanks (leftRightTokens (charTokens cs) after)
        = leftRightTokens (charTokens cs) after := skipBlanks_cons rfl
    have hinside : ReadsSiblings flat (.right :: stops) (room + 1) []
        (charTokens cs ++ .command "right" :: .char ')' :: after) acc'.reverse
        (.command "right" :: .char ')' :: after) := by
      refine (hreads (.right :: stops) room _ (fun c hc => ?_) _ _).2 (.stop ?_)
      · simp at hc
      · simp [Token.stops, Token.closer?]
    have hnested : ReadsNested flat stops (room + 1) false (.command "left")
        (.char '(' :: (charTokens cs ++ .command "right" :: .char ')' :: after))
        (.delimited "(" ")" acc'.reverse) after :=
      @ReadsNested.delimited flat stops (room + 1) false (.char '(' :: _) _ _ hinside
    have hargument : ReadsArgument flat stops (room + 2)
        (skipBlanks (leftRightTokens (charTokens cs) after))
        (some (.delimited "(" ")" acc'.reverse)) after := by
      rw [hskip]
      exact .bracketed (stops_eq_false_of_closer rfl) (by decide)
        (.nested (skipBlanks_cons rfl) (endsOperand_eq_false_of_closer rfl) hnested)
    refine hargument.call ?_ ?_ hrest
    · rw [hskip]
      simp [leftRightTokens]
    · rw [hskip]
      simp [leftRightTokens]

/-! ## Trees that differ in the brackets of an argument -/

/-- The same node, but that an argument may stand in a group here and in parentheses there. -/
inductive Alike : Node → Node → Prop
  | same (node : Node) : Alike node node
  | argument (fn : Fn) (nodes : List Node) (script power : Option Node) :
    Alike (.function fn (some (.group nodes)) script power)
      (.function fn (some (.delimited "(" ")" nodes)) script power)
  | superscript {base base' : Node} (exponent : Node) (h : Alike base base') :
    Alike (.superscript (some base) exponent) (.superscript (some base') exponent)
  | subscript {base base' : Node} (script : Node) (h : Alike base base') :
    Alike (.subscript (some base) script) (.subscript (some base') script)

/-- Wrapping the last of nodes that print alike in a power keeps them alike. -/
theorem Alike.superscript_acc (exponent : Node) (h : List.Forall₂ Alike acc acc') :
    List.Forall₂ Alike (.superscript acc.head? exponent :: acc.tail)
      (.superscript acc'.head? exponent :: acc'.tail) := by
  cases h with
  | nil => exact .cons (.same _) .nil
  | cons hnode hacc => exact .cons (.superscript exponent hnode) hacc

/-- Wrapping the last of nodes that print alike in a subscript keeps them alike. -/
theorem Alike.subscript_acc (script : Node) (h : List.Forall₂ Alike acc acc') :
    List.Forall₂ Alike (.subscript acc.head? script :: acc.tail)
      (.subscript acc'.head? script :: acc'.tail) := by
  cases h with
  | nil => exact .cons (.same _) .nil
  | cons hnode hacc => exact .cons (.subscript script hnode) hacc

/-- What stands before does not change how tokens are read: it can only become a base. -/
theorem ReadsSiblings.alike {stops room acc ts nodes after} :
    ReadsSiblings flat stops room acc ts nodes after → ∀ {acc'}, List.Forall₂ Alike acc acc' →
      ∃ nodes', ReadsSiblings flat stops room acc' ts nodes' after ∧
        List.Forall₂ Alike nodes nodes'
  | .finish, _, hacc => ⟨_, .finish, List.rel_reverse hacc⟩
  | .stop hstop, _, hacc => ⟨_, .stop hstop, List.rel_reverse hacc⟩
  | .blank hstop hblank h, _, hacc =>
    let ⟨nodes', h', hnodes⟩ := h.alike hacc
    ⟨nodes', .blank hstop hblank h', hnodes⟩
  | .strayBrace hstop h, _, hacc =>
    let ⟨nodes', h', hnodes⟩ := h.alike hacc
    ⟨nodes', .strayBrace hstop h', hnodes⟩
  | .strayParen hstop h, _, hacc =>
    let ⟨nodes', h', hnodes⟩ := h.alike (.cons (.same _) hacc)
    ⟨nodes', .strayParen hstop h', hnodes⟩
  | .strayBracket hstop h, _, hacc =>
    let ⟨nodes', h', hnodes⟩ := h.alike (.cons (.same _) hacc)
    ⟨nodes', .strayBracket hstop h', hnodes⟩
  | .strayRight hstop h, _, hacc =>
    let ⟨nodes', h', hnodes⟩ := h.alike (.cons (.same _) hacc)
    ⟨nodes', .strayRight hstop h', hnodes⟩
  | .power hexp h, _, hacc =>
    let ⟨nodes', h', hnodes⟩ := h.alike (Alike.superscript_acc _ hacc)
    ⟨nodes', .power hexp h', hnodes⟩
  | .script hscript h, _, hacc =>
    let ⟨nodes', h', hnodes⟩ := h.alike (Alike.subscript_acc _ hacc)
    ⟨nodes', .script hscript h', hnodes⟩
  | .operand hstop hblank hstart hnode h, _, hacc =>
    let ⟨nodes', h', hnodes⟩ := h.alike (.cons (.same _) hacc)
    ⟨nodes', .operand hstop hblank hstart hnode h', hnodes⟩

namespace Alike

variable {n n' p p' : Node} {ns ns' : List Node} {d : Dialect} {previous previous' : Option Node}

/-- Nodes that print alike take the same part in a product. -/
theorem isOperand_eq (h : Alike n n') : Dialect.isOperand n = Dialect.isOperand n' := by
  cases h <;> rfl

/-- Nodes that print alike are joined with their neighbours alike. -/
theorem juxtaposed_eq (hp : Alike p p') (hn : Alike n n') :
    Dialect.juxtaposed p n = Dialect.juxtaposed p' n' := by
  unfold Dialect.juxtaposed
  rw [hp.isOperand_eq, hn.isOperand_eq]
  cases hp with
  | same p => cases hn <;> rfl
  | _ => rfl

/-- The parentheses of an argument are those of the call. -/
theorem printNode_eq (d : Dialect) (h : Alike n n') : d.printNode n = d.printNode n' := by
  induction h with
  | same => rfl
  | argument fn nodes script power =>
    simp [Dialect.printNode, Dialect.printArgument, Dialect.argumentText]
  | superscript exponent h ih =>
    rw [Dialect.printNode, Dialect.printNode, ih]
    cases h <;> rfl
  | subscript script h ih =>
    rw [Dialect.printNode, Dialect.printNode, Dialect.printOption, Dialect.printOption, ih]

/-- The same text stands in front of nodes that print alike. -/
theorem between_eq (hprevious : Option.Rel Alike previous previous') (hn : Alike n n') :
    Dialect.between previous n = Dialect.between previous' n' := by
  cases hprevious with
  | none => rfl
  | some hp => simp only [Dialect.between, Option.any_some, hp.juxtaposed_eq hn]

/-- Siblings that print alike one by one print alike together. -/
theorem printSiblings_eq (h : List.Forall₂ Alike ns ns')
    (hprevious : Option.Rel Alike previous previous') :
    d.printSiblings previous ns = d.printSiblings previous' ns' := by
  induction h generalizing previous previous' with
  | nil => rfl
  | cons hnode _ ih =>
    rw [Dialect.printSiblings_step, Dialect.printSiblings_step, between_eq hprevious hnode,
      hnode.printNode_eq, ih (.some hnode)]

end Alike

/-! ## Conversion -/

/-- Text without a backslash is scanned character by character. -/
theorem scan_chars (hw : ∀ c ∈ w, c ≠ '\\') (s : List Char) :
    Token.scan none (w ++ s) = charTokens w ++ Token.scan none s := by
  induction w with
  | nil => rfl
  | cons c w ih =>
    rw [List.cons_append, scan_char (hw c List.mem_cons_self),
      ih fun d hd => hw d (List.mem_cons_of_mem c hd)]
    rfl

/-- A command that follows ends the factors as well as a character that is none. -/
theorem endsFactors_scan
    (hs : ∀ c, s.head? = some c → isFactorChar c = false ∧ c ≠ '^') :
    EndsFactors (Token.scan none s) := by
  intro c hc
  cases s with
  | nil => simp [Token.scan] at hc
  | cons d s =>
    by_cases hslash : d = '\\'
    · subst hslash
      exact absurd hc (scan_some_head s [] c)
    · rw [scan_char hslash, List.head?_cons, Option.some.injEq, Token.char.injEq] at hc
      exact hc ▸ hs d rfl

/-- With and without the parentheses, a function is read into trees that are alike. -/
theorem ofMarkup_implicit (fn : Fn) {w s : String} (hw : IsBareArgument w.toList)
    (hs : ∀ c, s.toList.head? = some c → isFactorChar c = false ∧ c ≠ '^') :
    List.Forall₂ Alike (Node.ofMarkup (commandOf fn.command ++ " " ++ w ++ s))
      (Node.ofMarkup (commandOf fn.command ++ leftRight w ++ s)) := by
  have hslash := hw.ne_backslash
  have hbare : Token.ofString (commandOf fn.command ++ " " ++ w ++ s)
      = .command fn.command :: .char ' ' :: (charTokens w.toList ++ Token.ofString s) := by
    have hlist : (commandOf fn.command ++ " " ++ w ++ s).toList
        = '\\' :: (fn.command.toList ++ ' ' :: (w.toList ++ s.toList)) := by
      simp [commandOf]
    rw [Token.ofString, hlist, scan_fn fn (by simp [Text.isAsciiLetter]), scan_char (by decide),
      scan_chars hslash]
    rfl
  have hparens : Token.ofString (commandOf fn.command ++ leftRight w ++ s)
      = .command fn.command :: leftRightTokens (charTokens w.toList) (Token.ofString s) := by
    have hlist : (commandOf fn.command ++ leftRight w ++ s).toList = '\\' :: (fn.command.toList
        ++ '\\' :: ("left".toList ++ '(' :: (w.toList
          ++ '\\' :: ("right".toList ++ ')' :: s.toList)))) := by
      simp [commandOf, leftRight]
    rw [Token.ofString, hlist, scan_fn fn (by simp [Text.isAsciiLetter]),
      scan_command (by decide) (by decide) (by simp [Text.isAsciiLetter]), scan_char (by decide),
      scan_chars hslash, scan_command (by decide) (by decide) (by simp [Text.isAsciiLetter]),
      scan_char (by decide)]
    rfl
  obtain ⟨room, hroom⟩ : ∃ room, maxNesting = room + 3 := ⟨maxNesting - 3, by decide⟩
  obtain ⟨nodes, hreads⟩ := call_reads True fn [] room hw
  have hcalls := hreads (Token.ofString s) (endsFactors_scan hs) []
  rw [← hroom] at hcalls
  -- the rest of the text is read to the end behind the one call, and so behind the other
  have hrest := (fuelSuffices _).siblings [] maxNesting
    [.function fn (some (.group nodes)) none none] (Token.ofString s) (le_refl _)
  obtain ⟨nodes', hrest', halike⟩ := hrest.alike (.cons (.argument fn nodes none none) .nil)
  rw [Node.ofMarkup, Node.ofMarkup, hbare, hparens,
    ofTokens_eq_of_reads ((hcalls _ _).1 hrest), ofTokens_eq_of_reads ((hcalls _ _).2 hrest')]
  exact halike

/-- A function converts alike with an argument without brackets and with the same argument in
parentheses, in both dialects and whatever follows. -/
theorem evaluableOf_implicit (fn : Fn) {w s : String} (hw : IsBareArgument w.toList)
    (hs : ∀ c, s.toList.head? = some c → isFactorChar c = false ∧ c ≠ '^') :
    (Conversion.evaluableOf (commandOf fn.command ++ " " ++ w ++ s)).value
        = (Conversion.evaluableOf (commandOf fn.command ++ leftRight w ++ s)).value ∧
      Conversion.directGraphing (commandOf fn.command ++ " " ++ w ++ s)
        = Conversion.directGraphing (commandOf fn.command ++ leftRight w ++ s) := by
  have halike := ofMarkup_implicit fn hw hs
  have hconvert : ∀ d : Dialect, d.convert (commandOf fn.command ++ " " ++ w ++ s)
      = d.convert (commandOf fn.command ++ leftRight w ++ s) := fun d => by
    rw [Dialect.convert, Dialect.convert, Dialect.print, Dialect.print,
      Alike.printSiblings_eq halike .none]
  rw [Dialect.evaluableOf_value, Dialect.evaluableOf_value, Dialect.directGraphing_eq_convert,
    Dialect.directGraphing_eq_convert, hconvert, hconvert]
  exact ⟨rfl, rfl⟩

/-- A bare argument of two factors, with blanks, a power and stray markup behind it. -/
theorem evaluableOf_implicit_power : IsBareArgument "2x^3.5".toList ∧
    (∀ c, " ^2\x7d_".toList.head? = some c → isFactorChar c = false ∧ c ≠ '^') ∧
    (Conversion.evaluableOf "\\csc 2x^3.5 ^2\x7d_").value
      = (Conversion.evaluableOf "\\csc\\left(2x^3.5\\right) ^2\x7d_").value ∧
    Conversion.directGraphing "\\csc 2x^3.5 ^2\x7d_"
      = Conversion.directGraphing "\\csc\\left(2x^3.5\\right) ^2\x7d_" := by
  have hw : IsBareArgument "2x^3.5".toList := by decide +kernel
  -- the tail is malformed, and a blank is its first character
  have hs : ∀ c, " ^2\x7d_".toList.head? = some c → isFactorChar c = false ∧ c ≠ '^' := by
    intro c hc
    have hblank : ' ' = c := by simpa using hc
    exact hblank ▸ by decide
  have hbare : commandOf Fn.csc.command ++ " " ++ "2x^3.5" ++ " ^2\x7d_"
      = "\\csc 2x^3.5 ^2\x7d_" := by decide
  have hparens : commandOf Fn.csc.command ++ leftRight "2x^3.5" ++ " ^2\x7d_"
      = "\\csc\\left(2x^3.5\\right) ^2\x7d_" := by decide
  have himplicit := evaluableOf_implicit .csc hw hs
  rw [hbare, hparens] at himplicit
  exact ⟨hw, hs, himplicit⟩

end FormulaDesk.Markup
