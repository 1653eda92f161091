import FormulaDesk.Proofs.Reading.Rules
import FormulaDesk.Proofs.Text.Classes
import Mathlib.Data.List.Infix

/-! # The readers follow the rules

* `fuelSuffices`: with the fuel that `Node.ofTokens` gives, every reader returns what the rules
  derive, so a derivation with the limit always exists;
* `ReadsSiblings.run`: conversely a derivation tells what the reader returns with fuel enough;
* `ofTokens_eq_of_reads`: so a derivation of the whole input gives `Node.ofTokens`.
-/

namespace FormulaDesk.Markup

variable {flat : Prop} {stops : Stops} {room : Nat} {single : Bool} {t : Token}
  {ts rest after : List Token} {acc nodes : List Node} {node : Node}

/-! ## Nothing is read twice

What a reader leaves is a suffix of what it was given.
-/

theorem skipBlanks_suffix (ts : List Token) : skipBlanks ts <:+ ts := List.dropWhile_suffix _

/-- No reader gives back tokens that it was not given: what is left is always a suffix. -/
theorem expect_suffix (closer : Closer) (ts : List Token) : expect closer ts <:+ ts := by
  cases ts with
  | nil => exact List.suffix_rfl
  | cons t rest =>
    simp only [expect]
    split
    · exact List.suffix_cons t rest
    · exact List.suffix_rfl

/-- Reading a delimiter only moves ahead. -/
theorem delimiter_suffix (ts : List Token) : (delimiter ts).2 <:+ ts := by
  cases ts with
  | nil => exact List.suffix_rfl
  | cons t rest => cases t <;> exact List.suffix_cons _ rest

/-- Closing a `\left` only moves ahead. -/
theorem closeDelimited_suffix (ts : List Token) : (closeDelimited ts).2 <:+ ts := by
  cases ts with
  | nil => exact List.suffix_rfl
  | cons t rest =>
    simp only [closeDelimited]
    split
    · exact (delimiter_suffix rest).trans (List.suffix_cons t rest)
    · exact List.suffix_rfl

/-- Taking a run only moves ahead. -/
theorem takeRun_suffix (accept : Char → Bool) (ts : List Token) :
    (takeRun accept ts).2 <:+ ts := by
  induction ts with
  | nil => exact List.suffix_rfl
  | cons t rest ih =>
    cases t with
    | command name => exact List.suffix_rfl
    | char c =>
      unfold takeRun
      split
      · exact ih.trans (List.suffix_cons _ rest)
      · exact List.suffix_rfl

/-- Reading a number or a word only moves ahead. -/
theorem readRun_suffix (single : Bool) (accept : Char → Bool) (c : Char) (ts : List Token) :
    (readRun single accept c ts).2 <:+ ts := by
  unfold readRun
  split
  · exact List.suffix_rfl
  · exact takeRun_suffix accept ts

/-- Reading beyond the limit only moves ahead. -/
theorem flatAtom_suffix (t : Token) (rest : List Token) : (flatAtom t rest).2 <:+ rest := by
  cases t with
  | char c => simp only [flatAtom]; split_ifs <;> exact List.suffix_rfl
  | command name =>
    simp only [flatAtom]
    split_ifs
    · exact delimiter_suffix rest
    · exact List.suffix_rfl
    · exact List.suffix_rfl

/-- Stepping over blanks and one more token only moves ahead. -/
theorem skipBlanks_cons_suffix (h : skipBlanks ts = t :: rest) : rest <:+ ts :=
  ((List.suffix_cons t rest).trans (h ▸ List.suffix_rfl)).trans (skipBlanks_suffix ts)

mutual

/-- A reading leaves a suffix of its tokens, by induction on the derivation. -/
theorem ReadsSiblings.suffix {stops room acc ts nodes after} :
    ReadsSiblings flat stops room acc ts nodes after → after <:+ ts
  | .finish => List.suffix_rfl
  | .stop _ => List.suffix_rfl
  | .blank _ _ h => h.suffix.trans (List.suffix_cons _ _)
  | .strayBrace _ h => h.suffix.trans (List.suffix_cons _ _)
  | .strayParen _ h => h.suffix.trans (List.suffix_cons _ _)
  | .strayBracket _ h => h.suffix.trans (List.suffix_cons _ _)
  | .strayRight _ h => (h.suffix.trans (delimiter_suffix _)).trans (List.suffix_cons _ _)
  | .power hexp h => (h.suffix.trans hexp.suffix).trans (List.suffix_cons _ _)
  | .script hscript h => (h.suffix.trans hscript.suffix).trans (List.suffix_cons _ _)
  | .operand _ _ _ hnode h => h.suffix.trans hnode.suffix

/-- Reading an atom only moves ahead. -/
theorem ReadsAtom.suffix {stops room single ts node after} :
    ReadsAtom flat stops room single ts node after → after <:+ ts
  | .missing _ => List.nil_suffix
  | .ended hskip _ => hskip ▸ skipBlanks_suffix _
  | .limit _ hskip _ => (flatAtom_suffix _ _).trans (skipBlanks_cons_suffix hskip)
  | .nested hskip _ h => h.suffix.trans (skipBlanks_cons_suffix hskip)

/-- Reading an enclosed part only moves ahead. -/
theorem ReadsNested.suffix {stops room single t ts node after} :
    ReadsNested flat stops room single t ts node after → after <:+ ts
  | .group h => (expect_suffix _ _).trans h.suffix
  | .paren h => (expect_suffix _ _).trans h.suffix
  | .bracket h => (expect_suffix _ _).trans h.suffix
  | .number _ => readRun_suffix _ _ _ _
  | .word _ _ => readRun_suffix _ _ _ _
  | .text _ _ _ => List.suffix_rfl
  | .delimited h => ((closeDelimited_suffix _).trans h.suffix).trans (delimiter_suffix _)
  | .set h => (expect_suffix _ _).trans h.suffix
  | .fraction _ hnum hden => hden.suffix.trans hnum.suffix
  | .indexedRoot hskip hindex hrad =>
    ((hrad.suffix.trans (expect_suffix _ _)).trans hindex.suffix).trans
      (skipBlanks_cons_suffix hskip)
  | .root _ hrad => hrad.suffix.trans (skipBlanks_suffix _)
  | .namedFunction hinner _ h => h.suffix.trans hinner.suffix
  | .named hinner _ => hinner.suffix
  | .function _ _ h => h.suffix
  | .command _ _ => List.suffix_rfl

/-- Reading a function only moves ahead. -/
theorem ReadsFunction.suffix {stops room fn script power ts node after} :
    ReadsFunction flat stops room fn script power ts node after → after <:+ ts
  | .script hskip hnode h => (h.suffix.trans hnode.suffix).trans (skipBlanks_cons_suffix hskip)
  | .power hskip hnode h => (h.suffix.trans hnode.suffix).trans (skipBlanks_cons_suffix hskip)
  | .argument _ _ h => h.suffix.trans (skipBlanks_suffix _)

/-- Reading an argument only moves ahead. -/
theorem ReadsArgument.suffix {stops room ts argument after} :
    ReadsArgument flat stops room ts argument after → after <:+ ts
  | .missing => List.suffix_rfl
  | .ended _ => List.suffix_rfl
  | .other _ _ _ => List.suffix_rfl
  | .bracketed _ _ h => h.suffix
  | .factors _ _ _ h => h.suffix

/-- Reading the factors of an argument only moves ahead. -/
theorem ReadsFactors.suffix {stops room acc ts nodes after} :
    ReadsFactors flat stops room acc ts nodes after → after <:+ ts
  | .power _ hexp h => (h.suffix.trans hexp.suffix).trans (List.suffix_cons _ _)
  | .factor _ hnode h => h.suffix.trans hnode.suffix
  | .done _ _ => List.suffix_rfl

end

/-- An operand that is not missing takes at least its first token. -/
theorem ReadsAtom.takes_head (hblank : t.isBlank = false) (hend : t.endsOperand stops = false)
    (h : ReadsAtom flat stops room single (t :: ts) node after) : after <:+ ts := by
  have hskip : skipBlanks (t :: ts) = t :: ts := by simp [skipBlanks, hblank]
  cases h with
  | missing hs => rw [hskip] at hs; simp at hs
  | ended hs he =>
    rw [hskip] at hs
    simp only [List.cons.injEq] at hs
    rw [← hs.1, hend] at he
    simp at he
  | limit _ hs _ =>
    rw [hskip] at hs
    simp only [List.cons.injEq] at hs
    rw [hs.2]
    exact flatAtom_suffix _ _
  | nested hs _ hn =>
    rw [hskip] at hs
    simp only [List.cons.injEq] at hs
    rw [hs.2]
    exact hn.suffix

/-! ## Every reading has a derivation -/

/-- With enough fuel for the tokens at hand, each reader returns what the rules derive. The amounts
differ because a reader hands the same tokens on to the next: siblings to an operand, a function to
its argument and on to its factors. -/
structure FuelSuffices (fuel : Nat) : Prop where
  siblings : ∀ stops room acc ts, 6 * ts.length + 2 ≤ fuel →
    ReadsSiblings True stops room acc ts (readSiblings fuel stops room acc ts).1
      (readSiblings fuel stops room acc ts).2
  atom : ∀ stops room single ts, 6 * ts.length + 1 ≤ fuel →
    ReadsAtom True stops room single ts (readAtom fuel stops room single ts).1
      (readAtom fuel stops room single ts).2
  nested : ∀ stops room single t ts, 6 * ts.length + 6 ≤ fuel →
    ReadsNested True stops room single t ts (readNested fuel stops room single t ts).1
      (readNested fuel stops room single t ts).2
  function : ∀ stops room fn script power ts, 6 * ts.length + 5 ≤ fuel →
    ReadsFunction True stops room fn script power ts
      (readFunction fuel stops room fn script power ts).1
      (readFunction fuel stops room fn script power ts).2
  argument : ∀ stops room ts, 6 * ts.length + 4 ≤ fuel →
    ReadsArgument True stops room ts (readArgument fuel stops room ts).1
      (readArgument fuel stops room ts).2
  factors : ∀ stops room acc ts, 6 * ts.length + 3 ≤ fuel →
    ReadsFactors True stops room acc ts (readFactors fuel stops room acc ts).1
      (readFactors fuel stops room acc ts).2

variable {fuel : Nat} {c : Char}

/-- Among characters only the three closing brackets close. -/
theorem closer?_char_eq_none (h : c ≠ '}' ∧ c ≠ ')' ∧ c ≠ ']') :
    (Token.char c).closer? = none := by
  unfold Token.closer?
  split <;> simp_all

/-- A factor of an argument without brackets is not skipped. -/
theorem isBlank_eq_false_of_factor (h : isFactorChar c = true) :
    (Token.char c).isBlank = false := by
  rw [Token.isBlank]
  by_contra hblank
  rw [Bool.not_eq_false] at hblank
  have halnum := Text.isAlphanumeric_eq_false_of_isBlank hblank
  simp only [isFactorChar, halnum, Bool.false_or, beq_iff_eq] at h
  subst h
  exact absurd hblank (by decide)

/-- A caret is no factor, so the two cases of the loop over factors exclude each other. -/
theorem ne_caret_of_factor (h : isFactorChar c = true) : c ≠ '^' := by
  rintro rfl
  exact absurd h (by decide)

/-- No opening bracket is part of a number. -/
theorem ne_of_isNumberChar (h : isNumberChar c = true) : c ≠ '{' ∧ c ≠ '(' ∧ c ≠ '[' := by
  refine ⟨?_, ?_, ?_⟩ <;> rintro rfl <;> exact absurd h (by decide)

/-- A letter opens nothing. -/
theorem ne_of_isLetter (h : Text.isLetter c = true) : c ≠ '{' ∧ c ≠ '(' ∧ c ≠ '[' := by
  refine ⟨?_, ?_, ?_⟩ <;> rintro rfl <;> exact absurd h (by decide)

/-- A fraction command is neither `\left` nor an escaped brace. -/
theorem ne_of_isFractionCommand {name : String} (h : isFractionCommand name = true) :
    name ≠ "left" ∧ name ≠ "\x7b" := by
  constructor <;> rintro rfl <;> exact absurd h (by decide)

/-- A factor is never taken for a missing operand. -/
theorem endsOperand_false_of_factor (h : isFactorChar c = true) :
    (Token.char c).endsOperand stops = false := by
  have hne : c ≠ '}' ∧ c ≠ ')' ∧ c ≠ ']' := by
    refine ⟨?_, ?_, ?_⟩ <;> rintro rfl <;> exact absurd h (by decide)
  simp [Token.endsOperand, Token.stops, closer?_char_eq_none hne]

/-- What starts an operand among siblings is never taken for a missing one. -/
theorem endsOperand_false_of_starts (hstop : t.stops stops = false)
    (hstart : t.startsOperand = true) : t.endsOperand stops = false := by
  have hcloser : t.closer? ≠ some .brace ∧ t.closer? ≠ some .right := by
    unfold Token.closer?
    split <;> simp_all [Token.startsOperand]
  simp [Token.endsOperand, hstop, hcloser]

/-- One round of the loop over siblings, with fuel enough, is one rule of the relation. The other
readers have a lemma each for their own rules. -/
theorem FuelSuffices.siblings_step (ih : FuelSuffices fuel) (stops : Stops) (room : Nat)
    (acc : List Node) (ts : List Token) (hfuel : 6 * ts.length + 2 ≤ fuel + 1) :
    ReadsSiblings True stops room acc ts (readSiblings (fuel + 1) stops room acc ts).1
      (readSiblings (fuel + 1) stops room acc ts).2 := by
  cases ts with
  | nil => exact .finish
  | cons t rest =>
    simp only [List.length_cons] at hfuel
    unfold readSiblings
    dsimp only
    split_ifs with hstop hblank
    · exact .stop hstop
    · exact .blank (by simpa using hstop) hblank (ih.siblings _ _ _ _ (by omega))
    · have hstop' : t.stops stops = false := by simpa using hstop
      have hblank' : t.isBlank = false := by simpa using hblank
      have hscripts : ∀ after : List Token, after <:+ rest → 6 * after.length + 2 ≤ fuel := by
        intro after h
        have := h.length_le
        omega
      split
      · exact .strayBrace hstop' (ih.siblings _ _ _ _ (by omega))
      · exact .strayParen hstop' (ih.siblings _ _ _ _ (by omega))
      · exact .strayBracket hstop' (ih.siblings _ _ _ _ (by omega))
      · exact .strayRight hstop' (ih.siblings _ _ _ _ (hscripts _ (delimiter_suffix rest)))
      · have hexp := ih.atom stops room true rest (by omega)
        exact .power hexp (ih.siblings _ _ _ _ (hscripts _ hexp.suffix))
      · have hscript := ih.atom stops room true rest (by omega)
        exact .script hscript (ih.siblings _ _ _ _ (hscripts _ hscript.suffix))
      · have hstart : t.startsOperand = true := by
          unfold Token.startsOperand
          split <;> simp_all
        have hnode := ih.atom stops room false (t :: rest) (by simp only [List.length_cons]; omega)
        -- an operand that is there takes a token, so the siblings behind it are fewer
        have hafter := hnode.takes_head hblank' (endsOperand_false_of_starts hstop' hstart)
        exact .operand hstop' hblank' hstart hnode (ih.siblings _ _ _ _ (hscripts _ hafter))

/-- An operand behind blanks: missing, at the limit, or one level further down. -/
theorem FuelSuffices.atom_step (ih : FuelSuffices fuel) (stops : Stops) (room : Nat)
    (single : Bool) (ts : List Token) (hfuel : 6 * ts.length + 1 ≤ fuel + 1) :
    ReadsAtom True stops room single ts (readAtom (fuel + 1) stops room single ts).1
      (readAtom (fuel + 1) stops room single ts).2 := by
  unfold readAtom
  split
  · next hskip => exact .missing hskip
  · next t rest hskip =>
    -- one token is taken behind the blanks, which pays for the level below
    have hlen := (skipBlanks_cons_suffix hskip).length_le
    have hlt : rest.length < ts.length := by
      have := (skipBlanks_suffix ts).length_le
      rw [hskip, List.length_cons] at this
      omega
    split
    · next hend => exact .ended hskip hend
    · next hend =>
      have hend' : t.endsOperand stops = false := by simpa [Token.endsOperand] using hend
      cases room with
      | zero => exact .limit trivial hskip hend'
      | succ room => exact .nested hskip hend' (ih.nested _ _ _ _ _ (by omega))

/-- The first token of an operand decides the rule. -/
theorem FuelSuffices.nested_step (ih : FuelSuffices fuel) (stops : Stops) (room : Nat)
    (single : Bool) (t : Token) (ts : List Token) (hfuel : 6 * ts.length + 6 ≤ fuel + 1) :
    ReadsNested True stops room single t ts (readNested (fuel + 1) stops room single t ts).1
      (readNested (fuel + 1) stops room single t ts).2 := by
  -- whatever part of the tokens a reader inside starts from, there is fuel for it
  have hsiblings : ∀ (stops : Stops) {us : List Token}, us <:+ ts →
      ReadsSiblings True stops room [] us (readSiblings fuel stops room [] us).1
        (readSiblings fuel stops room [] us).2 := by
    intro stops us hus
    have := hus.length_le
    exact ih.siblings _ _ _ _ (by omega)
  have hatom : ∀ {us : List Token}, us <:+ ts →
      ReadsAtom True stops room true us (readAtom fuel stops room true us).1
        (readAtom fuel stops room true us).2 := by
    intro us hus
    have := hus.length_le
    exact ih.atom _ _ _ _ (by omega)
  have hfunction : ∀ (fn : Fn) {us : List Token}, us <:+ ts →
      ReadsFunction True stops room fn none none us (readFunction fuel stops room fn none none us).1
        (readFunction fuel stops room fn none none us).2 := by
    intro fn us hus
    have := hus.length_le
    exact ih.function _ _ _ _ _ _ (by omega)
  unfold readNested
  dsimp only
  cases t with
  | char c =>
    dsimp only
    split_ifs with hbrace hparen hbracket hnum hletter
    · rw [beq_iff_eq] at hbrace
      exact hbrace ▸ .group (hsiblings _ List.suffix_rfl)
    · rw [beq_iff_eq] at hparen
      exact hparen ▸ .paren (hsiblings _ List.suffix_rfl)
    · rw [beq_iff_eq] at hbracket
      exact hbracket ▸ .bracket (hsiblings _ List.suffix_rfl)
    · exact .number hnum
    · exact .word (by simpa using hnum) hletter
    · exact .text (by simp_all) (by simpa using hnum) (by simpa using hletter)
  | command name =>
    dsimp only
    split_ifs with hleft hset hfrac hsqrt hnamed
    · rw [beq_iff_eq] at hleft
      subst hleft
      -- where `\right` is missing the reader and `closeDelimited` both give an empty delimiter
      have h := @ReadsNested.delimited True stops room single _ _ _
        (hsiblings (.right :: stops) (delimiter_suffix ts))
      revert h
      generalize readSiblings fuel (.right :: stops) room [] (delimiter ts).2 = read
      obtain ⟨children, after⟩ := read
      cases after with
      | nil => exact id
      | cons u more =>
        dsimp only
        split_ifs with hclose
        · simp only [closeDelimited, hclose, if_true]
          exact id
        · simp only [closeDelimited, hclose]
          exact id
    · rw [beq_iff_eq] at hset
      subst hset
      exact .set (hsiblings _ List.suffix_rfl)
    · have hnumerator := hatom List.suffix_rfl
      exact .fraction hfrac hnumerator (hatom hnumerator.suffix)
    · rw [beq_iff_eq] at hsqrt
      subst hsqrt
      split
      · next inside hskip =>
        have hindex := hsiblings (.bracket :: stops) (skipBlanks_cons_suffix hskip)
        exact .indexedRoot hskip hindex (hatom
          (((expect_suffix _ _).trans hindex.suffix).trans (skipBlanks_cons_suffix hskip)))
      · next hskip =>
        refine .root ?_ (hatom (skipBlanks_suffix ts))
        intro hhead
        obtain ⟨inside, hinside⟩ := List.head?_eq_some_iff.mp hhead
        exact hskip inside hinside
    · rw [beq_iff_eq] at hnamed
      subst hnamed
      have hinner := hatom List.suffix_rfl
      split
      · next fn hfn => exact .namedFunction hinner hfn (hfunction fn hinner.suffix)
      · next hfn => exact .named hinner hfn
    · have hname : isStructured name = false := by simp_all [isStructured]
      split
      · next fn hfn => exact .function hname hfn (hfunction fn List.suffix_rfl)
      · next hfn => exact .command hname hfn

/-- Each round of the loop over scripts takes one, until the argument comes. -/
theorem FuelSuffices.function_step (ih : FuelSuffices fuel) (stops : Stops) (room : Nat) (fn : Fn)
    (script power : Option Node) (ts : List Token) (hfuel : 6 * ts.length + 5 ≤ fuel + 1) :
    ReadsFunction True stops room fn script power ts
      (readFunction (fuel + 1) stops room fn script power ts).1
      (readFunction (fuel + 1) stops room fn script power ts).2 := by
  -- a script takes its mark, so there is fuel for another round
  have hlt : ∀ {u us}, skipBlanks ts = u :: us → us.length < ts.length := by
    intro u us hskip
    have := (skipBlanks_suffix ts).length_le
    rw [hskip, List.length_cons] at this
    omega
  unfold readFunction
  dsimp only
  split
  · next inside hskip =>
    have hinside := hlt hskip
    have hnode := ih.atom stops room true inside (by omega)
    have := hnode.suffix.length_le
    exact .script hskip hnode (ih.function _ _ _ _ _ _ (by omega))
  · next inside hskip =>
    have hinside := hlt hskip
    have hnode := ih.atom stops room true inside (by omega)
    have := hnode.suffix.length_le
    exact .power hskip hnode (ih.function _ _ _ _ _ _ (by omega))
  · next hscript hpower =>
    have := (skipBlanks_suffix ts).length_le
    refine .argument ?_ ?_ (ih.argument _ _ _ (by omega))
    · intro hhead
      obtain ⟨inside, hinside⟩ := List.head?_eq_some_iff.mp hhead
      exact hscript inside hinside
    · intro hhead
      obtain ⟨inside, hinside⟩ := List.head?_eq_some_iff.mp hhead
      exact hpower inside hinside

/-- An argument in brackets, without brackets, or none. -/
theorem FuelSuffices.argument_step (ih : FuelSuffices fuel) (stops : Stops) (room : Nat)
    (ts : List Token) (hfuel : 6 * ts.length + 4 ≤ fuel + 1) :
    ReadsArgument True stops room ts (readArgument (fuel + 1) stops room ts).1
      (readArgument (fuel + 1) stops room ts).2 := by
  cases ts with
  | nil => exact .missing
  | cons t rest =>
    unfold readArgument
    dsimp only
    split_ifs with hstop
    · exact .ended hstop
    · have hstop' : t.stops stops = false := by simpa using hstop
      -- no token is taken yet, but both readers have a lower rank
      have hatom := ih.atom stops room false (t :: rest) (by omega)
      have hfactors := ih.factors stops room [] (t :: rest) (by omega)
      cases t with
      | command name =>
        dsimp only
        split_ifs with hstart
        · exact .bracketed hstop' hstart hatom
        · exact .other hstop' (by simpa [Token.startsBracketed] using hstart) rfl
      | char c =>
        dsimp only
        split_ifs with hopen hfactor
        · exact .bracketed hstop' hopen hatom
        · exact .factors hstop' (by simpa [Token.startsBracketed] using hopen) hfactor hfactors
        · exact .other hstop' (by simpa [Token.startsBracketed] using hopen)
            (by simpa [Token.startsFactors, isFactorChar] using hfactor)

/-- Each round of the loop over factors takes a factor or a power. -/
theorem FuelSuffices.factors_step (ih : FuelSuffices fuel) (stops : Stops) (room : Nat)
    (acc : List Node) (ts : List Token) (hfuel : 6 * ts.length + 3 ≤ fuel + 1) :
    ReadsFactors True stops room acc ts (readFactors (fuel + 1) stops room acc ts).1
      (readFactors (fuel + 1) stops room acc ts).2 := by
  unfold readFactors
  split
  · next c rest =>
    simp only [List.length_cons] at hfuel
    split_ifs with hpower hfactor
    · simp only [Bool.and_eq_true, beq_iff_eq, Bool.not_eq_true'] at hpower
      obtain ⟨rfl, hacc⟩ := hpower
      have hexp := ih.atom stops room true rest (by omega)
      have := hexp.suffix.length_le
      exact .power hacc hexp (ih.factors _ _ _ _ (by omega))
    · have hnode := ih.atom stops room false (.char c :: rest)
        (by simp only [List.length_cons]; omega)
      -- a factor is never missing, so it takes its first character at least
      have := (hnode.takes_head (isBlank_eq_false_of_factor hfactor)
        (endsOperand_false_of_factor hfactor)).length_le
      exact .factor hfactor hnode (ih.factors _ _ _ _ (by omega))
    · refine .done ?_ ?_
      · by_cases hacc : acc.isEmpty <;> simp_all
      · intro d hd
        simp only [List.head?_cons, Option.some.injEq, Token.char.injEq] at hd
        subst hd
        simpa [isFactorChar] using hfactor
  · next hchar =>
    refine .done (Or.inr ?_) ?_
    · intro hhead
      obtain ⟨rest, hrest⟩ := List.head?_eq_some_iff.mp hhead
      exact hchar '^' rest hrest
    · intro c hhead
      obtain ⟨rest, hrest⟩ := List.head?_eq_some_iff.mp hhead
      exact absurd hrest (hchar c rest)

/-- Every amount of fuel is enough for the tokens that it allows. -/
theorem fuelSuffices (fuel : Nat) : FuelSuffices fuel := by
  induction fuel with
  | zero => constructor <;> intros <;> omega
  | succ fuel ih =>
    exact ⟨ih.siblings_step, ih.atom_step, ih.nested_step, ih.function_step, ih.argument_step,
      ih.factors_step⟩

/-- The reading of a whole input has a derivation, in which the limit may be met. -/
theorem ofTokens_reads (ts : List Token) :
    ∃ rest, ReadsSiblings True [] maxNesting [] ts (Node.ofTokens ts) rest :=
  ⟨_, (fuelSuffices _).siblings [] maxNesting [] ts (by unfold readingFuel; omega)⟩

/-! ## Every derivation is a reading -/

/-- Holds from some amount of fuel on. -/
def Eventually (p : Nat → Prop) : Prop := ∃ n, ∀ fuel, n ≤ fuel → p fuel

/-- What holds from two amounts of fuel on holds from the greater one on. -/
theorem Eventually.and {p q : Nat → Prop} (hp : Eventually p) (hq : Eventually q) :
    Eventually fun fuel => p fuel ∧ q fuel := by
  obtain ⟨n, hn⟩ := hp
  obtain ⟨m, hm⟩ := hq
  exact ⟨max n m, fun fuel hfuel => ⟨hn fuel (by omega), hm fuel (by omega)⟩⟩

/-- A reader spends one unit of fuel on itself. -/
theorem Eventually.succ {p q : Nat → Prop} (hp : Eventually p)
    (step : ∀ fuel, p fuel → q (fuel + 1)) : Eventually q := by
  obtain ⟨n, hn⟩ := hp
  refine ⟨n + 1, fun fuel hfuel => ?_⟩
  cases fuel with
  | zero => omega
  | succ fuel => exact step fuel (hn fuel (by omega))

/-- Every reader spends a unit of fuel before it does anything, so none is asked for a result
without fuel. -/
theorem Eventually.of_succ {q : Nat → Prop} (step : ∀ fuel, q (fuel + 1)) : Eventually q :=
  Eventually.succ (p := fun _ => True) ⟨0, fun _ _ => trivial⟩ fun fuel _ => step fuel

/-- The characters with a meaning of their own among siblings are no white space. -/
theorem isBlank_mark {c : Char} (h : c ∈ ['}', ')', ']', '^', '_']) :
    (Token.char c).isBlank = false := by
  simp only [List.mem_cons, List.not_mem_nil, or_false] at h
  rcases h with rfl | rfl | rfl | rfl | rfl <;> decide

mutual

/-- A derivation is what the readers compute, given fuel enough. Together with `FuelSuffices` the
rules are exactly the graph of the readers. -/
theorem ReadsSiblings.run {stops room acc ts nodes after} :
    ReadsSiblings flat stops room acc ts nodes after →
      Eventually fun fuel => readSiblings fuel stops room acc ts = (nodes, after)
  | .finish => .of_succ fun fuel => by rw [readSiblings]
  | .stop hstop => .of_succ fun fuel => by simp [readSiblings, hstop]
  | .blank hstop hblank h => h.run.succ fun fuel e => by
      unfold readSiblings
      simp [hstop, hblank, e]
  | .strayBrace hstop h => h.run.succ fun fuel e => by
      unfold readSiblings
      simp [hstop, e]
  | .strayParen hstop h => h.run.succ fun fuel e => by
      unfold readSiblings
      simp [hstop, isBlank_mark, e]
  | .strayBracket hstop h => h.run.succ fun fuel e => by
      unfold readSiblings
      simp [hstop, isBlank_mark, e]
  | .strayRight hstop h => h.run.succ fun fuel e => by
      unfold readSiblings
      simp [hstop, Token.isBlank, e]
  | .power hexp h => (hexp.run.and h.run).succ fun fuel ⟨e, e'⟩ => by
      unfold readSiblings
      simp [Token.stops, Token.closer?, isBlank_mark, e, e']
  | .script hscript h => (hscript.run.and h.run).succ fun fuel ⟨e, e'⟩ => by
      unfold readSiblings
      simp [Token.stops, Token.closer?, isBlank_mark, e, e']
  | .operand hstop hblank hstart hnode h => (hnode.run.and h.run).succ fun fuel ⟨e, e'⟩ => by
      unfold readSiblings
      simp only [hstop, hblank, e, e', Bool.false_eq_true, if_false]
      -- `hstart` leaves only the last branch
      split <;> simp_all [Token.startsOperand]

/-- A reading of an atom is what the recursive reader finds, given enough fuel. -/
theorem ReadsAtom.run {stops room single ts node after} :
    ReadsAtom flat stops room single ts node after →
      Eventually fun fuel => readAtom fuel stops room single ts = (node, after)
  | .missing hskip => .of_succ fun fuel => by simp [readAtom, hskip]
  | .ended hskip hend => .of_succ fun fuel => by
      unfold Token.endsOperand at hend
      simp only [readAtom, hskip, hend, if_true]
  | .limit _ hskip hend => .of_succ fun fuel => by
      unfold Token.endsOperand at hend
      simp [readAtom, hskip, hend]
  | .nested hskip hend h => h.run.succ fun fuel e => by
      unfold Token.endsOperand at hend
      simp [readAtom, hskip, hend, e]

/-- A reading of an enclosed part is what the recursive reader finds, given enough fuel. -/
theorem ReadsNested.run {stops room single t ts node after} :
    ReadsNested flat stops room single t ts node after →
      Eventually fun fuel => readNested fuel stops room single t ts = (node, after)
  | .group h => h.run.succ fun fuel e => by simp [readNested, e]
  | .paren h => h.run.succ fun fuel e => by simp [readNested, e]
  | .bracket h => h.run.succ fun fuel e => by simp [readNested, e]
  | .number hnum => .of_succ fun fuel => by
      have hopen := ne_of_isNumberChar hnum
      simp [readNested, hopen, hnum]
  | .word hnum hletter => .of_succ fun fuel => by
      have hopen := ne_of_isLetter hletter
      simp [readNested, hopen, hnum, hletter]
  | .text hopen hnum hletter => .of_succ fun fuel => by
      simp [readNested, hopen, hnum, hletter]
  | @ReadsNested.delimited _ _ _ _ _ _ after h => h.run.succ fun fuel e => by
      -- `\right` may be missing at the end of the markup
      cases after with
      | nil => simp [readNested, e, closeDelimited]
      | cons u more =>
        simp only [readNested, beq_self_eq_true, if_true, e, closeDelimited]
        split <;> rfl
  | .set h => h.run.succ fun fuel e => by simp [readNested, e]
  | .fraction hname hnum hden => (hnum.run.and hden.run).succ fun fuel ⟨e, e'⟩ => by
      simp [readNested, ne_of_isFractionCommand hname, hname, e, e']
  | .indexedRoot hskip hindex hrad => (hindex.run.and hrad.run).succ fun fuel ⟨e, e'⟩ => by
      simp [readNested, isFractionCommand, hskip, e, e']
  | .root hskip hrad => hrad.run.succ fun fuel e => by
      simp only [readNested]
      simp only [isFractionCommand, String.reduceBEq, Bool.or_self, Bool.false_eq_true, if_false,
        if_true]
      split
      · next inside h => exact absurd (by rw [h]; rfl) hskip
      · rw [e]
  | .namedFunction hinner hfn h => (hinner.run.and h.run).succ fun fuel ⟨e, e'⟩ => by
      simp [readNested, isFractionCommand, e, hfn, e']
  | .named hinner hfn => hinner.run.succ fun fuel e => by
      simp [readNested, isFractionCommand, e, hfn]
  | .function hname hfn h => h.run.succ fun fuel e => by
      simp only [isStructured, Bool.or_eq_false_iff] at hname
      simp [readNested, hname, hfn, e]
  | .command hname hfn => .of_succ fun fuel => by
      simp only [isStructured, Bool.or_eq_false_iff] at hname
      simp [readNested, hname, hfn]

/-- A reading of a function is what the recursive reader finds, given enough fuel. -/
theorem ReadsFunction.run {stops room fn script power ts node after} :
    ReadsFunction flat stops room fn script power ts node after →
      Eventually fun fuel => readFunction fuel stops room fn script power ts = (node, after)
  | .script hskip hnode h => (hnode.run.and h.run).succ fun fuel ⟨e, e'⟩ => by
      simp [readFunction, hskip, e, e']
  | .power hskip hnode h => (hnode.run.and h.run).succ fun fuel ⟨e, e'⟩ => by
      simp [readFunction, hskip, e, e']
  | .argument hscript hpower h => h.run.succ fun fuel e => by
      simp only [readFunction]
      split
      · next inside hskip => exact absurd (by rw [hskip]; rfl) hscript
      · next inside hskip => exact absurd (by rw [hskip]; rfl) hpower
      · rw [e]

/-- A reading of an argument is what the recursive reader finds, given enough fuel. -/
theorem ReadsArgument.run {stops room ts argument after} :
    ReadsArgument flat stops room ts argument after →
      Eventually fun fuel => readArgument fuel stops room ts = (argument, after)
  | .missing => .of_succ fun fuel => by rw [readArgument]
  | .ended hstop => .of_succ fun fuel => by simp [readArgument, hstop]
  | .other (t := t) hstop hopen hfactor => .of_succ fun fuel => by
      cases t <;> simp_all [readArgument, Token.startsBracketed, Token.startsFactors, isFactorChar]
  | .bracketed (t := t) hstop hopen h => h.run.succ fun fuel e => by
      cases t <;> simp_all [readArgument, Token.startsBracketed]
  | .factors (t := t) hstop hopen hfactor h => h.run.succ fun fuel e => by
      cases t <;> simp_all [readArgument, Token.startsBracketed, Token.startsFactors, isFactorChar]

/-- A reading of the factors of an argument is what the recursive reader finds, given enough
fuel. -/
theorem ReadsFactors.run {stops room acc ts nodes after} :
    ReadsFactors flat stops room acc ts nodes after →
      Eventually fun fuel => readFactors fuel stops room acc ts = (nodes, after)
  | .power hacc hexp h => (hexp.run.and h.run).succ fun fuel ⟨e, e'⟩ => by
      simp [readFactors, hacc, e, e']
  | .factor hfactor hnode h => (hnode.run.and h.run).succ fun fuel ⟨e, e'⟩ => by
      have hcaret := ne_caret_of_factor hfactor
      rw [isFactorChar] at hfactor
      simp [readFactors, hcaret, hfactor, e, e']
  | .done hpower hfactor => .of_succ fun fuel => by
      unfold readFactors
      split
      · next c rest =>
        have hc := hfactor c rfl
        rw [isFactorChar] at hc
        have hcaret : (c == '^' && !List.isEmpty acc) = false := by
          rcases hpower with hacc | hhead
          · simp [hacc]
          · simp_all
        simp [hcaret, hc]
      · rfl

end

/-! ## The nodes of an input -/

/-- Siblings are read to the end of the input or to a stop. -/
theorem ReadsSiblings.ends {stops room acc ts nodes after} :
    ReadsSiblings flat stops room acc ts nodes after →
      after = [] ∨ ∃ t rest, after = t :: rest ∧ t.stops stops = true
  | .finish => Or.inl rfl
  | .stop hstop => Or.inr ⟨_, _, rfl, hstop⟩
  | .blank _ _ h => h.ends
  | .strayBrace _ h => h.ends
  | .strayParen _ h => h.ends
  | .strayBracket _ h => h.ends
  | .strayRight _ h => h.ends
  | .power _ h => h.ends
  | .script _ h => h.ends
  | .operand _ _ _ _ h => h.ends

/-- Without stops the whole input is read. -/
theorem ReadsSiblings.ends_at_nil (h : ReadsSiblings flat [] room acc ts nodes after) :
    after = [] := by
  rcases h.ends with hnil | ⟨t, rest, -, hstop⟩
  · exact hnil
  · unfold Token.stops at hstop
    split at hstop <;> simp at hstop

/-- Any token sequence is read to its end: at the top level nothing stops the siblings. -/
theorem ofTokens_reads_all (ts : List Token) :
    ReadsSiblings True [] maxNesting [] ts (Node.ofTokens ts) [] := by
  obtain ⟨rest, h⟩ := ofTokens_reads ts
  exact h.ends_at_nil ▸ h

/-- The rules determine what is read. -/
theorem ReadsSiblings.unique {flat' : Prop} {nodes' : List Node} {after' : List Token}
    (h : ReadsSiblings flat stops room acc ts nodes after)
    (h' : ReadsSiblings flat' stops room acc ts nodes' after') :
    nodes = nodes' ∧ after = after' := by
  -- both results are what the reader returns with enough fuel
  obtain ⟨n, hn⟩ := h.run.and h'.run
  obtain ⟨e, e'⟩ := hn n le_rfl
  simpa using e.symm.trans e'

/-- A derivation for the whole input gives its nodes. -/
theorem ofTokens_eq_of_reads (h : ReadsSiblings flat [] maxNesting [] ts nodes after) :
    Node.ofTokens ts = nodes :=
  ((ofTokens_reads_all ts).unique h).1

end FormulaDesk.Markup
