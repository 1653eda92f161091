import FormulaDesk.Proofs.Reading.Adequacy

/-! # Reading keeps what was typed

Brackets, scripts and commands give a tree its shape; all other characters become its leaves.
However broken the markup is and however deep it goes, the leaves spell what was typed: nothing is
lost, nothing is added, and the order is kept (`ofMarkup_keeps_text`).

Each reader takes the text of the nodes that it returns from the tokens that it consumes. The two
are compared after the characters that group are taken out of both, since an unmatched closer may be
kept as another one.
-/

namespace FormulaDesk.Markup

/-! ## The text of a tree -/

/-- The characters that group or attach. -/
def groupingChars : List Char := ['{', '}', '(', ')', '[', ']', '^', '_']

def isGrouping (c : Char) : Bool := groupingChars.contains c

/-- A text without the characters that group or attach. -/
def ungrouped (cs : List Char) : List Char := cs.filter fun c => !isGrouping c

namespace Node

mutual

/-- What the leaves of a node spell, in the order in which they are typed. -/
def leafText : Node → List Char
  | .text value => value.toList
  | .number value => value.toList
  | .word value => value.toList
  | .command _ => []
  | .group children => leafTexts children
  | .delimited _ _ children => leafTexts children
  | .fraction numerator denominator => leafText numerator ++ leafText denominator
  | .root radicand index => leafText? index ++ leafText radicand
  | .superscript base exponent => leafText? base ++ leafText exponent
  | .subscript base script => leafText? base ++ leafText script
  | .function _ argument script power =>
    leafText? script ++ leafText? power ++ leafText? argument

def leafTexts : List Node → List Char
  | [] => []
  | node :: rest => leafText node ++ leafTexts rest

def leafText? : Option Node → List Char
  | none => []
  | some node => leafText node

end

/-- The leaves of siblings are those of the first ones and then those of the rest. -/
theorem leafTexts_append (ns ns' : List Node) :
    leafTexts (ns ++ ns') = leafTexts ns ++ leafTexts ns' := by
  induction ns with
  | nil => rfl
  | cons n ns ih => simp [leafTexts, ih]

/-- The sibling that is read last comes last in the text. -/
theorem leafTexts_reverse_cons (n : Node) (acc : List Node) :
    leafTexts (n :: acc).reverse = leafTexts acc.reverse ++ leafText n := by
  simp [leafTexts_append, leafTexts]

/-- The last node becomes the base of a script: its text stays in its place. -/
theorem leafTexts_reverse_base (acc : List Node) :
    leafTexts acc.tail.reverse ++ leafText? acc.head? = leafTexts acc.reverse := by
  cases acc with
  | nil => rfl
  | cons n acc => simp [leafText?, leafTexts_append, leafTexts]

end Node

/-! ## The text of tokens -/

/-- Whether the next token is the delimiter of this one. -/
def Token.takesDelimiter : Token → Bool
  | .command name => name == "left" || name == "right"
  | .char _ => false

/-- What a token adds to the text. -/
def Token.typed : Token → List Char
  | .char c => if Text.isBlank c || isGrouping c then [] else [c]
  | .command _ => []

/-- The text of tokens, where one right behind `\left` or `\right` is a delimiter and no text.
`delimiter` says whether the first one is. -/
def typedText : (delimiter : Bool) → List Token → List Char
  | _, [] => []
  | delimiter, t :: ts => (if delimiter then [] else t.typed) ++ typedText t.takesDelimiter ts

/-- Tokens of which all text becomes leaves: no name is spelled out, no function has a script of its
own, and no delimiter of `\left` or `\right` is itself one of these two. -/
structure Spelled (ts : List Token) : Prop where
  unnamed : .command "operatorname" ∉ ts
  scriptless : ∀ name rest, .command name :: rest <:+ ts → (Fn.ofCommand? name).isSome = true →
    (skipBlanks rest).head? ≠ some (.char '_') ∧ (skipBlanks rest).head? ≠ some (.char '^')
  delimited : ∀ t u rest, t :: u :: rest <:+ ts → t.takesDelimiter = true →
    u.takesDelimiter = false

variable {flat : Prop} {stops : Stops} {room : Nat} {single : Bool} {t : Token}
  {ts us rest after : List Token} {acc nodes : List Node} {node : Node} {c : Char}

/-- What is left of spelled tokens is spelled. -/
theorem Spelled.of_suffix (h : Spelled ts) (hsuffix : us <:+ ts) : Spelled us where
  unnamed hmem := h.unnamed (hsuffix.subset hmem)
  scriptless name rest hrest := h.scriptless name rest (hrest.trans hsuffix)
  delimited t u rest hrest := h.delimited t u rest (hrest.trans hsuffix)

theorem Spelled.tail (h : Spelled (t :: ts)) : Spelled ts := h.of_suffix (List.suffix_cons t ts)

/-- What `Spelled` asks of the first token. -/
def Token.spelled (rest : List Token) : Token → Bool
  | .char _ => true
  | .command name =>
    name != "operatorname"
      && ((Fn.ofCommand? name).isNone
        || (skipBlanks rest).head? != some (.char '_')
          && (skipBlanks rest).head? != some (.char '^'))
      && !((Token.command name).takesDelimiter && rest.head?.any Token.takesDelimiter)

def spelled : List Token → Bool
  | [] => true
  | t :: ts => t.spelled ts && spelled ts

/-- The test on all tokens holds of every suffix. -/
theorem spelled_of_suffix (h : us <:+ ts) (hts : spelled ts = true) : spelled us = true := by
  induction ts with
  | nil =>
    obtain rfl := List.suffix_nil.mp h
    rfl
  | cons t ts ih =>
    rcases List.suffix_cons_iff.mp h with rfl | hsuffix
    · exact hts
    · rw [spelled, Bool.and_eq_true] at hts
      exact ih hsuffix hts.2

/-- In spelled markup every token has what it needs behind it. -/
theorem spelled_first (h : t :: rest <:+ ts) (hts : spelled ts = true) :
    t.spelled rest = true := by
  have hfirst := spelled_of_suffix h hts
  rw [spelled, Bool.and_eq_true] at hfirst
  exact hfirst.1

/-- The test decides the condition. -/
theorem Spelled.of_spelled (h : spelled ts = true) : Spelled ts where
  unnamed hmem := by
    obtain ⟨before, rest, rfl⟩ := List.append_of_mem hmem
    have hfirst := spelled_first (List.suffix_append before _) h
    simp [Token.spelled] at hfirst
  scriptless name rest hrest hfn := by
    have hfirst := spelled_first hrest h
    simp only [Token.spelled, Bool.and_eq_true, Bool.or_eq_true, bne_iff_ne] at hfirst
    rcases hfirst.1.2 with hnone | hheads
    · rw [Option.isNone_iff_eq_none] at hnone
      simp [hnone] at hfn
    · exact hheads
  delimited t u rest hrest ht := by
    have hfirst := spelled_first hrest h
    cases t with
    | char c => simp [Token.takesDelimiter] at ht
    | command name =>
      simp only [Token.spelled, ht, Bool.true_and, Bool.and_eq_true] at hfirst
      simpa using hfirst.2

/-! ## What single tokens add -/

/-- Dropping the grouping characters can be done piece by piece. -/
theorem ungrouped_append (cs ds : List Char) :
    ungrouped (cs ++ ds) = ungrouped cs ++ ungrouped ds := List.filter_append ..

/-- A character that is no blank counts as itself, if it is not a brace. -/
theorem ungrouped_char (h : Text.isBlank c = false) : ungrouped [c] = (Token.char c).typed := by
  by_cases hgroup : isGrouping c = true
  · simp [ungrouped, Token.typed, hgroup]
  · simp [ungrouped, Token.typed, hgroup, h]

/-- Only `\left` and `\right` take the next token as a delimiter. -/
theorem takesDelimiter_command {name : String} (hleft : name ≠ "left") (hright : name ≠ "right") :
    (Token.command name).takesDelimiter = false := by
  simp [Token.takesDelimiter, hleft, hright]

/-- A token without text that takes no delimiter can be left out. -/
theorem typedText_cons (htyped : t.typed = []) (hdelimiter : t.takesDelimiter = false) :
    typedText false (t :: ts) = typedText false ts := by
  simp [typedText, htyped, hdelimiter]

/-- A character that is no blank is text that was typed, unless it groups. -/
theorem typedText_char (h : Text.isBlank c = false) :
    typedText false (.char c :: ts) = ungrouped [c] ++ typedText false ts := by
  rw [ungrouped_char h]
  rfl

/-- Away from delimiters a command types nothing. -/
theorem typedText_command {name : String} (hleft : name ≠ "left") (hright : name ≠ "right") :
    typedText false (.command name :: ts) = typedText false ts :=
  typedText_cons rfl (takesDelimiter_command hleft hright)

/-- Blanks are not part of the typed text. -/
theorem typedText_blank (h : t.isBlank = true) :
    typedText false (t :: ts) = typedText false ts := by
  cases t with
  | command name => simp [Token.isBlank] at h
  | char c =>
    have hblank : Text.isBlank c = true := h
    exact typedText_cons (by simp [Token.typed, hblank]) rfl

/-- Blanks are not text that was typed. -/
theorem typedText_skipBlanks (ts : List Token) :
    typedText false (skipBlanks ts) = typedText false ts := by
  induction ts with
  | nil => rfl
  | cons t ts ih =>
    by_cases hblank : t.isBlank = true
    · rw [typedText_blank hblank, ← ih]
      simp [skipBlanks, hblank]
    · simp [skipBlanks, hblank]

/-- A closer other than `\right` is no text. -/
theorem typedText_closer (closer : Closer) (h : t.closer? = some closer)
    (hright : closer ≠ .right) : typedText false (t :: ts) = typedText false ts := by
  unfold Token.closer? at h
  split at h
  · exact typedText_cons (by decide) rfl
  · exact typedText_cons (by decide) rfl
  · exact typedText_cons (by decide) rfl
  · simp only [Option.some.injEq] at h
    exact absurd h.symm hright
  · exact typedText_command (by decide) (by decide)
  · simp at h

/-- A closer that is taken is no typed character, apart from a delimiter behind `\right`. -/
theorem typedText_expect {closer : Closer} (hright : closer ≠ .right) (ts : List Token) :
    typedText false (expect closer ts) = typedText false ts := by
  cases ts with
  | nil => rfl
  | cons t ts =>
    simp only [expect]
    split
    · next h => exact (typedText_closer closer h hright).symm
    · rfl

/-- A delimiter is consumed with its command. -/
theorem typedText_delimiter (h : Spelled (t :: ts)) (ht : t.takesDelimiter = true) :
    typedText false (delimiter ts).2 = typedText true ts := by
  cases ts with
  | nil => rfl
  | cons u ts =>
    have hu : u.takesDelimiter = false := h.delimited t u ts List.suffix_rfl ht
    cases u <;> simp [delimiter, typedText, hu]

/-- Only `\right` closes a `\left`. -/
theorem eq_right_of_closer (h : t.closer? = some .right) : t = .command "right" := by
  unfold Token.closer? at h
  split at h <;> simp_all

/-- The delimiter behind `\right` is part of the construct and not of the typed text. -/
theorem typedText_right (h : Spelled (.command "right" :: ts)) :
    typedText false (.command "right" :: ts) = typedText false (delimiter ts).2 := by
  rw [typedText_delimiter h rfl]
  rfl

/-- The delimiter behind `\left` is no typed text either. -/
theorem typedText_left (h : Spelled (.command "left" :: ts)) :
    typedText false (.command "left" :: ts) = typedText false (delimiter ts).2 := by
  rw [typedText_delimiter h rfl]
  rfl

/-- Closing a `\left` passes no typed text: a delimiter behind `\right` is markup. -/
theorem typedText_closeDelimited (h : Spelled ts) :
    typedText false (closeDelimited ts).2 = typedText false ts := by
  cases ts with
  | nil => rfl
  | cons t ts =>
    simp only [closeDelimited]
    split
    · next hright =>
      obtain rfl := eq_right_of_closer (beq_iff_eq.mp hright)
      exact (typedText_right h).symm
    · rfl

/-! ## Runs and single tokens -/

/-- A character of a number is no blank. -/
theorem isBlank_of_isNumberChar (h : isNumberChar c = true) : Text.isBlank c = false := by
  refine isBlank_eq_false_of_factor (c := c) ?_
  simp only [isNumberChar, Bool.or_eq_true] at h
  rcases h with h | h <;> simp [isFactorChar, Text.isAlphanumeric, h]

/-- A letter is no blank. -/
theorem isBlank_of_isLetter (h : Text.isLetter c = true) : Text.isBlank c = false := by
  refine isBlank_eq_false_of_factor (c := c) ?_
  simp [isFactorChar, Text.isAlphanumeric, h]

/-- A run and what is left of the tokens have all the characters between them. -/
theorem takeRun_keeps {accept : Char → Bool}
    (haccept : ∀ c, accept c = true → Text.isBlank c = false) (ts : List Token) :
    ungrouped (takeRun accept ts).1 ++ typedText false (takeRun accept ts).2
      = typedText false ts := by
  induction ts with
  | nil => rfl
  | cons t ts ih =>
    cases t with
    | command name => rfl
    | char c =>
      unfold takeRun
      split
      · next hc =>
        have hcons : ungrouped (c :: (takeRun accept ts).1)
            = ungrouped [c] ++ ungrouped (takeRun accept ts).1 := ungrouped_append [c] _
        rw [hcons, List.append_assoc, ih, typedText_char (haccept c hc)]
      · rfl

/-- A number or word keeps its characters, the first one included. -/
theorem readRun_keeps {accept : Char → Bool}
    (haccept : ∀ c, accept c = true → Text.isBlank c = false) (single : Bool)
    (hc : Text.isBlank c = false) (ts : List Token) :
    ungrouped (readRun single accept c ts).1.toList
        ++ typedText false (readRun single accept c ts).2
      = typedText false (.char c :: ts) := by
  rw [typedText_char hc]
  cases single with
  | true => simp [readRun]
  | false =>
    have hcons : ungrouped (c :: (takeRun accept ts).1)
        = ungrouped [c] ++ ungrouped (takeRun accept ts).1 := ungrouped_append [c] _
    simp only [readRun, Bool.false_eq_true, if_false, String.toList_ofList]
    rw [hcons, List.append_assoc, takeRun_keeps haccept]

/-- Below the limit no character gets lost either: an opener that loses its closer stays as text. -/
theorem flatAtom_keeps (h : Spelled (t :: ts)) (hblank : t.isBlank = false)
    (hright : t.closer? ≠ some .right) :
    ungrouped (flatAtom t ts).1.leafText ++ typedText false (flatAtom t ts).2
      = typedText false (t :: ts) := by
  cases t with
  | char c =>
    rw [typedText_char hblank]
    unfold flatAtom
    dsimp only
    split_ifs with hbrace hopen hnum hletter
    · rw [beq_iff_eq] at hbrace
      subst hbrace
      rfl
    · -- brackets are text on neither side
      have hgroup : ungrouped [c] = [] := by
        simp only [Bool.or_eq_true, beq_iff_eq] at hopen
        rcases hopen with rfl | rfl <;> rfl
      rw [hgroup]
      rfl
    all_goals simp [Node.leafText]
  | command name =>
    have hname : name ≠ "right" := by
      rintro rfl
      exact hright rfl
    unfold flatAtom
    dsimp only
    split_ifs with hleft hset
    · rw [beq_iff_eq] at hleft
      subst hleft
      rw [typedText_left h]
      rfl
    · rw [beq_iff_eq] at hset
      subst hset
      rw [typedText_command (by decide) (by decide)]
      rfl
    · rw [typedText_command (by simpa using hleft) hname]
      rfl

/-! ## Readers -/

/-- What is left of spelled tokens is spelled. -/
theorem Spelled.of_skipBlanks (h : Spelled ts) (hskip : skipBlanks ts = t :: rest) :
    Spelled (t :: rest) :=
  h.of_suffix (hskip ▸ skipBlanks_suffix ts)

/-- A token that an operand can begin with is no `\right`. -/
theorem not_right_of_endsOperand (h : t.endsOperand stops = false) : t.closer? ≠ some .right := by
  intro hright
  simp [Token.endsOperand, hright] at h

/-- A command that does not close is another one than `\right`. -/
theorem ne_right_of_closer {name : String} (h : (Token.command name).closer? ≠ some .right) :
    name ≠ "right" := by
  rintro rfl
  exact h rfl

/-- A command without a construct of its own is another one than `\left`. -/
theorem ne_left_of_not_structured {name : String} (h : isStructured name = false) :
    name ≠ "left" := by
  rintro rfl
  exact absurd h (by decide)

/-- What stands behind skipped blanks is no blank. -/
theorem isBlank_of_skipBlanks (h : skipBlanks ts = t :: rest) : t.isBlank = false := by
  have := List.head?_dropWhile_not Token.isBlank ts
  rw [← skipBlanks, h] at this
  simpa using this

/-- A closer kept as text adds nothing. -/
theorem ungrouped_stray (acc : List Node) :
    ungrouped (Node.leafTexts (.text ")" :: acc).reverse)
      = ungrouped (Node.leafTexts acc.reverse) := by
  rw [Node.leafTexts_reverse_cons, ungrouped_append]
  simp [Node.leafText, ungrouped, isGrouping, groupingChars]

/-- One more sibling. -/
theorem keeps_operand
    (h : ungrouped node.leafText ++ typedText false rest = typedText false ts) (acc : List Node) :
    ungrouped (Node.leafTexts (node :: acc).reverse) ++ typedText false rest
      = ungrouped (Node.leafTexts acc.reverse) ++ typedText false ts := by
  rw [Node.leafTexts_reverse_cons, ungrouped_append, List.append_assoc, h]

/-- A script that takes the last sibling as its base. -/
theorem keeps_script {script : Node} {attach : Option Node → Node → Node} (acc : List Node)
    (hattach : ∀ base, (attach base script).leafText = Node.leafText? base ++ script.leafText)
    (h : ungrouped script.leafText ++ typedText false rest = typedText false ts) :
    ungrouped (Node.leafTexts (attach acc.head? script :: acc.tail).reverse) ++ typedText false rest
      = ungrouped (Node.leafTexts acc.reverse) ++ typedText false ts := by
  rw [Node.leafTexts_reverse_cons, hattach, ← List.append_assoc, Node.leafTexts_reverse_base,
    ungrouped_append, List.append_assoc, h]

/-- A power puts its exponent behind its base, in the order in which both were typed. -/
theorem keeps_superscript {exponent : Node} (acc : List Node)
    (h : ungrouped exponent.leafText ++ typedText false rest = typedText false ts) :
    ungrouped (Node.leafTexts (.superscript acc.head? exponent :: acc.tail).reverse)
        ++ typedText false rest
      = ungrouped (Node.leafTexts acc.reverse) ++ typedText false ts :=
  keeps_script acc (fun _ => rfl) h

/-- Wrapping the last node in a subscript keeps the text that was typed. -/
theorem keeps_subscript {script : Node} (acc : List Node)
    (h : ungrouped script.leafText ++ typedText false rest = typedText false ts) :
    ungrouped (Node.leafTexts (.subscript acc.head? script :: acc.tail).reverse)
        ++ typedText false rest
      = ungrouped (Node.leafTexts acc.reverse) ++ typedText false ts :=
  keeps_script acc (fun _ => rfl) h

mutual

/-- The typed characters of the tokens are those of the nodes and of what is left, in order. By
induction on the reading, with one lemma for each reader. -/
theorem ReadsSiblings.keeps {stops room acc ts nodes after} (hts : Spelled ts) :
    ReadsSiblings flat stops room acc ts nodes after →
      ungrouped (Node.leafTexts nodes) ++ typedText false after
        = ungrouped (Node.leafTexts acc.reverse) ++ typedText false ts
  | .finish => rfl
  | .stop _ => rfl
  | .blank _ hblank h => by
      rw [h.keeps hts.tail, typedText_blank hblank]
  | .strayBrace _ h => by
      rw [h.keeps hts.tail, typedText_closer .brace rfl (by decide)]
  | .strayParen _ h => by
      rw [h.keeps hts.tail, typedText_closer .paren rfl (by decide), ungrouped_stray]
  | .strayBracket _ h => by
      rw [h.keeps hts.tail, typedText_closer .bracket rfl (by decide), ungrouped_stray]
  | .strayRight _ h => by
      rw [h.keeps (hts.tail.of_suffix (delimiter_suffix _)), typedText_right hts, ungrouped_stray]
  | .power hexp h => by
      have hscript := keeps_superscript acc (hexp.keeps hts.tail)
      exact (h.keeps (hts.tail.of_suffix hexp.suffix)).trans hscript
  | .script hsub h => by
      have hscript := keeps_subscript acc (hsub.keeps hts.tail)
      exact (h.keeps (hts.tail.of_suffix hsub.suffix)).trans hscript
  | .operand _ _ _ hnode h => by
      have hoperand := keeps_operand (hnode.keeps hts) acc
      exact (h.keeps (hts.of_suffix hnode.suffix)).trans hoperand

/-- An atom and what is left behind it hold the text that was typed. -/
theorem ReadsAtom.keeps {stops room single ts node after} (hts : Spelled ts) :
    ReadsAtom flat stops room single ts node after →
      ungrouped node.leafText ++ typedText false after = typedText false ts
  | .missing hskip => by
      rw [← typedText_skipBlanks ts, hskip]
      rfl
  | .ended hskip _ => by
      rw [← typedText_skipBlanks ts, hskip]
      rfl
  | .limit _ hskip hend => by
      rw [← typedText_skipBlanks ts, hskip]
      exact flatAtom_keeps (hts.of_skipBlanks hskip) (isBlank_of_skipBlanks hskip)
        (not_right_of_endsOperand hend)
  | .nested hskip hend h => by
      rw [← typedText_skipBlanks ts, hskip]
      exact h.keeps (hts.of_skipBlanks hskip) (isBlank_of_skipBlanks hskip)
        (not_right_of_endsOperand hend)

/-- An enclosed part and what is left behind it hold the text that was typed. -/
theorem ReadsNested.keeps {stops room single t ts node after} (hts : Spelled (t :: ts))
    (hblank : t.isBlank = false) (hright : t.closer? ≠ some .right) :
    ReadsNested flat stops room single t ts node after →
      ungrouped node.leafText ++ typedText false after = typedText false (t :: ts)
  | .group h => by
      rw [typedText_expect (by decide), typedText_char hblank]
      exact h.keeps hts.tail
  | .paren h => by
      rw [typedText_expect (by decide), typedText_char hblank]
      exact h.keeps hts.tail
  | .bracket h => by
      rw [typedText_expect (by decide), typedText_char hblank]
      exact h.keeps hts.tail
  | .number _ => readRun_keeps (fun _ => isBlank_of_isNumberChar) single hblank ts
  | .word _ _ => readRun_keeps (fun _ => isBlank_of_isLetter) single hblank ts
  | .text _ _ _ => by
      rw [typedText_char hblank]
      simp [Node.leafText]
  | .delimited h => by
      -- the symbols behind `\left` and `\right` are delimiters and no text
      have hinside := hts.tail.of_suffix (delimiter_suffix ts)
      rw [typedText_closeDelimited (hinside.of_suffix h.suffix), typedText_left hts]
      exact h.keeps hinside
  | .set h => by
      rw [typedText_expect (by decide), typedText_command (by decide) (by decide)]
      exact h.keeps hts.tail
  | .fraction hname hnum hden => by
      have hnumerator := hnum.keeps hts.tail
      have hdenominator := hden.keeps (hts.tail.of_suffix hnum.suffix)
      rw [typedText_command (ne_of_isFractionCommand hname).1 (ne_right_of_closer hright),
        Node.leafText, ungrouped_append, List.append_assoc, hdenominator, hnumerator]
  | .indexedRoot hskip hindex hrad => by
      have hinside := hts.tail.of_skipBlanks hskip
      have hindex' := hindex.keeps hinside.tail
      have hradicand := hrad.keeps
        (hinside.tail.of_suffix ((expect_suffix .bracket _).trans hindex.suffix))
      rw [typedText_expect (by decide)] at hradicand
      rw [typedText_command (by decide) (by decide), ← typedText_skipBlanks ts, hskip,
        Node.leafText, ungrouped_append, List.append_assoc, hradicand,
        typedText_char (isBlank_of_skipBlanks hskip)]
      exact hindex'
  | .root _ hrad => by
      have hradicand := hrad.keeps (hts.tail.of_suffix (skipBlanks_suffix _))
      rw [typedText_skipBlanks] at hradicand
      rw [typedText_command (by decide) (by decide)]
      exact hradicand
  | .namedFunction _ _ _ => absurd List.mem_cons_self hts.unnamed
  | .named _ _ => absurd List.mem_cons_self hts.unnamed
  | .function hname hfn h => by
      obtain ⟨hscript, hpower⟩ := hts.scriptless _ _ List.suffix_rfl (by simp [hfn])
      rw [typedText_command (ne_left_of_not_structured hname) (ne_right_of_closer hright)]
      exact h.keeps hts.tail hscript hpower rfl rfl
  | .command hname _ => by
      rw [typedText_command (ne_left_of_not_structured hname) (ne_right_of_closer hright)]
      rfl

/-- The scripts of a function are looked up and not printed, so this holds of functions without
any. -/
theorem ReadsFunction.keeps {stops room fn script power ts node after} (hts : Spelled ts)
    (hscript : (skipBlanks ts).head? ≠ some (.char '_'))
    (hpower : (skipBlanks ts).head? ≠ some (.char '^')) :
    ReadsFunction flat stops room fn script power ts node after → script = none → power = none →
      ungrouped node.leafText ++ typedText false after = typedText false ts
  | .script hskip _ _, _, _ => absurd (by rw [hskip]; rfl) hscript
  | .power hskip _ _, _, _ => absurd (by rw [hskip]; rfl) hpower
  | .argument _ _ h, hnoscript, hnopower => by
      subst hnoscript hnopower
      have hargument := h.keeps (hts.of_suffix (skipBlanks_suffix _))
      rw [typedText_skipBlanks] at hargument
      exact hargument

/-- An argument and what is left behind it hold the text that was typed. -/
theorem ReadsArgument.keeps {stops room ts argument after} (hts : Spelled ts) :
    ReadsArgument flat stops room ts argument after →
      ungrouped (Node.leafText? argument) ++ typedText false after = typedText false ts
  | .missing => rfl
  | .ended _ => rfl
  | .other _ _ _ => rfl
  | .bracketed _ _ h => h.keeps hts
  | .factors _ _ _ h => h.keeps hts

/-- The factors of a bare argument and what is left behind them hold the text that was typed. -/
theorem ReadsFactors.keeps {stops room acc ts nodes after} (hts : Spelled ts) :
    ReadsFactors flat stops room acc ts nodes after →
      ungrouped (Node.leafTexts nodes) ++ typedText false after
        = ungrouped (Node.leafTexts acc.reverse) ++ typedText false ts
  | .power _ hexp h => by
      have hscript := keeps_superscript acc (hexp.keeps hts.tail)
      exact (h.keeps (hts.tail.of_suffix hexp.suffix)).trans hscript
  | .factor _ hnode h => by
      have hoperand := keeps_operand (hnode.keeps hts) acc
      exact (h.keeps (hts.of_suffix hnode.suffix)).trans hoperand
  | .done _ _ => rfl

end

/-! ## Markup -/

/-- The leaves of a markup spell what was typed: nothing is lost, nothing is added, and the order is
kept, whatever is missing, unmatched or nested too deep. -/
theorem ofMarkup_keeps_text {markup : String} (h : Spelled (Token.ofString markup)) :
    ungrouped (Node.leafTexts (Node.ofMarkup markup))
      = typedText false (Token.ofString markup) := by
  have hkeeps := (ofTokens_reads_all (Token.ofString markup)).keeps h
  rw [typedText, List.append_nil] at hkeeps
  exact hkeeps

/-- Brackets beyond the nesting limit, a closer of another kind, and operands that are missing. -/
theorem ofMarkup_keeps_text_tooDeep :
    ungrouped (Node.leafTexts (Node.ofMarkup (String.ofList (List.replicate (maxNesting + 1) '('
        ++ "\\left[x)^\x7b2.5\\sin ½ y\\frac\x7ba\x7d".toList))))
      = ['x', '2', '.', '5', '½', 'y', 'a'] := by
  have htokens : ∀ cs, Token.ofString (String.ofList cs) = Token.scan none cs := by
    intro cs
    rw [Token.ofString, String.toList_ofList]
  refine (ofMarkup_keeps_text (Spelled.of_spelled ?_)).trans ?_
  · rw [htokens]
    decide +kernel
  · rw [htokens]
    decide +kernel

end FormulaDesk.Markup
