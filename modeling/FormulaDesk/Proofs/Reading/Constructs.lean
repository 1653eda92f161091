import FormulaDesk.Proofs.Reading.Pieces

/-! # The constructs of markup

The texts that markup is put together from, and what each of them is read as when its parts are read
as known pieces.
-/

namespace FormulaDesk.Markup

/-! ## Texts -/

def braced (m : String) : String := "\x7b" ++ m ++ "\x7d"

def parenthesized (m : String) : String := "(" ++ m ++ ")"

def bracketed (m : String) : String := "[" ++ m ++ "]"

/-- Markup between typed braces. -/
def setBraced (m : String) : String := "\\\x7b" ++ m ++ "\\\x7d"

/-- Markup between bars. -/
def barred (m : String) : String := "\\left|" ++ m ++ "\\right|"

/-- Markup between parentheses that grow with it. -/
def leftRight (m : String) : String := "\\left(" ++ m ++ "\\right)"

def fracOf (m₁ m₂ : String) : String := "\\frac" ++ braced m₁ ++ braced m₂

def sqrtOf (m : String) : String := "\\sqrt" ++ braced m

/-- A root with an index. -/
def rootOf (index m : String) : String := "\\sqrt" ++ bracketed index ++ braced m

def commandOf (name : String) : String := "\\" ++ name

/-- What stands behind a command. A blank keeps letters apart. -/
def behindCommand (name : String) (gap : Bool) (m : String) : String :=
  if gap || name.toList.all Text.isAsciiLetter && m.toList.head?.any Text.isAsciiLetter then
    " " ++ m
  else m

def commandBefore (name : String) (gap : Bool) (m : String) : String :=
  commandOf name ++ behindCommand name gap m

variable {room : Nat} {stops : Stops} {s s' : String} {ns ns' : List Node} {node node' : Node}

/-! ## Numbers, words, symbols and commands -/

/-- A letter starts a word and no number. -/
theorem isNumberChar_of_isAsciiLetter {c : Char} (hc : Text.isAsciiLetter c = true) :
    isNumberChar c = false := by
  have hpoint : c ≠ '.' := by
    rintro rfl
    exact absurd hc (by decide)
  simp [isNumberChar, (Text.classes_of_isAsciiLetter hc).2.1, hpoint]

/-- A character of a number or word has no other meaning. -/
theorem run_char {c : Char} (h : isNumberChar c = true ∨ Text.isLetter c = true) :
    c ≠ '\\' ∧ (Token.char c).isBlank = false ∧ (Token.char c).startsOperand = true ∧
      (Token.char c).closer? = none := by
  refine ⟨?_, ?_, ?_, ?_⟩
  · rintro rfl
    exact absurd h (by decide)
  · by_contra hblank
    have hblank : Text.isBlank c = true := by simpa [Token.isBlank] using hblank
    have hother := Text.isAlphanumeric_eq_false_of_isBlank hblank
    simp only [Text.isAlphanumeric, Bool.or_eq_false_iff] at hother
    rcases h with hnum | hletter
    · simp only [isNumberChar, hother.1.2, Bool.false_or, beq_iff_eq] at hnum
      subst hnum
      exact absurd hblank (by decide)
    · rw [hother.1.1] at hletter
      simp at hletter
  · unfold Token.startsOperand
    split
    all_goals first | rfl | simp_all
    all_goals exact absurd h (by decide)
  · refine closer?_eq_none_of_ordinary (isOrdinary_of_not_bracket ?_)
    rcases h with hnum | hletter
    · exact Or.inr (Or.inl hnum)
    · exact Or.inl hletter

/-- A number or word is read to its end. -/
theorem isOperand_run {accept : Char → Bool} {make : String → Node}
    (haccept : ∀ c, accept c = true → isNumberChar c = true ∨ Text.isLetter c = true)
    {value : String} (hne : value ≠ "") (hvalue : ∀ c ∈ value.toList, accept c = true)
    (hrule : ∀ stops c ts, c ∈ value.toList → ReadsNested False stops room false (.char c) ts
      (make (readRun false accept c ts).1) (readRun false accept c ts).2) :
    IsOperand (room + 1) value (make value) := by
  obtain ⟨c, run, hc⟩ := List.exists_cons_of_ne_nil (mt String.toList_eq_nil_iff.mp hne)
  have hmem : c ∈ value.toList := by rw [hc]; exact List.mem_cons_self
  obtain ⟨hslash, hblank, hstart, hcloser⟩ := run_char (haccept c (hvalue c hmem))
  have hscan : ∀ cs, Token.scan none (value.toList ++ cs)
      = .char c :: Token.scan none (run ++ cs) := by
    intro cs
    rw [hc, List.cons_append, scan_char hslash]
  refine ⟨fun cs _ => ⟨_, _, hscan cs, hblank, hstart, hcloser⟩, fun stops cs hcs => ?_⟩
  -- what follows ends the run, so the reader takes the whole of `value` and no more
  have hrun : takeRun accept (Token.scan none (run ++ cs)) = (run, Token.scan none cs) :=
    takeRun_scan haccept
      (fun d hd => hvalue d (by rw [hc]; exact List.mem_cons_of_mem c hd)) hcs
  have hread := hrule stops c (Token.scan none (run ++ cs)) hmem
  have hwhole : String.ofList (c :: run) = value := by rw [← hc, String.ofList_toList]
  simp only [readRun, hrun, Bool.false_eq_true, if_false, hwhole] at hread
  rw [hscan]
  exact .nested (skipBlanks_cons hblank) (endsOperand_eq_false_of_closer hcloser) hread

/-- Digits and points are one number among siblings. -/
theorem isOperand_number {value : String} (hne : value ≠ "")
    (hvalue : ∀ c ∈ value.toList, isNumberChar c = true) :
    IsOperand (room + 1) value (.number value) :=
  isOperand_run (fun _ => Or.inl) hne hvalue fun _ c _ hc => .number (hvalue c hc)

/-- Letters are one word among siblings. -/
theorem isOperand_word {value : String} (hne : value ≠ "")
    (hvalue : ∀ c ∈ value.toList, Text.isAsciiLetter c = true) :
    IsOperand (room + 1) value (.word value) := by
  refine isOperand_run (fun _ => Or.inr) hne (fun c hc => ?_) fun stops c ts hc => ?_
  · exact (Text.classes_of_isAsciiLetter (hvalue c hc)).1
  · have hletter := hvalue c hc
    exact .word (isNumberChar_of_isAsciiLetter hletter) (Text.classes_of_isAsciiLetter hletter).1

/-- A letter alone is a word. -/
theorem isOperand_letter {c : Char} (hc : Text.isAsciiLetter c = true) :
    IsOperand (room + 1) (String.singleton c) (.word (String.singleton c)) := by
  refine isOperand_word (fun h => ?_) fun d hd => ?_
  · have := congrArg String.toList h
    simp at this
  · rw [String.toList_singleton, List.mem_singleton] at hd
    exact hd ▸ hc

/-- The operators and punctuation that stand for themselves. -/
def symbols : List Char := ['+', '-', '*', '/', '=', '<', '>', ',', ';', ':', '!']

/-- What the readers ask about a symbol before they take it as text. -/
theorem symbol_facts {c : Char} (hc : c ∈ symbols) : c ≠ '\\' ∧ (Token.char c).isBlank = false ∧
    (Token.char c).startsOperand = true ∧ (Token.char c).closer? = none ∧
    (c ≠ '{' ∧ c ≠ '(' ∧ c ≠ '[') ∧ isNumberChar c = false ∧ Text.isLetter c = false := by
  simp only [symbols, List.mem_cons, List.not_mem_nil, or_false] at hc
  rcases hc with rfl | rfl | rfl | rfl | rfl | rfl | rfl | rfl | rfl | rfl | rfl <;> decide

/-- A symbol is read alone, whatever follows it. -/
theorem symbol_reads {c : Char} (hc : c ∈ symbols) (stops : Stops) (cs : List Char) :
    ReadsAtom False stops (room + 1) false (Token.scan none (c :: cs)) (.text (String.singleton c))
      (Token.scan none cs) := by
  obtain ⟨hslash, hblank, -, hcloser, hopen, hnum, hletter⟩ := symbol_facts hc
  rw [scan_char hslash]
  exact .nested (skipBlanks_cons hblank) (endsOperand_eq_false_of_closer hcloser)
    (.text hopen hnum hletter)

/-- An operator or a punctuation mark is text among siblings. -/
theorem isOperand_symbol {c : Char} (hc : c ∈ symbols) :
    IsOperand (room + 1) (String.singleton c) (.text (String.singleton c)) := by
  obtain ⟨hslash, hblank, hstart, hcloser, -⟩ := symbol_facts hc
  refine ⟨fun cs _ => ⟨.char c, Token.scan none cs, ?_, hblank, hstart, hcloser⟩,
    fun stops cs _ => ?_⟩
  · simpa using scan_char hslash cs
  · simpa using symbol_reads hc stops cs

/-- A symbol before a text. Unlike a number or word it need not be kept apart from what follows. -/
theorem Emits.after_symbol {c : Char} (hc : c ∈ symbols) (h : Emits (room + 1) s ns) :
    Emits (room + 1) (String.singleton c ++ s) (.text (String.singleton c) :: ns) := by
  obtain ⟨hslash, hblank, hstart, hcloser, -⟩ := symbol_facts hc
  intro stops acc cs nodes after hcs hrest
  have hsymbol := @symbol_reads room c hc stops (s.toList ++ cs)
  have hrest' := h stops (.text (String.singleton c) :: acc) cs nodes after hcs
    (by simpa using hrest)
  rw [scan_char hslash] at hsymbol
  have := ReadsSiblings.operand (stops_eq_false_of_closer hcloser) hblank hstart hsymbol hrest'
  rw [← scan_char hslash] at this
  simpa using this

/-- Two texts with a symbol between them. -/
theorem Emits.around_symbol {c : Char} (hc : c ∈ symbols) (h : Emits (room + 1) s ns)
    (h' : Emits (room + 1) s' ns') :
    Emits (room + 1) (s ++ String.singleton c ++ s') (ns ++ .text (String.singleton c) :: ns') := by
  rw [String.append_assoc]
  refine h.append (h'.after_symbol hc) fun cs _ => ?_
  obtain ⟨-, -, -, -, -, hnum, hletter⟩ := symbol_facts hc
  simpa using EndsRun.cons hnum hletter

/-- A name of letters closes nothing, unless it is `right`. -/
theorem closer?_command {name : String} (hname : name.toList.all Text.isAsciiLetter = true)
    (hright : name ≠ "right") : (Token.command name).closer? = none := by
  unfold Token.closer?
  split
  case h_4 h => exact absurd (Token.command.inj h) hright
  case h_5 h =>
    rw [Token.command.inj h] at hname
    exact absurd hname (by decide)
  all_goals first | rfl | contradiction

theorem startsOperand_command {name : String} (hright : name ≠ "right") :
    (Token.command name).startsOperand = true := by
  unfold Token.startsOperand
  split <;> simp_all

/-- A command without structure is one operand, and stays a command. -/
theorem isOperand_command {name : String} (hne : name ≠ "")
    (hname : name.toList.all Text.isAsciiLetter = true) (hright : name ≠ "right")
    (hplain : isStructured name = false) (hfn : Fn.ofCommand? name = none) :
    IsOperand (room + 1) (commandOf name) (.command name) := by
  have hscan : ∀ cs, EndsRun cs → Token.scan none ((commandOf name).toList ++ cs)
      = .command name :: Token.scan none cs := by
    intro cs hcs
    simpa [commandOf] using scan_command hne hname hcs.ends_command
  have hcloser : (Token.command name).closer? = none := closer?_command hname hright
  refine ⟨fun cs hcs => ⟨_, _, hscan cs hcs, rfl, startsOperand_command hright, hcloser⟩, ?_⟩
  intro stops cs hcs
  rw [hscan cs hcs]
  exact .nested (skipBlanks_cons rfl) (endsOperand_eq_false_of_closer hcloser)
    (.command hplain hfn)

theorem commandBefore_toList (name : String) (gap : Bool) (m : String) :
    (commandBefore name gap m).toList
      = '\\' :: (name.toList ++ (behindCommand name gap m).toList) := by
  simp [commandBefore, commandOf]

/-- A backslash ends any run, so a command may follow any text. -/
theorem endsRun_commandBefore (name : String) (gap : Bool) (m : String) (cs : List Char) :
    EndsRun ((commandBefore name gap m).toList ++ cs) := by
  rw [commandBefore_toList]
  exact .cons (by decide) (by decide)

/-- The blank that may be needed behind a command is no node. -/
theorem Emits.behindCommand (h : Emits room s ns) (name : String) (gap : Bool) :
    Emits room (behindCommand name gap s) ns := by
  unfold Markup.behindCommand
  split
  · exact h.after_blank
  · exact h

/-- A name of letters ends before what stands behind it. -/
theorem behindCommand_head {name : String} {gap : Bool}
    (hname : name.toList.all Text.isAsciiLetter = true) {cs : List Char} (hcs : EndsRun cs) :
    ∀ c, ((behindCommand name gap s).toList ++ cs).head? = some c →
      Text.isAsciiLetter c = false := by
  intro c hc
  unfold behindCommand at hc
  split at hc
  · rw [toList_blank, List.head?_cons, Option.some.injEq] at hc
    exact hc ▸ by decide
  · next hgap =>
    cases hlist : s.toList with
    | nil =>
      rw [hlist, List.nil_append] at hc
      exact hcs.ends_command c hc
    | cons d ds =>
      rw [hlist, List.cons_append, List.head?_cons, Option.some.injEq] at hc
      have hapart : gap = false ∧ Text.isAsciiLetter d = false := by
        simpa [hname, hlist] using hgap
      exact hc ▸ hapart.2

/-- The scanner reads the name of the command to its end: a name that is all letters up to the first
other character. -/
def ScansAlone (name : String) : Prop :=
  ∀ cs, (name.toList.all Text.isAsciiLetter = true →
      ∀ c, cs.head? = some c → Text.isAsciiLetter c = false) →
    Token.scan none ('\\' :: (name.toList ++ cs)) = .command name :: Token.scan none cs

/-- The blank that may stand behind the name keeps letters of the text out of it. -/
theorem ScansAlone.commandBefore {name : String} (h : ScansAlone name) (gap : Bool) (m : String)
    {cs : List Char} (hcs : EndsRun cs) :
    Token.scan none ((commandBefore name gap m).toList ++ cs)
      = .command name :: Token.scan none ((behindCommand name gap m).toList ++ cs) := by
  simpa [Markup.commandBefore, commandOf] using h _ fun hname => behindCommand_head hname hcs

/-- A command without structure before a text. -/
theorem Emits.after_plain_command {name : String} (gap : Bool)
    (hcloser : (Token.command name).closer? = none)
    (hstart : (Token.command name).startsOperand = true) (hplain : isStructured name = false)
    (hfn : Fn.ofCommand? name = none) (h : Emits (room + 1) s ns) (hscan : ScansAlone name) :
    Emits (room + 1) (commandBefore name gap s) (.command name :: ns) := by
  intro stops acc cs nodes after hcs hrest
  have hrest' := h.behindCommand name gap stops (.command name :: acc) cs nodes after hcs
    (by simpa using hrest)
  rw [hscan.commandBefore gap s hcs]
  exact .operand (stops_eq_false_of_closer hcloser) rfl hstart
    (.nested (skipBlanks_cons rfl) (endsOperand_eq_false_of_closer hcloser) (.command hplain hfn))
    hrest'

/-! ## Brackets -/

/-- What stands between an opener and a closer is read first, whatever is open around it. -/
theorem Emits.enclosed (h : Emits room s ns) (t u : Token) (close : List Char) {text : String}
    {closer : Closer} (hopen : t ∈ openers) (hcloser : u.closer? = some closer)
    (hclose : ∀ cs, EndsRun (close ++ cs) ∧ Token.scan none (close ++ cs) = u :: Token.scan none cs)
    (hscan : ∀ cs, Token.scan none (text.toList ++ cs)
      = t :: Token.scan none (s.toList ++ (close ++ cs)))
    (hrule : ∀ stops single ts after, ReadsSiblings False (closer :: stops) room [] ts ns after →
      ReadsNested False stops room single t ts node (expect closer after)) :
    IsBracketed (room + 1) text node := by
  refine ⟨fun cs => ⟨_, _, hscan cs, hopen⟩, fun stops single cs => ?_⟩
  obtain ⟨hblank, -, hnone, -⟩ := opener_facts hopen
  -- inside, the closer of the bracket is one more stop
  have hinside := h.before_closer (hclose cs).2 hcloser (hclose cs).1 stops
  have hread := hrule stops single _ _ hinside
  rw [expect_cons hcloser] at hread
  rw [hscan]
  exact .nested (skipBlanks_cons hblank) (endsOperand_eq_false_of_closer hnone) hread

/-- The tokens of a group: its braces are tokens of their own. -/
theorem scan_braced (m : String) (cs : List Char) : Token.scan none ((braced m).toList ++ cs)
    = .char '{' :: Token.scan none (m.toList ++ '}' :: cs) := by
  simp [braced, Token.scan]

/-- Braces around markup are a group of what stands inside. -/
theorem Emits.braced (h : Emits room s ns) : IsBracketed (room + 1) (braced s) (.group ns) :=
  h.enclosed (.char '{') (.char '}') ['}'] (by decide) rfl
    (fun cs => ⟨.cons (by decide) (by decide), scan_char (by decide) cs⟩)
    (scan_braced s) fun _ _ _ _ => .group

/-- Typed parentheses stay in the tree. -/
theorem Emits.parenthesized (h : Emits room s ns) :
    IsBracketed (room + 1) (parenthesized s) (.delimited "(" ")" ns) :=
  h.enclosed (.char '(') (.char ')') [')'] (by decide) rfl
    (fun cs => ⟨.cons (by decide) (by decide), scan_char (by decide) cs⟩)
    (fun cs => by simp [Markup.parenthesized, Token.scan]) fun _ _ _ _ => .paren

/-- Square brackets are delimiters of their own wherever no index of a root is read. -/
theorem Emits.bracketed (h : Emits room s ns) :
    IsBracketed (room + 1) (bracketed s) (.delimited "[" "]" ns) :=
  h.enclosed (.char '[') (.char ']') [']'] (by decide) rfl
    (fun cs => ⟨.cons (by decide) (by decide), scan_char (by decide) cs⟩)
    (fun cs => by simp [Markup.bracketed, Token.scan]) fun _ _ _ _ => .bracket

/-- Escaped braces are delimiters, not a group. -/
theorem Emits.setBraced (h : Emits room s ns) :
    IsBracketed (room + 1) (setBraced s) (.delimited "\x7b" "\x7d" ns) :=
  h.enclosed (.command "\x7b") (.command "\x7d") ['\\', '}'] (by decide) rfl
    (fun cs => ⟨.cons (by decide) (by decide), rfl⟩)
    (fun cs => by simp [Markup.setBraced, Token.scan, Text.isAsciiLetter]) fun _ _ _ _ => .set

/-- Delimiters of one character after `\left` and `\right`. -/
theorem Emits.delimited (h : Emits room s ns) {c d : Char} (hopener : c = '(' ∨ c = '|')
    (hcloser : d = ')' ∨ d = '|') {text : String}
    (hscan : ∀ cs, Token.scan none (text.toList ++ cs) = .command "left" :: .char c
      :: Token.scan none (s.toList ++ '\\' :: 'r' :: 'i' :: 'g' :: 'h' :: 't' :: d :: cs)) :
    IsBracketed (room + 1) text
      (.delimited (String.singleton c) (String.singleton d) ns) := by
  -- no delimiter is a letter, so `\right` ends before it
  have hclose : ∀ cs, Token.scan none ('\\' :: 'r' :: 'i' :: 'g' :: 'h' :: 't' :: d :: cs)
      = .command "right" :: .char d :: Token.scan none cs := by
    intro cs
    rcases hcloser with rfl | rfl <;> rfl
  refine ⟨fun cs => ⟨_, _, hscan cs, by decide⟩, fun stops single cs => ?_⟩
  have hinside := h.before_closer (hclose cs) rfl (.cons (by decide) (by decide)) stops
  have hread := @ReadsNested.delimited False stops room single (.char c :: Token.scan none
    (s.toList ++ '\\' :: 'r' :: 'i' :: 'g' :: 'h' :: 't' :: d :: cs)) ns _ hinside
  have hends : closeDelimited (.command "right" :: .char d :: Token.scan none cs)
      = (String.singleton d, Token.scan none cs) := by
    rcases hcloser with rfl | rfl <;> rfl
  have hstart : (if c == '.' then "" else String.singleton c) = String.singleton c := by
    rcases hopener with rfl | rfl <;> rfl
  rw [hends] at hread
  simp only [delimiter, hstart] at hread
  rw [hscan]
  exact .nested (skipBlanks_cons rfl) (endsOperand_eq_false_of_closer rfl) hread

/-- Bars that grow are an absolute value. -/
theorem Emits.barred (h : Emits room s ns) :
    IsBracketed (room + 1) (barred s) (.delimited "|" "|" ns) :=
  h.delimited (c := '|') (d := '|') (Or.inr rfl) (Or.inr rfl) fun cs => by
    simp [Markup.barred, Token.scan, Text.isAsciiLetter]

/-- Parentheses that grow are the same delimiters as typed ones. -/
theorem Emits.leftRight (h : Emits room s ns) :
    IsBracketed (room + 1) (leftRight s) (.delimited "(" ")" ns) :=
  h.delimited (c := '(') (d := ')') (Or.inl rfl) (Or.inl rfl) fun cs => by
    simp [Markup.leftRight, Token.scan, Text.isAsciiLetter]

/-! ## Fractions, roots and scripts -/

/-- The tokens of a fraction: the command and two groups. -/
theorem scan_fracOf (s s' : String) (cs : List Char) :
    Token.scan none ((fracOf s s').toList ++ cs) = .command "frac"
      :: Token.scan none ((braced s).toList ++ ((braced s').toList ++ cs)) := by
  simp [fracOf, braced, Token.scan, Text.isAsciiLetter]

/-- A fraction is read alike among siblings and where one operand is wanted. -/
theorem frac_reads (h : Emits room s ns) (h' : Emits room s' ns') (stops : Stops) (single : Bool)
    (cs : List Char) :
    ReadsAtom False stops (room + 2) single (Token.scan none ((fracOf s s').toList ++ cs))
      (.fraction (.group ns) (.group ns')) (Token.scan none cs) := by
  rw [scan_fracOf]
  exact .nested (skipBlanks_cons rfl) (endsOperand_eq_false_of_closer rfl)
    (.fraction rfl (h.braced.isScript _ _) (h'.braced.isScript _ _))

/-- A fraction ends with its brace, so anything may follow it. -/
theorem isBlock_frac (h : Emits room s ns) (h' : Emits room s' ns') :
    IsBlock (room + 2) (fracOf s s') (.fraction (.group ns) (.group ns')) where
  starts cs := ⟨_, _, scan_fracOf s s' cs, rfl, rfl, rfl, by simp⟩
  reads stops cs := frac_reads h h' stops false cs

theorem isOperand_frac (h : Emits room s ns) (h' : Emits room s' ns') :
    IsOperand (room + 2) (fracOf s s') (.fraction (.group ns) (.group ns')) :=
  (isBlock_frac h h').isOperand

/-- A fraction is a script without braces of its own. -/
theorem isScript_frac (h : Emits room s ns) (h' : Emits room s' ns') :
    IsScript (room + 2) (fracOf s s') (.fraction (.group ns) (.group ns')) :=
  fun stops cs => frac_reads h h' stops true cs

/-- A square root ends with its brace. What follows the command is a brace and so no index. -/
theorem isBlock_sqrt (h : Emits room s ns) :
    IsBlock (room + 2) (sqrtOf s) (.root (.group ns) none) := by
  have hscan : ∀ cs, Token.scan none ((sqrtOf s).toList ++ cs) = .command "sqrt"
      :: Token.scan none ((braced s).toList ++ cs) := by
    intro cs
    simp [sqrtOf, braced, Token.scan, Text.isAsciiLetter]
  refine ⟨fun cs => ⟨_, _, hscan cs, rfl, rfl, rfl, by simp⟩, fun stops cs => ?_⟩
  -- a brace comes next, and so no index
  have hbody : skipBlanks (Token.scan none ((braced s).toList ++ cs))
      = Token.scan none ((braced s).toList ++ cs) := by
    rw [scan_braced]
    exact skipBlanks_cons (by decide)
  rw [hscan]
  refine .nested (skipBlanks_cons rfl) (endsOperand_eq_false_of_closer rfl) (.root ?_ ?_)
  · rw [hbody, scan_braced]
    simp
  · rw [hbody]
    exact h.braced.isScript _ _

theorem isOperand_sqrt (h : Emits room s ns) :
    IsOperand (room + 2) (sqrtOf s) (.root (.group ns) none) := (isBlock_sqrt h).isOperand

/-- A root with an index in brackets directly behind the command. -/
theorem isOperand_root (h : Emits room s ns) (h' : Emits (room + 1) s' ns') :
    IsOperand (room + 2) (rootOf s' s) (.root (.group ns) (some (.group ns'))) := by
  have hscan : ∀ cs, Token.scan none ((rootOf s' s).toList ++ cs) = .command "sqrt" :: .char '['
      :: Token.scan none (s'.toList ++ ']' :: ((braced s).toList ++ cs)) := by
    intro cs
    simp [rootOf, braced, bracketed, Token.scan, Text.isAsciiLetter]
  refine ⟨fun cs _ => ⟨_, _, hscan cs, by decide⟩, fun stops cs _ => ?_⟩
  rw [hscan]
  refine .nested (skipBlanks_cons rfl) (endsOperand_eq_false_of_closer rfl)
    (.indexedRoot (skipBlanks_cons (by decide))
      (h'.before_closer (scan_char (by decide) _) rfl (.cons (by decide) (by decide)) stops) ?_)
  rw [expect_cons rfl]
  exact h.braced.isScript _ _

/-- Of a number behind `^` or `_` only the first character is read. -/
theorem isScript_numberChar {c : Char} (hc : isNumberChar c = true) :
    IsScript (room + 1) (String.singleton c) (.number (String.singleton c)) := by
  obtain ⟨hslash, hblank, -, hcloser⟩ := run_char (Or.inl hc)
  intro stops cs
  rw [String.toList_singleton, List.singleton_append, scan_char hslash]
  exact .nested (skipBlanks_cons hblank) (endsOperand_eq_false_of_closer hcloser) (.number hc)

/-- Of a word behind `^` or `_` only the first letter is read. -/
theorem isScript_letter {c : Char} (hc : Text.isAsciiLetter c = true) :
    IsScript (room + 1) (String.singleton c) (.word (String.singleton c)) := by
  have hletter := (Text.classes_of_isAsciiLetter hc).1
  obtain ⟨hslash, hblank, -, hcloser⟩ := run_char (Or.inr hletter)
  intro stops cs
  rw [String.toList_singleton, List.singleton_append, scan_char hslash]
  exact .nested (skipBlanks_cons hblank) (endsOperand_eq_false_of_closer hcloser)
    (.word (isNumberChar_of_isAsciiLetter hc) hletter)

/-- A power of a text that is one sibling. -/
theorem Emits.superscript (h : Emits room s [node]) (h' : IsScript room s' node') :
    Emits room (s ++ "^" ++ s') [.superscript (some node) node'] := by
  intro stops acc cs nodes after hcs hrest
  have hpower := @ReadsSiblings.power False stops room (node :: acc) _ _ _ _ _
    (h' stops cs) hrest
  have := h stops acc ('^' :: (s'.toList ++ cs)) nodes after (.cons (by decide) (by decide))
    (by rw [scan_char (by decide)]; exact hpower)
  simpa using this

/-- A power of the last sibling of a text, before another text. -/
theorem Emits.superscript_before {t : String} {ms : List Node} (h : Emits room s (ns ++ [node]))
    (h' : IsScript room s' node') (ht : Emits room t ms) :
    Emits room (s ++ "^" ++ s' ++ t) (ns ++ .superscript (some node) node' :: ms) := by
  intro stops acc cs nodes after hcs hrest
  have hbehind := ht stops (.superscript (some node) node' :: (ns.reverse ++ acc)) cs nodes after
    hcs (by simpa using hrest)
  have hpower := @ReadsSiblings.power False stops room (node :: (ns.reverse ++ acc)) _ _ _ _ _
    (h' stops (t.toList ++ cs)) hbehind
  have := h stops acc ('^' :: (s'.toList ++ (t.toList ++ cs))) nodes after
    (.cons (by decide) (by decide)) (by rw [scan_char (by decide)]; simpa using hpower)
  simpa using this

/-- An index of a text that is one sibling. -/
theorem Emits.subscript (h : Emits room s [node]) (h' : IsScript room s' node') :
    Emits room (s ++ "_" ++ s') [.subscript (some node) node'] := by
  intro stops acc cs nodes after hcs hrest
  have hscript := @ReadsSiblings.script False stops room (node :: acc) _ _ _ _ _
    (h' stops cs) hrest
  have := h stops acc ('_' :: (s'.toList ++ cs)) nodes after (.cons (by decide) (by decide))
    (by rw [scan_char (by decide)]; exact hscript)
  simpa using this

/-! ## Functions -/

/-- The text behind the name of a function: what is left of its scripts, and its argument. -/
structure IsApplied (room : Nat) (fn : Fn) (script power : Option Node) (s : String) (node : Node) :
    Prop where
  starts : ∀ cs c, (s.toList ++ cs).head? = some c → Text.isAsciiLetter c = false
  reads : ∀ stops cs, ReadsFunction False stops room fn script power
    (Token.scan none (s.toList ++ cs)) node (Token.scan none cs)

/-- No bracket goes on with the name of a command before it. -/
theorem IsBracketed.starts_no_letter (h : IsBracketed room s node) (cs : List Char) (c : Char)
    (hc : (s.toList ++ cs).head? = some c) : Text.isAsciiLetter c = false := by
  obtain ⟨t, ts, hscan, hopen⟩ := h.starts cs
  obtain ⟨rest, hrest⟩ := List.head?_eq_some_iff.mp hc
  -- a letter is scanned as itself, and no opener is a letter
  by_contra hletter
  have hslash : c ≠ '\\' := by
    rintro rfl
    exact absurd hletter (by decide)
  rw [hrest, scan_char hslash, List.cons.injEq] at hscan
  rw [← hscan.1] at hopen
  simp only [openers, List.mem_cons, Token.char.injEq, reduceCtorEq, List.not_mem_nil, or_false]
    at hopen
  rcases hopen with rfl | rfl | rfl <;> exact absurd hletter (by decide)

variable {fn : Fn} {script power : Option Node}

/-- A bracketed operand behind a function, or behind its scripts, is its argument. -/
theorem IsBracketed.isApplied (h : IsBracketed room s node) :
    IsApplied room fn script power s (.function fn (some node) script power) := by
  refine ⟨h.starts_no_letter, fun stops cs => ?_⟩
  obtain ⟨t, ts, hscan, hopen⟩ := h.starts cs
  obtain ⟨hblank, -, hcloser, hbracket, hpower, hscript⟩ := opener_facts hopen
  have hread := h.reads stops false cs
  rw [hscan] at hread ⊢
  have hskip : skipBlanks (t :: ts) = t :: ts := skipBlanks_cons hblank
  refine .argument ?_ ?_ ?_
  · rw [hskip]
    simpa using hscript
  · rw [hskip]
    simpa using hpower
  · rw [hskip]
    exact .bracketed (stops_eq_false_of_closer hcloser) hbracket hread

/-- A subscript behind the name. One given later would count instead, so none may stand behind
it. -/
theorem IsApplied.after_script (h : IsApplied room fn (some node') power s node)
    (h' : IsScript room s' node') : IsApplied room fn script power ("_" ++ s' ++ s) node := by
  have hlist : ∀ cs, ("_" ++ s' ++ s).toList ++ cs = '_' :: (s'.toList ++ (s.toList ++ cs)) := by
    intro cs
    simp
  refine ⟨fun cs c hc => ?_, fun stops cs => ?_⟩
  · rw [hlist, List.head?_cons, Option.some.injEq] at hc
    exact hc ▸ by decide
  · rw [hlist, scan_char (by decide)]
    exact .script (skipBlanks_cons (by decide)) (h' _ _) (h.reads stops cs)

/-- A superscript behind the name. -/
theorem IsApplied.after_power (h : IsApplied room fn script (some node') s node)
    (h' : IsScript room s' node') : IsApplied room fn script power ("^" ++ s' ++ s) node := by
  have hlist : ∀ cs, ("^" ++ s' ++ s).toList ++ cs = '^' :: (s'.toList ++ (s.toList ++ cs)) := by
    intro cs
    simp
  refine ⟨fun cs c hc => ?_, fun stops cs => ?_⟩
  · rw [hlist, List.head?_cons, Option.some.injEq] at hc
    exact hc ▸ by decide
  · rw [hlist, scan_char (by decide)]
    exact .power (skipBlanks_cons (by decide)) (h' _ _) (h.reads stops cs)

/-- The command of a function has a name of letters, no structure of its own, and is read as that
function. -/
theorem fn_command_facts (fn : Fn) : fn.command ≠ "" ∧
    fn.command.toList.all Text.isAsciiLetter = true ∧ fn.command ≠ "right" ∧
    isStructured fn.command = false ∧ Fn.ofCommand? fn.command = some fn := by
  cases fn <;> decide

/-- A function with its scripts and its argument is one operand that ends with the argument. -/
theorem IsApplied.isBlock (h : IsApplied room fn none none s node) :
    IsBlock (room + 1) (commandOf fn.command ++ s) node := by
  obtain ⟨hne, hletters, hright, hplain, hfn⟩ := fn_command_facts fn
  have hscan : ∀ cs, Token.scan none ((commandOf fn.command ++ s).toList ++ cs)
      = .command fn.command :: Token.scan none (s.toList ++ cs) := by
    intro cs
    simpa [commandOf] using scan_command hne hletters (h.starts cs)
  have hcloser : (Token.command fn.command).closer? = none := closer?_command hletters hright
  refine ⟨fun cs => ⟨_, _, hscan cs, rfl, startsOperand_command hright, hcloser, by simp⟩, ?_⟩
  intro stops cs
  rw [hscan]
  exact .nested (skipBlanks_cons rfl) (endsOperand_eq_false_of_closer hcloser)
    (.function hplain hfn (h.reads stops cs))

theorem IsApplied.isOperand (h : IsApplied room fn none none s node) :
    IsOperand (room + 1) (commandOf fn.command ++ s) node := h.isBlock.isOperand

end FormulaDesk.Markup
