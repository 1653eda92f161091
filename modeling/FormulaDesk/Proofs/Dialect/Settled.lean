import FormulaDesk.Dialect.Conversion
import FormulaDesk.Proofs.Text.Classes
import Mathlib.Data.List.Chain

/-! # Text that the clean-up leaves alone

The passes that join calls and split factors look at a word with what stands beside it. A settled
piece of text is left as it is in every text that it is a piece of, and settled pieces can be put
together. Blanks are dropped before.
-/

namespace FormulaDesk.Dialect

/-- The passes leave the piece as it is, and it does not end in a name that is called. -/
structure Settled (s : List Char) : Prop where
  joined : ∀ rest, ∃ run, isCallName run.reverse = false ∧
    joinCalls [] (s ++ rest) = s ++ joinCalls run rest
  split : ∀ rest, (∀ c, rest.head? = some c → Text.isAsciiLetter c = false) →
    splitFactors (s ++ rest) = s ++ splitFactors rest

variable {s s' w : List Char}

/-- An empty text has nothing to tidy. -/
theorem Settled.nil : Settled [] :=
  ⟨fun rest => ⟨[], by decide, rfl⟩, fun _ _ => rfl⟩

/-- The character belongs to no word and no number. -/
def Breaks (c : Char) : Prop :=
  Text.isWord c = false ∧ Text.isDecimal c = false ∧ Text.isAsciiLetter c = false

/-- Marks belong to no word and no number. -/
def isMark (c : Char) : Bool :=
  ['(', ')', '+', '-', '*', '/', ',', '.'].contains c

/-- No mark goes on with a word or a number. -/
theorem breaks_of_isMark {c : Char} (h : isMark c = true) : Breaks c := by
  simp only [isMark, List.contains_eq_mem, List.mem_cons, List.not_mem_nil, or_false,
    decide_eq_true_eq] at h
  rcases h with rfl | rfl | rfl | rfl | rfl | rfl | rfl | rfl <;> exact ⟨rfl, rfl, rfl⟩

/-- A character that is no digit takes no star behind it. -/
theorem splitFactors_break {c : Char} (h : Breaks c) (rest : List Char) :
    splitFactors (c :: rest) = c :: splitFactors rest := by
  simp [splitFactors, h.2.1]

/-- A character that ends a word is copied, if it is not a star behind the name of a function. -/
theorem joinCalls_break {c : Char} (h : Breaks c) {run : List Char}
    (hrun : isCallName run.reverse = false ∨ c ≠ '*') (rest : List Char) :
    joinCalls run (c :: rest) = c :: joinCalls [] rest := by
  have hjoin : (c == '*' && rest.head? == some '(' && isCallName run.reverse) = false := by
    rcases hrun with hname | hstar
    · simp [hname]
    · simp [hstar]
  simp only [joinCalls, h.1, hjoin, Bool.false_eq_true, if_false]

/-- A piece before one that does not go on with its last word or number. -/
theorem Settled.append (h : Settled s) (h' : Settled s')
    (hs' : ∀ c, s'.head? = some c → Breaks c) : Settled (s ++ s') := by
  constructor
  · intro rest
    obtain ⟨run, hrun, hjoin⟩ := h.joined (s' ++ rest)
    rw [List.append_assoc, hjoin]
    cases s' with
    | nil => exact ⟨run, hrun, by rw [List.append_nil, List.nil_append]⟩
    | cons c s' =>
      -- behind a name that is not called, the second piece is read as from its start
      obtain ⟨run', hrun', hjoin'⟩ := h'.joined rest
      refine ⟨run', hrun', ?_⟩
      have hc : Breaks c := hs' c rfl
      rw [List.cons_append, joinCalls_break hc (Or.inl (by decide))] at hjoin'
      rw [List.cons_append, joinCalls_break hc (Or.inl hrun), hjoin', List.append_assoc]
  · intro rest hrest
    have hhead : ∀ c, (s' ++ rest).head? = some c → Text.isAsciiLetter c = false := by
      intro c hc
      cases s' with
      | nil => exact hrest c hc
      | cons d s' => exact (hs' c hc).2.2
    rw [List.append_assoc, h.split _ hhead, h'.split rest hrest, List.append_assoc]

/-- A settled text may stand behind a character that belongs to nothing. -/
theorem Settled.after_break (h : Settled s) {c : Char} (hc : Breaks c) : Settled (c :: s) := by
  constructor
  · intro rest
    obtain ⟨run, hrun, hjoin⟩ := h.joined rest
    refine ⟨run, hrun, ?_⟩
    rw [List.cons_append, joinCalls_break hc (Or.inl (by decide)), hjoin, List.cons_append]
  · intro rest hrest
    rw [List.cons_append, splitFactors_break hc, h.split rest hrest, List.cons_append]

/-- Two pieces with a mark between them. -/
theorem Settled.around_mark (h : Settled s) {c : Char} (hc : isMark c = true) (h' : Settled s') :
    Settled (s ++ c :: s') := by
  refine h.append (h'.after_break (breaks_of_isMark hc)) fun d hd => ?_
  rw [List.head?_cons, Option.some.injEq] at hd
  exact hd ▸ breaks_of_isMark hc

theorem Settled.after_mark {c : Char} (hc : isMark c = true) (h : Settled s) : Settled (c :: s) :=
  h.after_break (breaks_of_isMark hc)

theorem Settled.before_mark (h : Settled s) {c : Char} (hc : isMark c = true) :
    Settled (s ++ [c]) :=
  h.around_mark hc .nil

/-- Parentheses around a settled text. -/
theorem Settled.parens (h : Settled s) : Settled ('(' :: (s ++ [')'])) :=
  (h.before_mark rfl).after_mark rfl

/-! ## Words -/

/-- A word is copied and remembered, since a star behind it may be dropped. -/
theorem joinCalls_word (h : ∀ c ∈ w, Text.isWord c = true) (run rest : List Char) :
    joinCalls run (w ++ rest) = w ++ joinCalls (w.reverse ++ run) rest := by
  induction w generalizing run with
  | nil => rfl
  | cons c w ih =>
    have hc : Text.isWord c = true := h c List.mem_cons_self
    have := ih (fun d hd => h d (List.mem_cons_of_mem c hd)) (c :: run)
    simp [joinCalls, hc, this]

/-- No letter follows a digit. -/
def Unsplit (w : List Char) : Prop :=
  w.IsChain fun c d => Text.isDecimal c = false ∨ Text.isAsciiLetter d = false

instance : Decidable (Unsplit w) := inferInstanceAs (Decidable (w.IsChain _))

/-- A word in which no letter follows a digit is copied. -/
theorem splitFactors_word (h : Unsplit w) {rest : List Char}
    (hrest : ∀ c, rest.head? = some c → Text.isAsciiLetter c = false) :
    splitFactors (w ++ rest) = w ++ splitFactors rest := by
  induction w with
  | nil => rfl
  | cons c w ih =>
    -- a star is put in only where a letter follows a digit
    have hsplit : (Text.isDecimal c && (w ++ rest).head?.any Text.isAsciiLetter) = false := by
      cases w with
      | nil =>
        cases rest with
        | nil => simp
        | cons d rest => simp [hrest d rfl]
      | cons d w =>
        have := (List.isChain_cons_cons.mp h).1
        rcases this with hc | hd
        · simp [hc]
        · simp [hd]
    rw [List.cons_append, splitFactors, hsplit, ih h.tail]
    simp

/-- A word that is not the name of a function is settled, whatever follows it. -/
theorem Settled.word (hword : ∀ c ∈ w, Text.isWord c = true) (hsplit : Unsplit w)
    (hname : isCallName w = false) : Settled w := by
  refine ⟨fun rest => ⟨w.reverse, by simpa using hname, ?_⟩, fun rest => splitFactors_word hsplit⟩
  rw [joinCalls_word hword, List.append_nil]

/-! ## Letters and numbers -/

/-- Every function has a name of more than one letter. -/
theorem callNames_singleton (c : Char) : callNames.contains (String.singleton c) = false := by
  have hlength : ∀ name ∈ callNames, name.toList.length ≠ 1 := by decide
  by_contra hmem
  have := hlength (String.singleton c) (by simpa using hmem)
  simp at this

/-- A letter alone is no name of a function. -/
theorem Settled.letter {c : Char} (h : Text.isAsciiLetter c = true) : Settled [c] := by
  have hword : Text.isWord c = true := by
    simp [Text.isWord, Text.isAlphanumeric, (Text.classes_of_isAsciiLetter h).1]
  have hname : isCallName [c] = false := callNames_singleton c
  exact .word (by simpa using hword) (.singleton c) hname

/-- The names of functions begin with letters. -/
theorem isCallName_of_no_letter (h : ∀ c ∈ w, Text.isAsciiLetter c = false) :
    isCallName w = false := by
  have hstarts : ∀ name ∈ callNames, name.toList.head?.any Text.isAsciiLetter = true := by decide
  by_contra hname
  have := hstarts (String.ofList w) (by simpa [isCallName] using hname)
  cases w with
  | nil => simp at this
  | cons c w => simp [h c List.mem_cons_self] at this

/-- Without letters none follows a digit. -/
theorem unsplit_of_no_letter (h : ∀ c ∈ w, Text.isAsciiLetter c = false) : Unsplit w :=
  (List.isChain_isInfix w).imp fun _ d hpair => Or.inr (h d (hpair.subset (by simp)))

/-- The characters of a number. -/
def isFigure (c : Char) : Bool := Text.isAsciiDigit c || c == '.'

/-- The figures are those number characters that the clean-up knows, which are the ASCII ones. -/
theorem isNumberChar_of_isFigure {c : Char} (h : isFigure c = true) :
    Markup.isNumberChar c = true := by
  simp only [isFigure, Bool.or_eq_true] at h
  simp only [Markup.isNumberChar, Text.isDigit, Bool.or_eq_true]
  exact h.imp_left fun hdigit => Or.inl (Text.classes_of_isAsciiDigit hdigit).1

/-- A point belongs to a number and to no word. -/
theorem figure_facts {c : Char} (h : isFigure c = true) :
    Text.isAsciiLetter c = false ∧ (Text.isWord c = true ∨ c = '.') := by
  simp only [isFigure, Bool.or_eq_true, beq_iff_eq] at h
  rcases h with hdigit | rfl
  · obtain ⟨hdecimal, hletter, -⟩ := Text.classes_of_isAsciiDigit hdigit
    refine ⟨?_, Or.inl (by simp [Text.isWord, Text.isAlphanumeric, Text.isDigit, hdecimal])⟩
    by_contra h
    rw [Bool.not_eq_false] at h
    rw [(Text.classes_of_isAsciiLetter h).1] at hletter
    simp at hletter
  · exact ⟨by decide, Or.inr rfl⟩

/-- Behind a number a star is kept, since no number is the name of a function. -/
theorem joinCalls_figures (h : ∀ c ∈ w, isFigure c = true) {run : List Char}
    (hrun : ∀ c ∈ run, Text.isAsciiLetter c = false) (rest : List Char) :
    ∃ run', (∀ c ∈ run', Text.isAsciiLetter c = false) ∧
      joinCalls run (w ++ rest) = w ++ joinCalls run' rest := by
  induction w generalizing run with
  | nil => exact ⟨run, hrun, rfl⟩
  | cons c w ih =>
    have ih := fun {run} => @ih (fun d hd => h d (List.mem_cons_of_mem c hd)) run
    obtain ⟨hletter, hword | rfl⟩ := figure_facts (h c List.mem_cons_self)
    · have hrun' : ∀ d ∈ c :: run, Text.isAsciiLetter d = false :=
        List.forall_mem_cons.mpr ⟨hletter, hrun⟩
      obtain ⟨run', hrun', hjoin⟩ := ih hrun'
      refine ⟨run', hrun', ?_⟩
      simp [joinCalls, hword, hjoin]
    · obtain ⟨run', hrun', hjoin⟩ := @ih [] (by simp)
      refine ⟨run', hrun', ?_⟩
      rw [List.cons_append, joinCalls_break (breaks_of_isMark rfl) (Or.inr (by decide)), hjoin]
      rfl

/-- A number is settled. -/
theorem Settled.figures (h : ∀ c ∈ w, isFigure c = true) : Settled w := by
  have hletters : ∀ c ∈ w, Text.isAsciiLetter c = false := fun c hc => (figure_facts (h c hc)).1
  refine ⟨fun rest => ?_, fun rest => splitFactors_word (unsplit_of_no_letter hletters)⟩
  have hnil : ∀ c ∈ [], Text.isAsciiLetter c = false := by simp
  obtain ⟨run, hrun, hjoin⟩ := joinCalls_figures h hnil rest
  exact ⟨run, isCallName_of_no_letter (by simpa using hrun), hjoin⟩

/-! ## Calls -/

/-- A name before its parenthesis, whether it is called or not. -/
theorem Settled.after_name (h : Settled ('(' :: s)) (hword : ∀ c ∈ w, Text.isWord c = true)
    (hsplit : Unsplit w) : Settled (w ++ '(' :: s) := by
  have hopening : Breaks '(' := breaks_of_isMark rfl
  constructor
  · intro rest
    obtain ⟨run, hrun, hjoin⟩ := h.joined rest
    -- after a name the pass looks for a star, and here stands a parenthesis
    refine ⟨run, hrun, ?_⟩
    rw [List.cons_append, joinCalls_break hopening (Or.inl (by decide))] at hjoin
    rw [List.append_assoc, joinCalls_word hword, List.cons_append,
      joinCalls_break hopening (Or.inr (by decide)), hjoin, List.append_assoc]
  · intro rest hrest
    rw [List.append_assoc, splitFactors_word hsplit (by simp [Text.isAsciiLetter]),
      h.split rest hrest, List.append_assoc]

/-- A call, of whatever name. -/
theorem Settled.call (h : Settled s) (hword : ∀ c ∈ w, Text.isWord c = true)
    (hsplit : Unsplit w) : Settled (w ++ '(' :: (s ++ [')'])) :=
  h.parens.after_name hword hsplit

/-! ## Blanks -/

/-- The one text is the other without its blanks. -/
def Squeezes (t u : String) : Prop := dropBlanks t.toList = u.toList

variable {t t' u u' : String}

/-- Blanks are dropped piece by piece. -/
theorem Squeezes.append (h : Squeezes t u) (h' : Squeezes t' u') :
    Squeezes (t ++ t') (u ++ u') := by
  unfold Squeezes dropBlanks at *
  rw [String.toList_append, List.filter_append, h, h', String.toList_append]

/-- A text without blanks stays as it is. -/
theorem squeezes_self (h : t.toList.any Text.isBlank = false) : Squeezes t t := by
  simpa [Squeezes, dropBlanks] using h

theorem Squeezes.inParens (h : Squeezes t u) : Squeezes (inParens t) (inParens u) :=
  ((squeezes_self (by decide)).append h).append (squeezes_self (by decide))

/-- What is settled without its blanks is cleaned up by dropping them. -/
theorem Squeezes.tidy_eq (h : Squeezes t u) (hsettled : Settled u.toList) :
    tidy t.toList = u.toList := by
  obtain ⟨run, -, hjoin⟩ := hsettled.joined []
  have hsplit := hsettled.split [] (by simp)
  rw [List.append_nil] at hjoin hsplit
  unfold Squeezes at h
  rw [tidy, h, hjoin, joinCalls, List.append_nil, hsplit, splitFactors, List.append_nil]

/-! ## Conversion -/

/-- Empty markup is no exception to how markup is converted. -/
theorem evaluableOf_value (markup : String) :
    (Conversion.evaluableOf markup).value = evaluable.convert markup := by
  unfold Conversion.evaluableOf
  split
  · next hempty =>
    rw [String.isEmpty_iff.mp hempty]
    decide
  · rfl

/-- Nor is an empty expression to how expressions are rewritten. -/
theorem graphingOf_value (expression : String) :
    (Conversion.graphingOf expression).value = toGraphing expression := by
  unfold Conversion.graphingOf
  split
  · next hempty =>
    rw [String.isEmpty_iff.mp hempty]
    decide
  · rfl

/-- The direct way to the graphing dialect is the conversion in that dialect. -/
theorem directGraphing_eq_convert (markup : String) :
    Conversion.directGraphing markup = graphing.convert markup := by
  unfold Conversion.directGraphing
  split
  · next hempty =>
    rw [String.isEmpty_iff.mp hempty]
    decide
  · rfl

/-- In the evaluable dialect nothing is done behind the common passes. -/
theorem convert_eq_of_tidy {markup : String}
    (h : tidy (evaluable.print (Markup.Node.ofMarkup markup)).toList = u.toList) :
    evaluable.convert markup = u := by
  rw [convert, finish, h]
  simp [evaluable]

end FormulaDesk.Dialect
