import FormulaDesk.Proofs.Dialect.Lexeme

/-! # Passes over spelled lexemes

The clean-up leaves a row of lexemes as it is spelled. The passes to the graphing dialect respell
one kind of lexeme each: a power, the constant `e` and the constant `π`. The pass that drops stars
drops the product before each parenthesis. So a row in the evaluable dialect is rewritten to the row
that is printed in the graphing dialect (`toGraphing_spell`).
-/

namespace FormulaDesk.Dialect

variable {d d' : Dialect} {x : Lexeme} {row : List Lexeme} {w cs : List Char}
  {pass : List Char → List Char}

/-! ## Signs and words apart -/

/-- A sign is spelled with characters that bound every word. -/
theorem Lexeme.chars_of_sign (hd : Plain d) (hx : x.isWord = false) :
    ∀ c ∈ x.chars d, isBoundary c = true := by
  cases x with
  | times => simp [chars, isBoundary]
  | power =>
    rcases hd.power with hp | hp <;> rw [chars, hp] <;> exact List.all_eq_true.mp (by decide)
  | mark m => cases m <;> simp [chars, Mark.char, isBoundary]
  | _ => simp [isWord] at hx

/-- Dialects with the same mark of a power spell all signs alike. -/
theorem Lexeme.chars_eq_of_sign (hpower : d.power = d'.power) (hx : x.isWord = false) :
    x.chars d = x.chars d' := by
  cases x with
  | power => rw [chars, chars, hpower]
  | times => rfl
  | mark m => rfl
  | _ => simp [isWord] at hx

/-- A pass that copies each sign copies a text of signs. -/
theorem pass_signs (hsign : ∀ c cs, isBoundary c = true → pass (c :: cs) = c :: pass cs)
    (hw : ∀ c ∈ w, isBoundary c = true) (cs : List Char) : pass (w ++ cs) = w ++ pass cs := by
  induction w with
  | nil => rfl
  | cons c w ih =>
    rw [List.cons_append, hsign c _ (hw c List.mem_cons_self),
      ih fun d hd => hw d (List.mem_cons_of_mem c hd), List.cons_append]

/-- A pass that keeps every sign and respells words. -/
theorem pass_spell_words (hd : Plain d) (hpower : d.power = d'.power) (hnil : pass [] = [])
    (hsign : ∀ c cs, isBoundary c = true → pass (c :: cs) = c :: pass cs)
    (hword : ∀ x cs, x.isWord = true → Follows x cs →
      pass (x.chars d ++ cs) = x.chars d' ++ pass cs)
    (h : Joined row) : pass (spell d row) = spell d' row := by
  refine pass_spell hd hnil (fun x cs hfollows => ?_) h
  cases hx : x.isWord with
  | true => exact hword x cs hx hfollows
  | false =>
    rw [pass_signs hsign (Lexeme.chars_of_sign hd hx), Lexeme.chars_eq_of_sign hpower hx]

/-! ## The clean-up -/

/-- The name of a function is one word, and no letter in it follows a digit. -/
theorem callName_facts_of_mem {name : String} (h : name ∈ callNames) :
    (∀ c ∈ name.toList, Text.isWord c = true) ∧ Unsplit name.toList := by
  have hall : ∀ name ∈ callNames, name.toList.all Text.isWord = true ∧ Unsplit name.toList := by
    decide
  exact ⟨List.all_eq_true.mp (hall name h).1, (hall name h).2⟩

/-- The clean-up leaves every word alone but for the names of calls, which it does only where no
star stands behind them. -/
theorem call_or_settled (hd : Plain d) (hx : x.isWord = true) :
    (∃ name h, x = .call name h) ∨ Settled (x.chars d) := by
  have hmath : Settled "math".toList :=
    .word (List.all_eq_true.mp (by decide)) (by decide) (by decide)
  have he : Settled "e".toList := .letter rfl
  cases x with
  | call name h => exact Or.inl ⟨name, h, rfl⟩
  | number value => exact Or.inr (.figures value.accepted)
  | letter v => exact Or.inr (.letter v.isLetter)
  | euler =>
    right
    rcases hd.euler with hname | hname <;> rw [Lexeme.chars, hname]
    · exact hmath.around_mark (c := '.') rfl he
    · exact he
  | pi =>
    right
    rcases hd.pi with hname | hname <;> rw [Lexeme.chars, hname] <;>
      exact .word (List.all_eq_true.mp (by decide)) (by decide) (by decide)
  | _ => simp [Lexeme.isWord] at hx

/-- In front of a sign it matters what word stands before, but only where the sign is a star. -/
theorem joinCalls_bounded {run : List Char} (hcs : Bounded cs)
    (hrun : isCallName run.reverse = false ∨ cs.head? ≠ some '*') :
    joinCalls run cs = joinCalls [] cs := by
  cases cs with
  | nil => rfl
  | cons c cs =>
    have hc : Breaks c := (boundary_facts (hcs c rfl)).1
    rw [joinCalls_break hc (hrun.imp_right fun h => by simpa using h),
      joinCalls_break hc (Or.inl (by decide))]

/-- A well joined row has no star to drop between a name and its parenthesis. -/
theorem joinCalls_spell (hd : Plain d) (h : Joined row) :
    joinCalls [] (spell d row) = spell d row := by
  refine pass_spell_words hd rfl rfl (fun c cs hc => ?_) (fun x cs hx hfollows => ?_) h
  · exact joinCalls_break (boundary_facts hc).1 (Or.inl (by decide)) cs
  · have hcs := hfollows.word hx
    rcases call_or_settled hd hx with ⟨name, hname, rfl⟩ | hsettled
    · have hstar := hfollows.star (Or.inl rfl)
      rw [Lexeme.chars, joinCalls_word (callName_facts_of_mem hname).1,
        joinCalls_bounded hcs (Or.inr hstar)]
    · obtain ⟨run, hrun, hjoin⟩ := hsettled.joined cs
      rw [hjoin, joinCalls_bounded hcs (Or.inl hrun)]

/-- A well joined row has no digit with a letter directly behind it. -/
theorem splitFactors_spell (hd : Plain d) (h : Joined row) :
    splitFactors (spell d row) = spell d row := by
  refine pass_spell_words hd rfl rfl (fun c cs hc => ?_) (fun x cs hx hfollows => ?_) h
  · exact splitFactors_break (boundary_facts hc).1 cs
  · have hcs : ∀ c, cs.head? = some c → Text.isAsciiLetter c = false := fun c hc =>
      (boundary_facts (hfollows.word hx c hc)).1.2.2
    rcases call_or_settled hd hx with ⟨name, hname, rfl⟩ | hsettled
    · exact splitFactors_word (callName_facts_of_mem hname).2 hcs
    · exact hsettled.split cs hcs

/-- All that the passes of a conversion do to a well joined row is to drop its blanks. -/
theorem tidy_spell (hd : Plain d) (h : Joined row) {s : List Char}
    (hs : dropBlanks s = spell d row) : tidy s = spell d row := by
  rw [tidy, hs, joinCalls_spell hd h, splitFactors_spell hd h]

/-! ## Powers -/

/-- Without stars there are no powers to write differently. -/
theorem caretPowers_unstarred (hw : '*' ∉ w) (cs : List Char) :
    caretPowers (w ++ cs) = w ++ caretPowers cs := by
  induction w with
  | nil => rfl
  | cons c w ih =>
    rw [List.mem_cons, not_or] at hw
    rw [List.cons_append, caretPowers, ih hw.2, List.cons_append]
    rintro cs' rfl
    exact absurd rfl hw.1

/-- Stars are in stars only. -/
theorem Lexeme.star_not_mem (hd : Plain d) (hx : x.isStar = false) : '*' ∉ x.chars d := by
  cases x with
  | number value =>
    intro hmem
    obtain ⟨-, h | h⟩ := figure_facts (value.accepted _ hmem) <;> exact absurd h (by decide)
  | letter v =>
    intro hmem
    have hletter := v.isLetter
    rw [← List.mem_singleton.mp hmem] at hletter
    exact absurd hletter (by decide)
  | call name h =>
    have hall : ∀ name ∈ callNames, '*' ∉ name.toList := by decide
    exact hall name h
  | euler => rcases hd.euler with he | he <;> rw [chars, he] <;> decide
  | pi => rcases hd.pi with hpi | hpi <;> rw [chars, hpi] <;> decide
  | mark m => cases m <;> simp [chars, Mark.char]
  | _ => simp [isStar] at hx

/-- The powers of a row are the only pairs of stars in it. -/
theorem caretPowers_spell (hd : Plain d) (hpower : d.power = "**") (h : Joined row) :
    caretPowers (spell d row) = spell { d with power := "^" } row := by
  refine pass_spell hd rfl (fun x cs hfollows => ?_) h
  cases x with
  | times =>
    -- a star of its own, since no star stands behind it
    have hstar := hfollows.star (Or.inr rfl)
    show caretPowers ('*' :: cs) = '*' :: caretPowers cs
    rw [caretPowers]
    rintro cs' - rfl
    exact hstar rfl
  | power =>
    have hstars : "**".toList = ['*', '*'] := by decide
    have hcaret : "^".toList = ['^'] := by decide
    rw [Lexeme.chars, Lexeme.chars, hpower, hstars, hcaret]
    rfl
  | _ => exact caretPowers_unstarred (Lexeme.star_not_mem hd rfl) cs

/-! ## Products before a parenthesis -/

def startsOpening : List Lexeme → Bool
  | [] => false
  | x :: _ => x.isOpening

/-- The row without its products before a parenthesis. -/
def dropTimes : List Lexeme → List Lexeme
  | [] => []
  | .times :: row => if startsOpening row then dropTimes row else .times :: dropTimes row
  | x :: row => x :: dropTimes row

/-- Without stars there is none to drop. -/
theorem dropStars_unstarred (hw : '*' ∉ w) (cs : List Char) :
    dropStars (w ++ cs) = w ++ dropStars cs := by
  induction w with
  | nil => rfl
  | cons c w ih =>
    rw [List.mem_cons, not_or] at hw
    have hc : (c == '*') = false := by simpa using Ne.symm hw.1
    simp [dropStars, hc, ih hw.2]

/-- Only an opening parenthesis is spelled with one in front. -/
theorem spell_head (hd : Plain d) (row : List Lexeme) :
    (spell d row).head? = some '(' ↔ startsOpening row = true := by
  cases row with
  | nil => simp [spell, startsOpening]
  | cons x row =>
    obtain ⟨c, cs, hchars, -, -, hopening⟩ := x.head hd
    rw [spell_cons, hchars, List.cons_append, List.head?_cons, Option.some.injEq]
    exact hopening

/-- Where powers are carets, every star in a row is a product. -/
theorem dropStars_spell (hd : Plain d) (hpower : d.power = "^") (row : List Lexeme) :
    dropStars (spell d row) = spell d (dropTimes row) := by
  induction row with
  | nil => rfl
  | cons x row ih =>
    have hhead := spell_head hd row
    cases x with
    | times =>
      -- the star goes exactly where the next lexeme opens a parenthesis
      show dropStars ('*' :: spell d row) = _
      by_cases hopening : startsOpening row = true
      · simp [dropStars, dropTimes, hopening, hhead.mpr hopening, ih]
      · have hne : (spell d row).head? ≠ some '(' := mt hhead.mp hopening
        simp only [dropStars, dropTimes, hopening, hne, beq_iff_eq, Bool.and_eq_true, and_false,
          if_false, ih]
        rfl
    | power =>
      have hcaret : '*' ∉ d.power.toList := by
        rw [hpower]
        decide
      rw [dropTimes, spell_cons, spell_cons, Lexeme.chars, dropStars_unstarred hcaret, ih]
      simp
    | _ =>
      rw [dropTimes, spell_cons, spell_cons, dropStars_unstarred (Lexeme.star_not_mem hd rfl), ih]
      simp

/-- A parenthesis may stand behind everything. -/
theorem Lexeme.joins_opening (x : Lexeme) {y : Lexeme} (hy : y.isOpening = true) :
    x.joins y = true := by
  have hword : y.isWord = false ∧ y.isStar = false := by
    cases y with
    | mark m => exact ⟨rfl, rfl⟩
    | _ => simp [isOpening] at hy
  simp [joins, hword, hy]

/-- A row stays well joined without the stars before its parentheses. -/
theorem Joined.dropTimes (h : Joined row) : Joined (dropTimes row) := by
  -- by induction behind a first lexeme, which is what a dropped product leaves to be joined
  have hbehind : ∀ x row, Joined (x :: row) → Joined (x :: Dialect.dropTimes row) := by
    intro x row h
    induction row generalizing x with
    | nil => exact h
    | cons y row ih =>
      obtain ⟨hjoins, hrow⟩ := List.isChain_cons_cons.mp h
      have hkept : Joined (x :: y :: Dialect.dropTimes row) :=
        List.isChain_cons_cons.mpr ⟨hjoins, ih y hrow⟩
      cases y with
      | times =>
        rw [Dialect.dropTimes]
        split
        · next hopening =>
          refine ih x ?_
          cases row with
          | nil => simp [startsOpening] at hopening
          | cons z row =>
            exact List.isChain_cons_cons.mpr
              ⟨x.joins_opening hopening, (List.isChain_cons_cons.mp hrow).2⟩
        · exact hkept
      | _ => exact hkept
  have hopening : Joined (.mark .opening :: row) := h.cons fun x _ => by
    simp [Lexeme.joins, Lexeme.isWord, Lexeme.isCall, Lexeme.isStar]
  exact (hbehind (.mark .opening) row hopening).tail

/-! ## Names with a namespace -/

/-- A sign ends the word that a point could make a namespace. A point is no sign. -/
theorem dropNamespaces_sign {c : Char} (h : isBoundary c = true) (run cs : List Char) :
    dropNamespaces run (c :: cs) = run.reverse ++ c :: dropNamespaces [] cs := by
  obtain ⟨⟨hword, -⟩, hpoint, -⟩ := boundary_facts h
  simp [dropNamespaces, hword, hpoint]

theorem dropNamespaces_bounded (hcs : Bounded cs) (run : List Char) :
    dropNamespaces run cs = run.reverse ++ dropNamespaces [] cs := by
  cases cs with
  | nil => simp [dropNamespaces]
  | cons c cs =>
    have hc : isBoundary c = true := hcs c rfl
    rw [dropNamespaces_sign hc, dropNamespaces_sign hc]
    rfl

theorem dropNamespaces_run (hw : ∀ c ∈ w, Text.isWord c = true) (run cs : List Char) :
    dropNamespaces run (w ++ cs) = dropNamespaces (w.reverse ++ run) cs := by
  induction w generalizing run with
  | nil => rfl
  | cons c w ih =>
    have hc : Text.isWord c = true := hw c List.mem_cons_self
    rw [List.cons_append, dropNamespaces, if_pos hc,
      ih fun d hd => hw d (List.mem_cons_of_mem c hd)]
    simp

/-- A word that no point follows stays. -/
theorem dropNamespaces_word (hw : ∀ c ∈ w, Text.isWord c = true) (hcs : Bounded cs) :
    dropNamespaces [] (w ++ cs) = w ++ dropNamespaces [] cs := by
  rw [dropNamespaces_run hw, dropNamespaces_bounded hcs]
  simp

/-- The point of a number follows digits, so what is before it is no namespace. -/
theorem dropNamespaces_figures (hw : ∀ c ∈ w, isFigure c = true) (hcs : Bounded cs)
    {run : List Char} (hrun : ∀ c ∈ run, Text.isAsciiLetter c = false) :
    dropNamespaces run (w ++ cs) = run.reverse ++ w ++ dropNamespaces [] cs := by
  have hnamespace : ∀ run : List Char, (∀ c ∈ run, Text.isAsciiLetter c = false) →
      namespaces.contains (String.ofList run.reverse) = false := by
    have hstarts : ∀ name ∈ namespaces, name.toList.any Text.isAsciiLetter = true := by decide
    intro run hrun
    by_contra hmem
    have := hstarts (String.ofList run.reverse) (by simpa using hmem)
    obtain ⟨c, hc, hletter⟩ := List.any_eq_true.mp this
    rw [hrun c (by simpa using hc)] at hletter
    simp at hletter
  induction w generalizing run with
  | nil => simpa using dropNamespaces_bounded hcs run
  | cons c w ih =>
    have ih := fun {run} => @ih (fun d hd => hw d (List.mem_cons_of_mem c hd)) run
    obtain ⟨hletter, hword | rfl⟩ := figure_facts (hw c List.mem_cons_self)
    · rw [List.cons_append, dropNamespaces, if_pos hword,
        ih (List.forall_mem_cons.mpr ⟨hletter, hrun⟩)]
      simp
    -- the digits before a point are no namespace
    · have hpoint : Text.isWord '.' = false := rfl
      have hpointed :
          (('.' == '.') && namespaces.contains (String.ofList run.reverse)) = false := by
        rw [hnamespace run hrun, Bool.and_false]
      rw [List.cons_append, dropNamespaces, if_neg (by decide), if_neg (by rw [hpointed]; simp)]
      have hrest := @ih [] (by simp)
      rw [hrest]
      simp

/-- In a row the only namespace is that of the constant. -/
theorem dropNamespaces_spell (hd : Plain d) (heuler : d.euler = "math.e") (h : Joined row) :
    dropNamespaces [] (spell d row) = spell { d with euler := "e" } row := by
  refine pass_spell_words hd rfl rfl (fun c cs hc => dropNamespaces_sign hc [] cs)
    (fun x cs hx hfollows => ?_) h
  have hcs := hfollows.word hx
  cases x with
  | number value => exact dropNamespaces_figures value.accepted hcs (by simp)
  | letter v =>
    have hword : Text.isWord v.char = true := by
      simp [Text.isWord, Text.isAlphanumeric, (Text.classes_of_isAsciiLetter v.isLetter).1]
    exact dropNamespaces_word (w := [v.char]) (by simpa using hword) hcs
  | call name h => exact dropNamespaces_word (callName_facts_of_mem h).1 hcs
  | euler =>
    -- the one lexeme with a namespace: the pass drops it at the point and goes on with `e`
    have hmath : "math.e".toList ++ cs = "math".toList ++ '.' :: ("e".toList ++ cs) := by simp
    have hdropped : dropNamespaces "math".toList.reverse ('.' :: ("e".toList ++ cs))
        = dropNamespaces [] ("e".toList ++ cs) := by
      rw [dropNamespaces, if_neg (by decide), if_pos (by decide)]
    rw [Lexeme.chars, heuler, hmath, dropNamespaces_run (List.all_eq_true.mp (by decide)),
      List.append_nil, hdropped, dropNamespaces_word (List.all_eq_true.mp (by decide)) hcs]
    rfl
  | pi =>
    have hpi : ∀ c ∈ d.pi.toList, Text.isWord c = true := by
      rcases hd.pi with hpi | hpi <;> rw [hpi] <;> exact List.all_eq_true.mp (by decide)
    exact dropNamespaces_word hpi hcs
  | _ => simp [Lexeme.isWord] at hx

/-! ## The constant `π` -/

/-- No `p` with an `i` behind it. -/
def NoPi (w : List Char) : Prop := w.IsChain fun c d => c ≠ 'p' ∨ d ≠ 'i'

instance : Decidable (NoPi w) := inferInstanceAs (Decidable (w.IsChain _))

theorem noPi_of_not_mem (h : 'p' ∉ w) : NoPi w :=
  (List.isChain_isInfix w).imp fun c _ hpair => Or.inl fun hc => h (hc ▸ hpair.subset (by simp))

/-- A sign is copied, and behind it a word may begin. -/
theorem greekPi_sign {c : Char} (h : isBoundary c = true) (joined : Bool) (cs : List Char) :
    greekPi joined (c :: cs) = c :: greekPi false cs := by
  obtain ⟨-, -, hp, -, hbefore, -⟩ := boundary_facts h
  rw [greekPi, hbefore]
  rintro cs' rfl
  exact absurd rfl hp

theorem greekPi_bounded (hcs : Bounded cs) (joined : Bool) :
    greekPi joined cs = greekPi false cs := by
  cases cs with
  | nil => rfl
  | cons c cs => rw [greekPi_sign (hcs c rfl), greekPi_sign (hcs c rfl)]

/-- A word that is not the name itself is copied. -/
theorem greekPi_word (hw : NoPi w) (hcs : Bounded cs) (joined : Bool) :
    greekPi joined (w ++ cs) = w ++ greekPi false cs := by
  induction w generalizing joined with
  | nil => exact greekPi_bounded hcs joined
  | cons c w ih =>
    rw [List.cons_append, greekPi, ih hw.tail]
    · rfl
    rintro cs' rfl hrest
    -- the `i` would be in the word, or the first character behind it
    cases w with
    | nil =>
      have hi : isBoundary 'i' = true := hcs 'i' (by rw [← List.nil_append cs, hrest]; rfl)
      exact absurd hi (by decide)
    | cons e w =>
      rw [List.cons_append, List.cons.injEq] at hrest
      rcases (List.isChain_cons_cons.mp hw).1 with h | h
      · exact h rfl
      · exact h hrest.1

/-- In a row the only word to be written in Greek is the constant. -/
theorem greekPi_spell (hd : Plain d) (hpi : d.pi = "pi") (h : Joined row) :
    greekPi false (spell d row) = spell { d with pi := "π" } row := by
  refine pass_spell_words hd rfl rfl (fun c cs hc => greekPi_sign hc false cs)
    (fun x cs hx hfollows => ?_) h
  have hcs := hfollows.word hx
  cases x with
  | number value =>
    refine greekPi_word (noPi_of_not_mem fun hmem => ?_) hcs false
    obtain ⟨hletter, -⟩ := figure_facts (value.accepted _ hmem)
    exact absurd hletter (by decide)
  | letter v => exact greekPi_word (w := [v.char]) (.singleton v.char) hcs false
  | call name h =>
    have hall : ∀ name ∈ callNames, NoPi name.toList := by decide
    exact greekPi_word (hall name h) hcs false
  | euler =>
    have heuler : NoPi d.euler.toList := by
      rcases hd.euler with he | he <;> rw [he] <;> decide
    exact greekPi_word heuler hcs false
  | pi =>
    -- what follows a word starts with no character that would make it part of a longer one
    have hjoined : cs.head?.any joinsAfter = false := by
      cases cs with
      | nil => rfl
      | cons c cs => simpa using (boundary_facts (hcs c rfl)).2.2.2.2.2
    have hname : "pi".toList = ['p', 'i'] := by decide
    have hglyph : "π".toList = ['π'] := by decide
    rw [Lexeme.chars, Lexeme.chars, hpi, hname, hglyph]
    show greekPi false ('p' :: 'i' :: cs) = 'π' :: greekPi false cs
    rw [greekPi, hjoined, greekPi_bounded hcs true]
    rfl
  | _ => simp [Lexeme.isWord] at hx

/-! ## Both ways to the graphing dialect -/

/-- The evaluable dialect spells powers and constants in one of the two known ways. -/
theorem plain_evaluable : Plain evaluable := ⟨Or.inl rfl, Or.inl rfl, Or.inl rfl⟩

theorem plain_graphing : Plain graphing := ⟨Or.inr rfl, Or.inr rfl, Or.inr rfl⟩

/-- What is printed as a row is converted to the row. -/
theorem finish_evaluable (h : Joined row) {s : String}
    (hs : dropBlanks s.toList = spell evaluable row) :
    evaluable.finish s = String.ofList (spell evaluable row) := by
  rw [finish, tidy_spell plain_evaluable h hs]
  rfl

/-- In the graphing dialect a parenthesis takes no star before it. -/
theorem finish_graphing (h : Joined row) {s : String}
    (hs : dropBlanks s.toList = spell graphing row) :
    graphing.finish s = String.ofList (spell graphing (dropTimes row)) := by
  rw [finish, tidy_spell plain_graphing h hs, ← dropStars_spell plain_graphing rfl]
  rfl

/-- A row in the evaluable dialect is rewritten to the graphing dialect, without the products before
a parenthesis. -/
theorem toGraphing_spell (h : Joined row) :
    toGraphing (String.ofList (spell evaluable row))
      = String.ofList (spell graphing (dropTimes row)) := by
  have hcaret : Plain { evaluable with power := "^" } := ⟨Or.inr rfl, Or.inl rfl, Or.inl rfl⟩
  have hbare : Plain { evaluable with power := "^", euler := "e" } :=
    ⟨Or.inr rfl, Or.inr rfl, Or.inl rfl⟩
  have hspell : spell { evaluable with power := "^", euler := "e", pi := "π" } (dropTimes row)
      = spell graphing (dropTimes row) := rfl
  rw [toGraphing, String.toList_ofList, caretPowers_spell plain_evaluable rfl h,
    dropStars_spell hcaret rfl, dropNamespaces_spell hcaret rfl h.dropTimes,
    greekPi_spell hbare rfl h.dropTimes, hspell]

end FormulaDesk.Dialect
