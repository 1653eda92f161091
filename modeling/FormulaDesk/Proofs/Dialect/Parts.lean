import FormulaDesk.Proofs.Dialect.Settled

/-! # The clean-up of a text and of its parts

The clean-up passes look across a closing parenthesis or a comma in no direction, nor across an
opening parenthesis behind a name. So a call is cleaned up argument by argument, whatever the
arguments are (`tidy_append`, `tidy_call`), and one conversion can be told from others.
-/

namespace FormulaDesk.Dialect

variable {c : Char} {run s w t : List Char}

/-- The character ends a part: no pass looks across it. -/
def isPartEnd (c : Char) : Bool := [')', ','].contains c

theorem partEnd_facts (h : isPartEnd c = true) :
    Breaks c ∧ c ≠ '(' ∧ c ≠ '*' ∧ Text.isBlank c = false := by
  simp only [isPartEnd, List.contains_eq_mem, List.mem_cons, List.not_mem_nil, or_false,
    decide_eq_true_eq] at h
  rcases h with rfl | rfl <;> exact ⟨⟨rfl, rfl, rfl⟩, by decide, by decide, rfl⟩

theorem joinCalls_append (h : isPartEnd c = true) (run s t : List Char) :
    joinCalls run (s ++ c :: t) = joinCalls run s ++ c :: joinCalls [] t := by
  obtain ⟨hbreaks, hopen, hstar, -⟩ := partEnd_facts h
  induction s generalizing run with
  | nil => exact joinCalls_break hbreaks (Or.inr hstar) t
  | cons d s ih =>
    -- a star is dropped before an opening parenthesis, and `c` is none
    have hhead : ((s ++ c :: t).head? == some '(') = (s.head? == some '(') := by
      cases s with
      | nil => simpa using hopen
      | cons e s => rfl
    rw [List.cons_append, joinCalls, joinCalls, hhead, ih, ih]
    split_ifs <;> rfl

theorem splitFactors_append (h : isPartEnd c = true) (s t : List Char) :
    splitFactors (s ++ c :: t) = splitFactors s ++ c :: splitFactors t := by
  obtain ⟨hbreaks, -⟩ := partEnd_facts h
  induction s with
  | nil => exact splitFactors_break hbreaks t
  | cons d s ih =>
    -- a star is put before a letter, and `c` is none
    have hhead : (s ++ c :: t).head?.any Text.isAsciiLetter = s.head?.any Text.isAsciiLetter := by
      cases s with
      | nil => simpa using hbreaks.2.2
      | cons e s => rfl
    rw [List.cons_append, splitFactors, splitFactors, hhead, ih]
    split_ifs <;> rfl

/-- What stands before the end of a part and what stands behind it are cleaned up apart. -/
theorem tidy_append (h : isPartEnd c = true) (s t : List Char) :
    tidy (s ++ c :: t) = tidy s ++ c :: tidy t := by
  obtain ⟨-, -, -, hblank⟩ := partEnd_facts h
  have hdrop : dropBlanks (s ++ c :: t) = dropBlanks s ++ c :: dropBlanks t := by
    simp [dropBlanks, hblank]
  rw [tidy, hdrop, joinCalls_append h, splitFactors_append h, tidy, tidy]

/-- A name before a parenthesis stays as it is. -/
theorem tidy_name (hword : ∀ c ∈ w, Text.isWord c = true) (hsplit : Unsplit w)
    (hblank : ∀ c ∈ w, Text.isBlank c = false) (t : List Char) :
    tidy (w ++ '(' :: t) = w ++ '(' :: tidy t := by
  have hopening : Breaks '(' := breaks_of_isMark rfl
  have hdrop : dropBlanks (w ++ '(' :: t) = w ++ '(' :: dropBlanks t := by
    have hw : w.filter (fun c => !Text.isBlank c) = w := by simpa using hblank
    have hparen : Text.isBlank '(' = false := rfl
    simp [dropBlanks, hw, hparen]
  rw [tidy, hdrop, joinCalls_word hword, joinCalls_break hopening (Or.inr (by decide)),
    splitFactors_word hsplit (by simp [Text.isAsciiLetter]), splitFactors_break hopening, tidy]

/-- The sign of a power before a parenthesis stays as it is. -/
theorem tidy_power (t : List Char) : tidy ('*' :: '*' :: '(' :: t) = '*' :: '*' :: '(' :: tidy t := by
  have hdrop : dropBlanks ('*' :: '*' :: '(' :: t) = '*' :: '*' :: '(' :: dropBlanks t := by
    have hstar : Text.isBlank '*' = false := rfl
    have hparen : Text.isBlank '(' = false := rfl
    simp [dropBlanks, hstar, hparen]
  have hnameless : isCallName [].reverse = false := by decide
  have hstar : Breaks '*' := breaks_of_isMark rfl
  have hopening : Breaks '(' := breaks_of_isMark rfl
  rw [tidy, hdrop, joinCalls_break hstar (Or.inl hnameless),
    joinCalls_break hstar (Or.inl hnameless), joinCalls_break hopening (Or.inl hnameless),
    splitFactors_break hstar, splitFactors_break hstar, splitFactors_break hopening, tidy]

/-- A call of a name with what stands behind it. -/
theorem tidy_call (hword : ∀ c ∈ w, Text.isWord c = true) (hsplit : Unsplit w)
    (hblank : ∀ c ∈ w, Text.isBlank c = false) (s t : List Char) :
    tidy (w ++ '(' :: (s ++ ')' :: t)) = w ++ '(' :: (tidy s ++ ')' :: tidy t) := by
  rw [tidy_name hword hsplit hblank, tidy_append rfl]

end FormulaDesk.Dialect
