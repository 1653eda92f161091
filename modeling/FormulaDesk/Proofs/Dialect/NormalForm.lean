import FormulaDesk.Proofs.Dialect.Words

/-! # How far the clean-up gets

The clean-up leaves no blank and no digit before a letter. A star between the name of a call and its
parenthesis is dropped before digits are parted from letters. So one star stays: that of a name
glued to a digit, which is no name until the digit is parted from it. Nothing else is left, and a
second clean-up takes these stars away too (`evaluableOf_normal`).
-/

namespace FormulaDesk.Dialect

variable {run w cs s : List Char} {c : Char}

/-! ## What the passes look for -/

/-- The name of a call, with a star before its parenthesis. -/
def StarredCall (word after : List Char) : Prop := isCallName word = true ∧ ['*', '('] <+: after

/-- A word that ends in a digit and the name of a call, with a star before the parenthesis. -/
def GluedCall (word after : List Char) : Prop :=
  (∃ front d name, word = front ++ d :: name ∧ Text.isDecimal d = true ∧ isCallName name = true) ∧
    ['*', '('] <+: after

/-- A star in front of a parenthesis, at the head of a text. -/
theorem starred_cons (c : Char) (cs : List Char) :
    ['*', '('] <+: c :: cs ↔ c = '*' ∧ cs.head? = some '(' := by
  cases cs with
  | nil => simp
  | cons d cs => simp [List.cons_prefix_cons, eq_comm]

/-- No digit inside a name stands before a letter of it. -/
theorem not_isCallName_glued {front name : List Char} {d : Char} (hd : Text.isDecimal d = true)
    (hname : isCallName name = true) : isCallName (front ++ d :: name) = false := by
  have hstarts : ∀ name ∈ callNames, name.toList.head?.any Text.isAsciiLetter = true := by decide
  have hunsplit : ∀ name ∈ callNames, Unsplit name.toList := by decide
  by_contra hglued
  rw [Bool.not_eq_false] at hglued
  have hletter := hstarts (String.ofList name) (by simpa [isCallName] using hname)
  have hchain := hunsplit (String.ofList (front ++ d :: name)) (by simpa [isCallName] using hglued)
  rw [String.toList_ofList] at hletter hchain
  cases name with
  | nil => simp at hletter
  | cons e name =>
    have hpair := (List.isChain_cons_cons.mp (List.isChain_append.mp hchain).2.1).1
    simp_all

/-! ## The pass that drops stars behind names -/

/-- Joining calls keeps the first character. -/
theorem joinCalls_head (cs : List Char) : (joinCalls [] cs).head? = cs.head? := by
  cases cs with
  | nil => rfl
  | cons c cs =>
    have hname : isCallName [].reverse = false := by decide
    simp only [joinCalls, hname, Bool.and_false, Bool.false_eq_true, if_false]
    split <;> rfl

/-- A parenthesis at the head stays there when calls are joined. -/
theorem exists_joinCalls_paren (h : cs.head? = some '(') : ∃ rest, joinCalls [] cs = '(' :: rest :=
  List.head?_eq_some_iff.mp (joinCalls_head cs ▸ h)

/-- Where no name of a call has a star behind it, the pass changes nothing. -/
theorem joinCalls_eq_self (h : ¬ MeetsWord StarredCall run cs) : joinCalls run cs = cs := by
  induction cs generalizing run with
  | nil => rfl
  | cons c cs ih =>
    cases hc : Text.isWord c with
    | true =>
      rw [meetsWord_inside hc] at h
      rw [joinCalls, if_pos hc, ih h]
    | false =>
      rw [meetsWord_behind hc, not_or] at h
      have hkept : (c == '*' && cs.head? == some '(' && isCallName run.reverse) = false := by
        have := h.1
        rw [StarredCall, starred_cons] at this
        by_contra hdrop
        simp_all
      rw [joinCalls, if_neg (by simp [hc]), if_neg (by simp [hkept]), ih h.2]

/-- The pass leaves no such star. -/
theorem not_starred_joinCalls (run cs : List Char) :
    ¬ MeetsWord StarredCall run (joinCalls run cs) := by
  induction cs generalizing run with
  | nil => simp [joinCalls, meetsWord_nil, StarredCall]
  | cons c cs ih =>
    unfold joinCalls
    split_ifs with hc hdrop
    · rw [meetsWord_inside hc]
      exact ih (c :: run)
    · simp only [Bool.and_eq_true, beq_iff_eq] at hdrop
      obtain ⟨⟨-, hopen⟩, -⟩ := hdrop
      -- what is left starts with the parenthesis, which ends the word
      obtain ⟨rest, hrest⟩ := exists_joinCalls_paren hopen
      have hih := ih []
      rw [hrest, meetsWord_behind rfl, not_or] at hih ⊢
      refine ⟨?_, hih.2⟩
      simp [StarredCall]
    · rw [Bool.not_eq_true] at hc
      rw [meetsWord_behind hc, not_or, StarredCall, starred_cons, joinCalls_head]
      refine ⟨fun hstarred => hdrop ?_, ih []⟩
      simp [hstarred]

/-- Names that are glued to a digit are none, so their stars are kept. -/
theorem glued_joinCalls (run cs : List Char) :
    MeetsWord GluedCall run (joinCalls run cs) ↔ MeetsWord GluedCall run cs := by
  induction cs generalizing run with
  | nil => rfl
  | cons c cs ih =>
    unfold joinCalls
    split_ifs with hc hdrop
    · rw [meetsWord_inside hc, meetsWord_inside hc, ih]
    · simp only [Bool.and_eq_true, beq_iff_eq] at hdrop
      obtain ⟨⟨rfl, hopen⟩, hname⟩ := hdrop
      -- what loses its star is the whole name of a call, with no digit before it
      have hnot : ∀ after, ¬ GluedCall run.reverse after := by
        rintro after ⟨⟨front, d, name, hword, hd, hcall⟩, -⟩
        rw [hword, not_isCallName_glued hd hcall] at hname
        exact absurd hname (by simp)
      obtain ⟨rest, hrest⟩ := exists_joinCalls_paren hopen
      have hih := ih []
      rw [hrest, meetsWord_behind rfl] at hih
      rw [meetsWord_behind rfl, ← hih, hrest, meetsWord_behind rfl]
      have hnil : ¬ GluedCall [].reverse ('(' :: rest) := by simp [GluedCall]
      simp only [hnot, hnil, false_or]
    · rw [Bool.not_eq_true] at hc
      rw [meetsWord_behind hc, meetsWord_behind hc, ih, GluedCall, GluedCall, starred_cons,
        starred_cons, joinCalls_head]

/-! ## The pass that parts digits from letters -/

/-- Splitting factors keeps the first character. -/
theorem splitFactors_head (cs : List Char) : (splitFactors cs).head? = cs.head? := by
  cases cs with
  | nil => rfl
  | cons c cs =>
    unfold splitFactors
    split <;> rfl

/-- Splitting leaves no factors glued. -/
theorem unsplit_splitFactors (cs : List Char) : Unsplit (splitFactors cs) := by
  induction cs with
  | nil => exact .nil
  | cons c cs ih =>
    unfold splitFactors
    split
    · refine (List.IsChain.cons ih fun d _ => Or.inl rfl).cons fun d hd => Or.inr ?_
      rw [List.head?_cons, Option.mem_some_iff] at hd
      exact hd ▸ rfl
    · next hkept =>
      refine List.IsChain.cons ih fun d hd => ?_
      rw [splitFactors_head, Option.mem_def] at hd
      rw [hd, Option.any_some, Bool.and_eq_true, not_and_or] at hkept
      simpa using hkept

/-- Where no factors are glued there is nothing to split. -/
theorem splitFactors_eq_self (h : Unsplit cs) : splitFactors cs = cs := by
  have hnothing : ∀ d, [].head? = some d → Text.isAsciiLetter d = false := by simp
  simpa [splitFactors] using splitFactors_word h hnothing

/-- A digit before a letter is where a text is cut in two. -/
theorem splitFactors_cut {d : Char} (hd : Text.isDecimal d = true)
    (hletter : cs.head?.any Text.isAsciiLetter = true) (front : List Char) :
    splitFactors (front ++ d :: cs) = splitFactors (front ++ [d]) ++ '*' :: splitFactors cs := by
  induction front with
  | nil => simp [splitFactors, hd, hletter]
  | cons c front ih =>
    have hhead : (front ++ d :: cs).head? = (front ++ [d]).head? := by cases front <;> rfl
    rw [List.cons_append, List.cons_append, splitFactors, splitFactors, hhead, ih]
    split_ifs <;> rfl

/-- What is a name behind a digit once the two are parted was one already, or was glued to it. -/
theorem meetsWord_of_splitFactors (h : MeetsWord StarredCall run (splitFactors cs)) :
    MeetsWord (fun word after => StarredCall word after ∨ GluedCall word after) run cs := by
  induction cs generalizing run with
  | nil => exact Or.inl h
  | cons c cs ih =>
    unfold splitFactors at h
    split at h
    · next hcut =>
      rw [Bool.and_eq_true] at hcut
      obtain ⟨hdigit, hletter⟩ := hcut
      have hword : Text.isWord c = true := by
        simp [Text.isWord, Text.isAlphanumeric, Text.isDigit, hdigit]
      rw [meetsWord_inside hword, meetsWord_behind rfl] at h
      rw [meetsWord_inside hword]
      rcases h with ⟨-, hopen⟩ | h
      -- behind the new star comes a letter, and no parenthesis
      · rw [starred_cons, splitFactors_head] at hopen
        rw [hopen.2] at hletter
        exact absurd hletter (by decide)
      · refine (ih h).behind (c :: run) fun word after hcall => Or.inr ?_
        rw [List.reverse_cons, List.append_assoc, List.singleton_append]
        rcases hcall with ⟨hname, hafter⟩ | ⟨⟨front, d, name, rfl, hd, hname⟩, hafter⟩
        · exact ⟨⟨run.reverse, c, word, rfl, hdigit, hname⟩, hafter⟩
        · exact ⟨⟨run.reverse ++ c :: front, d, name, by simp, hd, hname⟩, hafter⟩
    · cases hc : Text.isWord c with
      | true => exact (meetsWord_inside hc run cs).mpr (ih ((meetsWord_inside hc run _).mp h))
      | false =>
        rw [meetsWord_behind hc] at h ⊢
        refine h.imp (fun hstarred => Or.inl ?_) ih
        rwa [StarredCall, starred_cons, splitFactors_head, ← starred_cons] at hstarred

/-- A star goes between a figure and the name of a call that is glued to it, and what is left is a
starred call. -/
theorem SomeWord.starred_splitFactors (h : SomeWord GluedCall cs) :
    SomeWord StarredCall (splitFactors cs) := by
  have hunsplit : ∀ name ∈ callNames, Unsplit name.toList := by decide
  have hwords : ∀ name ∈ callNames, name.toList.all Text.isWord = true := by decide
  have hstarts : ∀ name ∈ callNames, name.toList.head?.any Text.isAsciiLetter = true := by decide
  obtain ⟨before, word, after, rfl, -, -, -, ⟨front, d, name, rfl, hd, hname⟩, rest, rfl⟩ := h
  have hmem : String.ofList name ∈ callNames := by simpa [isCallName] using hname
  have hchain := hunsplit _ hmem
  have hword := hwords _ hmem
  have hletter := hstarts _ hmem
  rw [String.toList_ofList] at hchain hword hletter
  have hhead : (name ++ (['*', '('] ++ rest)).head?.any Text.isAsciiLetter = true := by
    cases name with
    | nil => simp at hletter
    | cons c name => exact hletter
  -- the star that is put in after the digit makes the name a word by itself
  have htext : before ++ (front ++ d :: name ++ (['*', '('] ++ rest))
      = before ++ front ++ d :: (name ++ (['*', '('] ++ rest)) := by simp
  have hstar : splitFactors (['*', '('] ++ rest) = ['*', '('] ++ splitFactors rest := by
    rw [List.cons_append, splitFactors_break (breaks_of_isMark rfl), List.singleton_append,
      splitFactors_break (breaks_of_isMark rfl)]
    rfl
  rw [htext, splitFactors_cut hd hhead, splitFactors_word hchain (by simp [Text.isAsciiLetter]),
    hstar]
  refine ⟨splitFactors (before ++ front ++ [d]) ++ ['*'], name, ['*', '('] ++ splitFactors rest,
    by simp, ?_, List.all_eq_true.mp hword, ?_, hname, List.prefix_append _ _⟩
  · intro c hc
    rw [List.getLast?_concat, Option.some.injEq] at hc
    exact hc ▸ rfl
  · intro c hc
    rw [List.cons_append, List.head?_cons, Option.some.injEq] at hc
    exact hc ▸ rfl

/-! ## All passes -/

/-- The clean-up finds nothing to do. -/
structure IsTidy (cs : List Char) : Prop where
  unspaced : ∀ c ∈ cs, Text.isBlank c = false
  unsplit : Unsplit cs
  unstarred : ¬ SomeWord StarredCall cs

/-- The clean-up leaves a tidy text as it is. -/
theorem IsTidy.tidy_eq (h : IsTidy cs) : tidy cs = cs := by
  have hblank : dropBlanks cs = cs := by simpa [dropBlanks] using h.unspaced
  rw [tidy, hblank, joinCalls_eq_self (mt meetsWord_iff.mp h.unstarred),
    splitFactors_eq_self h.unsplit]

/-- Joining calls adds no character. -/
theorem mem_of_mem_joinCalls (h : c ∈ joinCalls run cs) : c ∈ cs := by
  induction cs generalizing run with
  | nil => exact h
  | cons d cs ih =>
    unfold joinCalls at h
    split_ifs at h
    · exact (List.mem_cons.mp h).elim (fun hd => hd ▸ List.mem_cons_self)
        fun hcs => List.mem_cons_of_mem d (ih hcs)
    · exact List.mem_cons_of_mem d (ih h)
    · exact (List.mem_cons.mp h).elim (fun hd => hd ▸ List.mem_cons_self)
        fun hcs => List.mem_cons_of_mem d (ih hcs)

/-- Splitting factors adds stars alone. -/
theorem mem_of_mem_splitFactors (h : c ∈ splitFactors cs) : c = '*' ∨ c ∈ cs := by
  induction cs with
  | nil => exact Or.inr h
  | cons d cs ih =>
    unfold splitFactors at h
    split at h <;> simp only [List.mem_cons] at h ⊢ <;> tauto

/-- The clean-up leaves no blank. -/
theorem unspaced_tidy (cs : List Char) : ∀ c ∈ tidy cs, Text.isBlank c = false := by
  intro c hc
  rcases mem_of_mem_splitFactors hc with rfl | hjoined
  · rfl
  · have hkept := mem_of_mem_joinCalls hjoined
    simpa using (List.mem_filter.mp hkept).2

/-- Dropping stars behind names brings no digit before a letter. -/
theorem Unsplit.joinCalls (h : Unsplit cs) (run : List Char) : Unsplit (joinCalls run cs) := by
  have hhead : ∀ run cs d, (Dialect.joinCalls run cs).head? = some d →
      cs.head? = some d ∨ d = '(' := by
    intro run cs d hd
    cases cs with
    | nil => exact Or.inl hd
    | cons e cs =>
      unfold Dialect.joinCalls at hd
      split_ifs at hd with hword hdrop
      · exact Or.inl hd
      · simp only [Bool.and_eq_true, beq_iff_eq] at hdrop
        rw [joinCalls_head, hdrop.1.2, Option.some.injEq] at hd
        exact Or.inr hd.symm
      · exact Or.inl hd
  induction cs generalizing run with
  | nil => exact .nil
  | cons c cs ih =>
    have hcons : ∀ run', Unsplit (c :: Dialect.joinCalls run' cs) := fun run' => by
      refine List.IsChain.cons (ih h.tail run') fun d hd => ?_
      rcases hhead run' cs d hd with hd | rfl
      · exact (List.isChain_cons.mp h).1 d hd
      · exact Or.inr rfl
    unfold Dialect.joinCalls
    split_ifs
    · exact hcons _
    · exact ih h.tail []
    · exact hcons _

/-- A cleaned text that is cleaned again loses the stars that are left, and nothing else. -/
theorem tidy_tidy (cs : List Char) : tidy (tidy cs) = joinCalls [] (tidy cs) := by
  have hblank : dropBlanks (tidy cs) = tidy cs := by
    simpa [dropBlanks] using unspaced_tidy cs
  have hunsplit : Unsplit (tidy cs) := unsplit_splitFactors _
  rw [tidy, hblank, splitFactors_eq_self (hunsplit.joinCalls [])]

/-- A second clean-up always gives a tidy text. -/
theorem isTidy_tidy_tidy (cs : List Char) : IsTidy (tidy (tidy cs)) where
  unspaced := unspaced_tidy _
  unsplit := unsplit_splitFactors _
  unstarred h := by
    rw [tidy_tidy] at h
    exact not_starred_joinCalls [] _ h.meets

/-- What is left of the stars behind names. -/
theorem starred_tidy_iff (cs : List Char) :
    SomeWord StarredCall (tidy cs) ↔ SomeWord GluedCall (dropBlanks cs) := by
  rw [← meetsWord_iff (p := GluedCall), ← glued_joinCalls, meetsWord_iff]
  refine ⟨fun h => ?_, fun h => h.starred_splitFactors⟩
  have hnone : ¬ SomeWord StarredCall (joinCalls [] (dropBlanks cs)) := fun h =>
    not_starred_joinCalls [] _ h.meets
  obtain ⟨before, word, after, hcs, hends, hword, hafter, hcall⟩ :=
    meetsWord_iff.mp (meetsWord_of_splitFactors h.meets)
  rcases hcall with hstarred | hglued
  · exact absurd ⟨before, word, after, hcs, hends, hword, hafter, hstarred⟩ hnone
  · exact ⟨before, word, after, hcs, hends, hword, hafter, hglued⟩

/-- The clean-up is idempotent exactly on texts in which no call is glued to a figure. -/
theorem tidy_tidy_eq_iff (cs : List Char) :
    tidy (tidy cs) = tidy cs ↔ ¬ SomeWord GluedCall (dropBlanks cs) := by
  rw [← starred_tidy_iff]
  refine ⟨fun heq => heq ▸ (isTidy_tidy_tidy cs).unstarred, fun hnone => ?_⟩
  exact IsTidy.tidy_eq ⟨unspaced_tidy cs, unsplit_splitFactors _, hnone⟩

/-- What markup is converted to holds no blank and no digit before a letter. A name of a call with a
star before its parenthesis is left exactly if one was printed glued to a digit, and exactly then
the clean-up would change the text once more; it would not change it a third time. -/
theorem evaluableOf_normal (markup : String) :
    (∀ c ∈ (Conversion.evaluableOf markup).value.toList, Text.isBlank c = false) ∧
      Unsplit (Conversion.evaluableOf markup).value.toList ∧
      (SomeWord StarredCall (Conversion.evaluableOf markup).value.toList ↔
        SomeWord GluedCall (dropBlanks (evaluable.print (Markup.Node.ofMarkup markup)).toList)) ∧
      (evaluable.finish (Conversion.evaluableOf markup).value
          = (Conversion.evaluableOf markup).value ↔
        ¬ SomeWord GluedCall
          (dropBlanks (evaluable.print (Markup.Node.ofMarkup markup)).toList)) ∧
      evaluable.finish (evaluable.finish (Conversion.evaluableOf markup).value)
        = evaluable.finish (Conversion.evaluableOf markup).value := by
  have hfinish : ∀ s, evaluable.finish s = String.ofList (tidy s.toList) := fun _ => rfl
  have htext : (Conversion.evaluableOf markup).value
      = String.ofList (tidy (evaluable.print (Markup.Node.ofMarkup markup)).toList) := by
    rw [evaluableOf_value, convert, hfinish]
  rw [htext]
  simp only [hfinish, String.toList_ofList, String.ofList_inj]
  exact ⟨unspaced_tidy _, unsplit_splitFactors _, starred_tidy_iff _, tidy_tidy_eq_iff _,
    (isTidy_tidy_tidy _).tidy_eq⟩

/-- A spacing command parts two factors and prints nothing, so the digit and the name are glued. -/
example : (Conversion.evaluableOf "2\\,\\sin\\cdot(x)").value = "2*sin*(x)" ∧
    evaluable.finish "2*sin*(x)" = "2*sin(x)" := by decide +kernel

end FormulaDesk.Dialect
