import FormulaDesk.Proofs.Dialect.Settled

/-! # The words of a text

The passes that look for a name take a text word by word: a word is a run of word characters with no
other word character before or behind it. What they look for is a word of some kind with something
right behind it (`SomeWord`). They meet the words from left to right, and keep the part of a word
that they have passed; `MeetsWord` follows them, so that what a pass does is shown by induction on
the text, and `meetsWord_iff` says what that means.
-/

namespace FormulaDesk.Dialect

variable {p q : List Char → List Char → Prop} {run w cs before : List Char} {c : Char}

/-- The text does not end in a word character. -/
def EndsWord (cs : List Char) : Prop := ∀ c, cs.getLast? = some c → Text.isWord c = false

/-- The text does not start with a word character. -/
def StartsNoWord (cs : List Char) : Prop := ∀ c, cs.head? = some c → Text.isWord c = false

/-- Some word of the text is as asked, together with the text behind it. -/
def SomeWord (p : List Char → List Char → Prop) (cs : List Char) : Prop :=
  ∃ before word after, cs = before ++ (word ++ after) ∧ EndsWord before ∧
    (∀ c ∈ word, Text.isWord c = true) ∧ StartsNoWord after ∧ p word after

/-- The same from left to right: `run` holds the word characters that stand directly before, last
first. -/
def MeetsWord (p : List Char → List Char → Prop) : (run : List Char) → List Char → Prop
  | run, [] => p run.reverse []
  | run, c :: cs =>
    if Text.isWord c then MeetsWord p (c :: run) cs
    else p run.reverse (c :: cs) ∨ MeetsWord p [] cs

instance MeetsWord.decidable [∀ word after, Decidable (p word after)] :
    ∀ run cs, Decidable (MeetsWord p run cs)
  | run, [] => inferInstanceAs (Decidable (p run.reverse []))
  | run, c :: cs =>
    have := MeetsWord.decidable (c :: run) cs
    have := MeetsWord.decidable [] cs
    inferInstanceAs (Decidable (if Text.isWord c then MeetsWord p (c :: run) cs
      else p run.reverse (c :: cs) ∨ MeetsWord p [] cs))

theorem meetsWord_nil (run : List Char) : MeetsWord p run [] ↔ p run.reverse [] := Iff.rfl

theorem meetsWord_inside (h : Text.isWord c = true) (run cs : List Char) :
    MeetsWord p run (c :: cs) ↔ MeetsWord p (c :: run) cs := by
  rw [MeetsWord, if_pos h]

theorem meetsWord_behind (h : Text.isWord c = false) (run cs : List Char) :
    MeetsWord p run (c :: cs) ↔ p run.reverse (c :: cs) ∨ MeetsWord p [] cs := by
  rw [MeetsWord, if_neg (by simp [h])]

theorem meetsWord_word (h : ∀ c ∈ w, Text.isWord c = true) (run cs : List Char) :
    MeetsWord p run (w ++ cs) ↔ MeetsWord p (w.reverse ++ run) cs := by
  induction w generalizing run with
  | nil => rfl
  | cons c w ih =>
    rw [List.cons_append, meetsWord_inside (h c List.mem_cons_self),
      ih fun d hd => h d (List.mem_cons_of_mem c hd)]
    simp

/-- A word is met behind any text that ends before it. -/
theorem MeetsWord.after (h : MeetsWord p [] cs) (hends : EndsWord before) (hne : before ≠ [])
    (run : List Char) : MeetsWord p run (before ++ cs) := by
  induction before generalizing run with
  | nil => exact absurd rfl hne
  | cons c before ih =>
    rw [List.cons_append]
    cases before with
    | nil =>
      have hc : Text.isWord c = false := hends c rfl
      exact (meetsWord_behind hc run cs).mpr (Or.inr h)
    | cons d before =>
      have ih := ih (fun e he => hends e (by rwa [List.getLast?_cons_cons])) (by simp)
      cases hc : Text.isWord c with
      | true => exact (meetsWord_inside hc run _).mpr (ih _)
      | false => exact (meetsWord_behind hc run _).mpr (Or.inr (ih []))

theorem SomeWord.meets (h : SomeWord p cs) : MeetsWord p [] cs := by
  obtain ⟨before, word, after, rfl, hends, hword, hafter, hp⟩ := h
  have hmeets : MeetsWord p [] (word ++ after) := by
    rw [meetsWord_word hword, List.append_nil]
    cases after with
    | nil => simpa [meetsWord_nil] using hp
    | cons c after =>
      rw [meetsWord_behind (hafter c rfl), List.reverse_reverse]
      exact Or.inl hp
  cases before with
  | nil => exact hmeets
  | cons c before => exact hmeets.after hends (by simp) []

/-- The words that are met are those of the text, the part that is passed included. -/
theorem MeetsWord.someWord (hrun : ∀ c ∈ run, Text.isWord c = true) (h : MeetsWord p run cs) :
    SomeWord p (run.reverse ++ cs) := by
  have hreverse : ∀ c ∈ run.reverse, Text.isWord c = true := by simpa using hrun
  induction cs generalizing run with
  | nil => exact ⟨[], run.reverse, [], rfl, by simp [EndsWord], hreverse, by simp [StartsNoWord], h⟩
  | cons c cs ih =>
    cases hc : Text.isWord c with
    | true =>
      have hrun' : ∀ d ∈ c :: run, Text.isWord d = true := List.forall_mem_cons.mpr ⟨hc, hrun⟩
      have := ih hrun' ((meetsWord_inside hc run cs).mp h) fun d hd =>
        hrun' d (List.mem_reverse.mp hd)
      simpa using this
    | false =>
      rcases (meetsWord_behind hc run cs).mp h with hp | hmeets
      · exact ⟨[], run.reverse, c :: cs, rfl, by simp [EndsWord], hreverse,
          by simp [StartsNoWord, hc], hp⟩
      -- a word further on stands behind the run and the character that ends it
      · obtain ⟨before, word, after, hcs, hends, hword, hafter, hp⟩ :=
          ih (List.forall_mem_nil _) hmeets (by simp)
        refine ⟨run.reverse ++ c :: before, word, after, ?_, ?_, hword, hafter, hp⟩
        · rw [List.reverse_nil, List.nil_append] at hcs
          simp [hcs]
        · intro d hd
          rw [List.getLast?_append, List.getLast?_cons, Option.some_or] at hd
          cases hlast : before.getLast? with
          | none => simp_all
          | some e =>
            have := hends e hlast
            simp_all

theorem meetsWord_iff : MeetsWord p [] cs ↔ SomeWord p cs :=
  ⟨fun h => h.someWord (by simp), SomeWord.meets⟩

/-- Where a longer word is as asked if its end is, the part that is passed may be longer. -/
theorem MeetsWord.behind (front : List Char)
    (hp : ∀ word after, p word after → p (front.reverse ++ word) after) (h : MeetsWord p run cs) :
    MeetsWord p (run ++ front) cs := by
  induction cs generalizing run with
  | nil =>
    rw [meetsWord_nil, List.reverse_append]
    exact hp _ _ h
  | cons c cs ih =>
    cases hc : Text.isWord c with
    | true => exact (meetsWord_inside hc _ cs).mpr (ih ((meetsWord_inside hc run cs).mp h))
    | false =>
      rw [meetsWord_behind hc, List.reverse_append]
      exact ((meetsWord_behind hc run cs).mp h).imp_left (hp _ _)

end FormulaDesk.Dialect
