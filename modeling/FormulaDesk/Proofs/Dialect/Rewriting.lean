import FormulaDesk.Proofs.Dialect.Words

/-! # The rewriting to the graphing dialect

Four passes take an expression to the graphing dialect: powers, products before a parenthesis,
namespaces and the constant `π`. Each leaves nothing of what it looks for (`not_hasPi_greekPi` and
the like), and none brings back what an earlier one took away. For the namespaces this needs that a
letter stands behind each: a namespace before a star or a parenthesis leaves the two signs around it
side by side. So the result is a normal form, and rewriting it again changes nothing
(`graphingOf_normal`).
-/

namespace FormulaDesk.Dialect

variable {run cs : List Char} {a b c d : Char} {joined : Bool}

/-! ## Two characters side by side -/

/-- No first character with the second right behind it. -/
def NoPair (a b : Char) (cs : List Char) : Prop := cs.IsChain fun c d => c ≠ a ∨ d ≠ b

/-- There is no such pair anywhere, as a statement about parts of the text. -/
theorem noPair_iff : NoPair a b cs ↔ ¬ [a, b] <:+: cs := by
  constructor
  · rintro h ⟨front, rest, rfl⟩
    have hpair : NoPair a b ([a, b] ++ rest) := by
      rw [List.append_assoc] at h
      exact (List.isChain_append.mp h).2.1
    simpa using (List.isChain_cons_cons.mp hpair).1
  · refine fun h => (List.isChain_isInfix cs).imp fun c d hpair => ?_
    by_contra hne
    rw [not_or, not_not, not_not] at hne
    exact h (hne.1 ▸ hne.2 ▸ hpair)

theorem NoPair.head (h : NoPair a b (a :: cs)) : cs.head? ≠ some b := fun hb => by
  simpa using (List.isChain_cons.mp h).1 b hb

/-- One more character in front makes at most one new pair. -/
theorem noPair_cons (hcs : NoPair a b cs) (h : c = a → cs.head? ≠ some b) :
    NoPair a b (c :: cs) := by
  refine List.IsChain.cons hcs fun d hd => ?_
  by_contra hne
  rw [not_or, not_not, not_not] at hne
  exact h hne.1 (hne.2 ▸ hd)

/-! ## Powers -/

/-- The first character is kept, but for a star that becomes a caret. -/
theorem caretPowers_head (h : (caretPowers cs).head? = some d) : cs.head? = some d ∨ d = '^' := by
  unfold caretPowers at h
  split at h
  · exact Or.inr (by simpa using h.symm)
  · exact Or.inl h
  · exact Or.inl h

/-- Behind the pass over powers no two stars are side by side. -/
theorem noPair_caretPowers (cs : List Char) : NoPair '*' '*' (caretPowers cs) := by
  fun_induction caretPowers cs with
  | case1 cs ih => exact noPair_cons ih fun h => absurd h (by decide)
  | case2 c cs hstars ih =>
    refine noPair_cons ih fun hc hhead => ?_
    rcases caretPowers_head hhead with hstar | hcaret
    · obtain ⟨rest, rfl⟩ := List.head?_eq_some_iff.mp hstar
      exact hstars rest hc rfl
    · exact absurd hcaret (by decide)
  | case3 => exact .nil

/-- Without two stars side by side the pass changes nothing. -/
theorem caretPowers_eq_self (h : NoPair '*' '*' cs) : caretPowers cs = cs := by
  fun_induction caretPowers cs with
  | case1 cs ih => exact absurd rfl h.head
  | case2 c cs hstars ih => rw [ih h.tail]
  | case3 => rfl

/-! ## Products before a parenthesis -/

/-- The first character is kept, but for a star that is dropped before a parenthesis. -/
theorem dropStars_head (h : (dropStars cs).head? = some d) :
    cs.head? = some d ∨ d = '(' ∧ cs.head? = some '*' := by
  cases cs with
  | nil => exact Or.inl h
  | cons c cs =>
    unfold dropStars at h
    split at h
    · next hdrop =>
      rw [Bool.and_eq_true, beq_iff_eq, beq_iff_eq] at hdrop
      obtain ⟨rfl, hopen⟩ := hdrop
      obtain ⟨rest, rfl⟩ := List.head?_eq_some_iff.mp hopen
      exact Or.inr ⟨by simpa [dropStars] using h.symm, rfl⟩
    · exact Or.inl h

/-- Dropping stars before parentheses brings no two stars together, and leaves none before a
parenthesis. -/
theorem noPair_dropStars (h : NoPair '*' '*' cs) :
    NoPair '*' '*' (dropStars cs) ∧ NoPair '*' '(' (dropStars cs) := by
  induction cs with
  | nil => exact ⟨.nil, .nil⟩
  | cons c cs ih =>
    obtain ⟨hstars, hopens⟩ := ih h.tail
    unfold dropStars
    split
    · exact ⟨hstars, hopens⟩
    · next hkept =>
      -- behind a star that is kept stands neither another one nor a parenthesis
      have hhead : ∀ d, c = '*' → (dropStars cs).head? = some d → d ≠ '*' ∧ d ≠ '(' := by
        rintro d rfl hd
        have hstar := h.head
        have hopen : cs.head? ≠ some '(' := by simpa using hkept
        rcases dropStars_head hd with hd | ⟨-, hd⟩
        · constructor <;> rintro rfl
          · exact hstar hd
          · exact hopen hd
        · exact absurd hd hstar
      exact ⟨noPair_cons hstars fun hc hd => (hhead _ hc hd).1 rfl,
        noPair_cons hopens fun hc hd => (hhead _ hc hd).2 rfl⟩

/-- Without a star before a parenthesis the pass changes nothing. -/
theorem dropStars_eq_self (h : NoPair '*' '(' cs) : dropStars cs = cs := by
  induction cs with
  | nil => rfl
  | cons c cs ih =>
    have hkept : (c == '*' && cs.head? == some '(') = false := by
      by_contra hdrop
      rw [Bool.not_eq_false, Bool.and_eq_true, beq_iff_eq, beq_iff_eq] at hdrop
      obtain ⟨rfl, hopen⟩ := hdrop
      exact h.head hopen
    rw [dropStars, hkept, ih h.tail]
    rfl

/-! ## Namespaces -/

/-- A namespace with its point. -/
def NamespacePrefix (word after : List Char) : Prop :=
  namespaces.contains (String.ofList word) = true ∧ ['.'] <+: after

/-- A namespace with its point and no letter behind it. -/
def BarePrefix (word after : List Char) : Prop :=
  NamespacePrefix word after ∧ after.tail.head?.any Text.isAsciiLetter = false

instance (word after : List Char) : Decidable (BarePrefix word after) :=
  inferInstanceAs (Decidable ((_ ∧ _) ∧ _))

/-- A letter stands behind each namespace at the start of a word. -/
def Qualifying (cs : List Char) : Prop :=
  ∀ before word after, cs = before ++ (word ++ '.' :: after) → EndsWord before →
    namespaces.contains (String.ofList word) = true →
    after.head?.any Text.isAsciiLetter = true

/-- The condition, as a search through the text for a namespace that no letter follows. -/
theorem qualifying_iff : Qualifying cs ↔ ¬ SomeWord BarePrefix cs := by
  constructor
  · rintro h ⟨before, word, after, hcs, hends, -, -, ⟨hname, rest, rfl⟩, hnone⟩
    have hletter := h before word rest (by simpa using hcs) hends hname
    simp [hletter] at hnone
  · intro h before word after hcs hends hname
    have hwords : ∀ name ∈ namespaces, name.toList.all Text.isWord = true := by decide
    have hword := hwords (String.ofList word) (by simpa using hname)
    rw [String.toList_ofList] at hword
    by_contra hnone
    refine h ⟨before, word, '.' :: after, hcs, hends, List.all_eq_true.mp hword, ?_,
      ⟨hname, List.prefix_append ['.'] after⟩, by simpa using hnone⟩
    intro c hc
    rw [List.head?_cons, Option.some.injEq] at hc
    exact hc ▸ rfl

instance : Decidable (Qualifying cs) :=
  decidable_of_iff (¬ MeetsWord BarePrefix [] cs) (by rw [qualifying_iff, meetsWord_iff])

theorem namespacePrefix_cons {word : List Char} :
    NamespacePrefix word (c :: cs) ↔ c = '.' ∧ namespaces.contains (String.ofList word) = true := by
  simp [NamespacePrefix, List.cons_prefix_cons, and_comm, eq_comm]

theorem not_namespacePrefix_nil {word : List Char} : ¬ NamespacePrefix word [] := by
  simp [NamespacePrefix]

/-- A pass that keeps letters and points where they are leaves a letter behind each namespace. -/
theorem MeetsWord.bare_cons {cs' : List Char}
    (hletter : cs'.head?.any Text.isAsciiLetter = cs.head?.any Text.isAsciiLetter)
    (h : MeetsWord BarePrefix run (c :: cs'))
    (ih : ∀ run, MeetsWord BarePrefix run cs' → MeetsWord BarePrefix run cs) :
    MeetsWord BarePrefix run (c :: cs) := by
  cases hc : Text.isWord c with
  | true => exact (meetsWord_inside hc run cs).mpr (ih _ ((meetsWord_inside hc run cs').mp h))
  | false =>
    rw [meetsWord_behind hc] at h ⊢
    refine h.imp (fun hbare => ?_) (ih [])
    rw [BarePrefix, namespacePrefix_cons, List.tail_cons] at hbare ⊢
    rwa [← hletter]

/-- The pass over powers puts no letter where none was. -/
theorem caretPowers_letter (cs : List Char) :
    (caretPowers cs).head?.any Text.isAsciiLetter = cs.head?.any Text.isAsciiLetter := by
  unfold caretPowers
  split <;> rfl

/-- A namespace without a letter behind it was there before the pass. -/
theorem bare_of_caretPowers (h : MeetsWord BarePrefix run (caretPowers cs)) :
    MeetsWord BarePrefix run cs := by
  fun_induction caretPowers cs generalizing run with
  | case1 cs ih =>
    rw [meetsWord_behind rfl] at h
    rw [meetsWord_behind rfl, meetsWord_behind rfl]
    rcases h with hbare | h
    · rw [BarePrefix, namespacePrefix_cons] at hbare
      exact absurd hbare.1.1 (by decide)
    · exact Or.inr (Or.inr (ih h))
  | case2 c cs hstars ih => exact h.bare_cons (caretPowers_letter cs) fun run => ih
  | case3 => exact h

theorem dropStars_letter (cs : List Char) :
    (dropStars cs).head?.any Text.isAsciiLetter = cs.head?.any Text.isAsciiLetter := by
  cases cs with
  | nil => rfl
  | cons c cs =>
    unfold dropStars
    split
    · next hdrop =>
      rw [Bool.and_eq_true, beq_iff_eq, beq_iff_eq] at hdrop
      obtain ⟨rfl, hopen⟩ := hdrop
      obtain ⟨rest, rfl⟩ := List.head?_eq_some_iff.mp hopen
      rfl
    · rfl

/-- Dropping stars makes no such namespace either. -/
theorem bare_of_dropStars (h : MeetsWord BarePrefix run (dropStars cs)) :
    MeetsWord BarePrefix run cs := by
  induction cs generalizing run with
  | nil => exact h
  | cons c cs ih =>
    unfold dropStars at h
    split at h
    · next hdrop =>
      rw [Bool.and_eq_true, beq_iff_eq, beq_iff_eq] at hdrop
      obtain ⟨rfl, hopen⟩ := hdrop
      obtain ⟨rest, rfl⟩ := List.head?_eq_some_iff.mp hopen
      have h := ih h
      rw [meetsWord_behind rfl] at h ⊢
      rcases h with hbare | h
      · -- a parenthesis is no point, so it ends no namespace
        rw [BarePrefix, namespacePrefix_cons] at hbare
        exact absurd hbare.1.1 (by decide)
      · exact Or.inr ((meetsWord_behind rfl [] rest).mpr (Or.inr h))
    · exact h.bare_cons (dropStars_letter cs) fun run => ih

/-- What the pass leaves starts as the text does, but behind a namespace, where a letter stands. -/
theorem dropNamespaces_head (hbare : ¬ MeetsWord BarePrefix run cs)
    (h : (dropNamespaces run cs).head? = some d) :
    Text.isAsciiLetter d = true ∨ (run.reverse ++ cs).head? = some d := by
  induction cs generalizing run with
  | nil => exact Or.inr (by simpa [dropNamespaces] using h)
  | cons c cs ih =>
    unfold dropNamespaces at h
    split_ifs at h with hc hprefix
    · rw [meetsWord_inside hc] at hbare
      simpa using ih hbare h
    · rw [Bool.not_eq_true] at hc
      rw [Bool.and_eq_true, beq_iff_eq] at hprefix
      obtain ⟨rfl, hname⟩ := hprefix
      rw [meetsWord_behind hc, not_or, BarePrefix, namespacePrefix_cons, List.tail_cons] at hbare
      -- the namespace that is dropped here is not bare
      have hletter : cs.head?.any Text.isAsciiLetter = true := by
        by_contra hnone
        exact hbare.1 ⟨⟨rfl, hname⟩, by simpa using hnone⟩
      rcases ih hbare.2 h with hd | hd
      · exact Or.inl hd
      · rw [List.reverse_nil, List.nil_append] at hd
        rw [hd] at hletter
        exact Or.inl hletter
    · exact Or.inr (by simpa using h)

theorem noPair_of_not_mem {w : List Char} (h : a ∉ w) : NoPair a b w :=
  (List.isChain_isInfix w).imp fun c _ hpair => Or.inl fun hc => h (hc ▸ hpair.subset (by simp))

/-- Two signs that were apart stay apart, since a letter takes the place of each namespace. -/
theorem noPair_dropNamespaces (ha : Text.isWord a = false) (hb : Text.isAsciiLetter b = false)
    (hbare : ¬ MeetsWord BarePrefix run cs) (hrun : ∀ c ∈ run, Text.isWord c = true)
    (h : NoPair a b cs) : NoPair a b (dropNamespaces run cs) := by
  have hword : ∀ w : List Char, (∀ c ∈ w, Text.isWord c = true) → a ∉ w.reverse := by
    intro w hw hmem
    rw [hw a (List.mem_reverse.mp hmem)] at ha
    exact absurd ha (by simp)
  induction cs generalizing run with
  | nil => exact noPair_of_not_mem (hword run hrun)
  | cons c cs ih =>
    unfold dropNamespaces
    split_ifs with hc hprefix
    · rw [meetsWord_inside hc] at hbare
      exact ih hbare (List.forall_mem_cons.mpr ⟨hc, hrun⟩) h.tail
    all_goals
      rw [Bool.not_eq_true] at hc
      rw [meetsWord_behind hc, not_or] at hbare
      have hrest := ih hbare.2 (by simp) h.tail
    · exact hrest
    · -- a kept word holds no `a`, and what comes behind `c` is a letter or what came before
      refine List.isChain_append.mpr ⟨noPair_of_not_mem (hword run hrun), ?_, fun d hd e _ => ?_⟩
      · refine noPair_cons hrest fun hca hhead => ?_
        rcases dropNamespaces_head hbare.2 hhead with hletter | hcs
        · rw [hb] at hletter
          exact absurd hletter (by simp)
        · exact (hca ▸ h).head (by simpa using hcs)
      · refine Or.inl fun hda => hword run hrun (hda ▸ ?_)
        exact List.mem_of_getLast? hd

/-- The pass leaves no namespace. -/
theorem not_prefix_dropNamespaces (hrun : ∀ c ∈ run, Text.isWord c = true) (cs : List Char) :
    ¬ MeetsWord NamespacePrefix [] (dropNamespaces run cs) := by
  have hreverse : ∀ w : List Char, (∀ c ∈ w, Text.isWord c = true) →
      ∀ c ∈ w.reverse, Text.isWord c = true := fun w hw c hc => hw c (List.mem_reverse.mp hc)
  induction cs generalizing run with
  | nil =>
    have hmeets := meetsWord_word (p := NamespacePrefix) (hreverse run hrun) [] []
    rw [List.append_nil] at hmeets
    rw [dropNamespaces, hmeets, meetsWord_nil]
    exact not_namespacePrefix_nil
  | cons c cs ih =>
    unfold dropNamespaces
    split_ifs with hc hprefix
    · exact ih (List.forall_mem_cons.mpr ⟨hc, hrun⟩)
    · exact ih (by simp)
    · rw [Bool.not_eq_true] at hc
      rw [meetsWord_word (hreverse run hrun), meetsWord_behind hc, not_or, namespacePrefix_cons]
      -- were this a namespace, the pass would have taken it
      refine ⟨fun hmeets => hprefix ?_, ih (by simp)⟩
      simpa using hmeets

/-- Without a namespace the pass changes nothing. -/
theorem dropNamespaces_eq_self (h : ¬ MeetsWord NamespacePrefix run cs) :
    dropNamespaces run cs = run.reverse ++ cs := by
  induction cs generalizing run with
  | nil => simp [dropNamespaces]
  | cons c cs ih =>
    cases hc : Text.isWord c with
    | true =>
      rw [meetsWord_inside hc] at h
      rw [dropNamespaces, if_pos hc, ih h]
      simp
    | false =>
      rw [meetsWord_behind hc, not_or, namespacePrefix_cons] at h
      rw [dropNamespaces, if_neg (by simp [hc]), if_neg (by simpa using h.1), ih h.2]
      simp

/-! ## The constant `π` -/

/-- The word `pi` alone. `joined` says whether the character before the text belongs to its first
word. -/
def HasPi (joined : Bool) (cs : List Char) : Prop :=
  ∃ before after, cs = before ++ 'p' :: 'i' :: after ∧
    (before.getLast?.map joinsBefore).getD joined = false ∧ after.head?.any joinsAfter = false

theorem hasPi_cons : HasPi joined (c :: cs) ↔
    (joined = false ∧ ∃ after, c = 'p' ∧ cs = 'i' :: after ∧ after.head?.any joinsAfter = false) ∨
      HasPi (joinsBefore c) cs := by
  have hlast : ∀ before : List Char, ((c :: before).getLast?.map joinsBefore).getD joined
      = (before.getLast?.map joinsBefore).getD (joinsBefore c) := fun before => by
    rw [List.getLast?_cons]
    cases before.getLast? <;> rfl
  constructor
  · rintro ⟨before, after, hcs, hbefore, hafter⟩
    cases before with
    | nil =>
      rw [List.nil_append, List.cons.injEq] at hcs
      exact Or.inl ⟨hbefore, after, hcs.1, hcs.2, hafter⟩
    | cons e before =>
      rw [List.cons_append, List.cons.injEq] at hcs
      obtain ⟨rfl, hcs⟩ := hcs
      rw [hlast] at hbefore
      exact Or.inr ⟨before, after, hcs, hbefore, hafter⟩
  · rintro (⟨hjoined, after, rfl, rfl, hafter⟩ | ⟨before, after, rfl, hbefore, hafter⟩)
    · exact ⟨[], after, rfl, hjoined, hafter⟩
    · exact ⟨c :: before, after, rfl, (hlast before).trans hbefore, hafter⟩

theorem not_hasPi_nil (joined : Bool) : ¬ HasPi joined [] := by
  rintro ⟨before, after, hcs, -⟩
  simp at hcs

/-- Inside a word the first character is kept. -/
theorem greekPi_head_joined (cs : List Char) : (greekPi true cs).head? = cs.head? := by
  unfold greekPi
  split <;> simp

/-- The first character is kept, but for that of the word `pi`. -/
theorem greekPi_head (h : (greekPi joined cs).head? = some d) : d = 'π' ∨ cs.head? = some d := by
  unfold greekPi at h
  split at h
  · exact Or.inr h
  · split at h
    · exact Or.inl (by simpa using h.symm)
    · exact Or.inr h
  · exact Or.inr h

/-- The pass leaves no word `pi`. -/
theorem not_hasPi_greekPi (joined : Bool) (cs : List Char) :
    ¬ HasPi joined (greekPi joined cs) := by
  fun_induction greekPi joined cs with
  | case1 => exact not_hasPi_nil _
  | case2 joined cs halone ih =>
    rw [Bool.and_eq_true, Bool.not_eq_true', Bool.not_eq_true'] at halone
    have hp : cs.head? ≠ some 'p' := fun hp => by
      rw [hp] at halone
      exact absurd halone.2 (by decide)
    rw [hasPi_cons, not_or]
    refine ⟨by simp, ?_⟩
    -- what follows starts with no `p`, so it does not matter what stands before it
    cases hcs : greekPi true cs with
    | nil => exact not_hasPi_nil _
    | cons e rest =>
      rw [hcs, hasPi_cons, not_or] at ih
      rw [hasPi_cons, not_or]
      refine ⟨?_, ih.2⟩
      rintro ⟨-, after, rfl, -⟩
      exact hp (by rw [← greekPi_head_joined, hcs]; rfl)
  | case3 joined cs hjoined ih =>
    have hi : greekPi true ('i' :: cs) = 'i' :: greekPi true cs := by rw [greekPi]; rfl; simp
    rw [hasPi_cons, not_or]
    refine ⟨?_, ih⟩
    rintro ⟨hfree, after, -, hrest, hafter⟩
    rw [hi, List.cons.injEq] at hrest
    rw [← hrest.2, greekPi_head_joined] at hafter
    simp [hfree, hafter] at hjoined
  | case4 joined c cs hpi ih =>
    rw [hasPi_cons, not_or]
    refine ⟨?_, ih⟩
    rintro ⟨-, after, rfl, hrest, -⟩
    have hhead := greekPi_head_joined cs
    have hjoins : joinsBefore 'p' = true := rfl
    rw [← hjoins, hrest] at hhead
    obtain ⟨rest, rfl⟩ := List.head?_eq_some_iff.mp hhead.symm
    exact hpi rest rfl rfl

/-- Without the word the pass changes nothing. -/
theorem greekPi_eq_self (h : ¬ HasPi joined cs) : greekPi joined cs = cs := by
  fun_induction greekPi joined cs with
  | case1 => rfl
  | case2 joined cs halone ih =>
    rw [Bool.and_eq_true, Bool.not_eq_true', Bool.not_eq_true'] at halone
    exact absurd (hasPi_cons.mpr (Or.inl ⟨halone.1, cs, rfl, rfl, halone.2⟩)) h
  | case3 joined cs hjoined ih =>
    rw [hasPi_cons, not_or] at h
    rw [ih h.2]
  | case4 joined c cs hpi ih =>
    rw [hasPi_cons, not_or] at h
    rw [ih h.2]

/-- The Greek letter is neither star nor parenthesis, so it makes no new pair. -/
theorem noPair_greekPi (ha : a ≠ 'π') (hb : b ≠ 'π') (h : NoPair a b cs) :
    NoPair a b (greekPi joined cs) := by
  have hcons : ∀ joined c cs, NoPair a b (c :: cs) → NoPair a b (greekPi joined cs) →
      NoPair a b (c :: greekPi joined cs) := fun joined c cs hcs hrest => by
    refine noPair_cons hrest fun hc hd => ?_
    rcases greekPi_head hd with hpi | hhead
    · exact hb hpi
    · exact (hc ▸ hcs).head hhead
  fun_induction greekPi joined cs with
  | case1 => exact .nil
  | case2 joined cs halone ih => exact noPair_cons (ih h.tail.tail) fun hpi => absurd hpi.symm ha
  | case3 joined cs hjoined ih => exact hcons _ _ _ h (ih h.tail)
  | case4 joined c cs hpi ih => exact hcons _ _ _ h (ih h.tail)

/-- The pass makes no namespace: a word in which something is replaced holds a letter that is in no
namespace. -/
theorem prefix_of_greekPi {run' : List Char} (hrun : run' = run ∨ 'π' ∈ run')
    (h : MeetsWord NamespacePrefix run' (greekPi joined cs)) :
    MeetsWord NamespacePrefix run cs := by
  -- `run` is the word in the text before the pass, `run'` the word in the text after it
  have hnone : ∀ run' : List Char, 'π' ∈ run' →
      namespaces.contains (String.ofList run'.reverse) = false := by
    have hletters : ∀ name ∈ namespaces, 'π' ∉ name.toList := by decide
    intro run' hmem
    by_contra hname
    exact hletters (String.ofList run'.reverse) (by simpa using hname) (by simpa using hmem)
  fun_induction greekPi joined cs generalizing run run' with
  | case1 joined => exact absurd h not_namespacePrefix_nil
  | case2 joined cs halone ih =>
    rw [meetsWord_inside (by decide)] at h
    rw [meetsWord_inside (by decide), meetsWord_inside (by decide)]
    exact ih (Or.inr List.mem_cons_self) h
  | case3 joined cs hjoined ih =>
    rw [meetsWord_inside (by decide)] at h ⊢
    exact ih (hrun.imp (· ▸ rfl) (List.mem_cons_of_mem _)) h
  | case4 joined c cs hpi ih =>
    cases hc : Text.isWord c with
    | true =>
      rw [meetsWord_inside hc] at h ⊢
      exact ih (hrun.imp (· ▸ rfl) (List.mem_cons_of_mem _)) h
    | false =>
      rw [meetsWord_behind hc, namespacePrefix_cons] at h ⊢
      rcases h with ⟨hpoint, hname⟩ | h
      · rcases hrun with rfl | hmem
        · exact Or.inl ⟨hpoint, hname⟩
        · rw [hnone run' hmem] at hname
          exact absurd hname (by simp)
      · exact Or.inr (ih (Or.inl rfl) h)

/-! ## All passes -/

/-- A text that no pass to the graphing dialect changes. -/
structure IsGraphing (cs : List Char) : Prop where
  unraised : ¬ ['*', '*'] <:+: cs
  unstarred : ¬ ['*', '('] <:+: cs
  unqualified : ¬ SomeWord NamespacePrefix cs
  greek : ¬ HasPi false cs

/-- A text without any of the four is left alone by all passes. -/
theorem IsGraphing.toGraphing_eq {expression : String} (h : IsGraphing expression.toList) :
    toGraphing expression = expression := by
  have hprefix : ¬ MeetsWord NamespacePrefix [] expression.toList :=
    mt meetsWord_iff.mp h.unqualified
  rw [toGraphing, caretPowers_eq_self (noPair_iff.mpr h.unraised),
    dropStars_eq_self (noPair_iff.mpr h.unstarred), dropNamespaces_eq_self hprefix,
    List.reverse_nil, List.nil_append, greekPi_eq_self h.greek, String.ofList_toList]

/-- Where each namespace has a letter behind it, one application is enough. -/
theorem isGraphing_toGraphing {expression : String} (h : Qualifying expression.toList) :
    IsGraphing (toGraphing expression).toList := by
  have hstars := noPair_caretPowers expression.toList
  obtain ⟨hraised, hstarred⟩ := noPair_dropStars hstars
  have hbare : ¬ MeetsWord BarePrefix [] (dropStars (caretPowers expression.toList)) :=
    fun hmeets =>
      qualifying_iff.mp h (meetsWord_iff.mp (bare_of_caretPowers (bare_of_dropStars hmeets)))
  -- the later passes keep a star apart from what it was apart from, both times
  have hapart : ∀ b, Text.isAsciiLetter b = false → b ≠ 'π' →
      NoPair '*' b (dropStars (caretPowers expression.toList)) →
      NoPair '*' b (toGraphing expression).toList := fun b hletter hb hpair => by
    rw [toGraphing, String.toList_ofList]
    exact noPair_greekPi (by decide) hb (noPair_dropNamespaces rfl hletter hbare (by simp) hpair)
  constructor
  · exact noPair_iff.mp (hapart '*' (by decide) (by decide) hraised)
  · exact noPair_iff.mp (hapart '(' (by decide) (by decide) hstarred)
  · rw [toGraphing, String.toList_ofList]
    intro hprefix
    exact not_prefix_dropNamespaces (by simp) _ (prefix_of_greekPi (Or.inl rfl) hprefix.meets)
  · rw [toGraphing, String.toList_ofList]
    exact not_hasPi_greekPi false _

/-- Where a letter stands behind each namespace, the rewriting of an expression has no two stars in
a row, no star before a parenthesis, no namespace and no word `pi`, and rewriting it once more
changes nothing. -/
theorem graphingOf_normal {expression : String} (h : Qualifying expression.toList) :
    IsGraphing (Conversion.graphingOf expression).value.toList ∧
      (Conversion.graphingOf (Conversion.graphingOf expression).value).value
        = (Conversion.graphingOf expression).value := by
  have hnormal := isGraphing_toGraphing h
  simp only [graphingOf_value]
  exact ⟨hnormal, hnormal.toGraphing_eq⟩

/-- A run of stars, a namespace that is one and a namespace that is part of a longer name. -/
theorem graphingOf_normal_mixed : Qualifying "2***(np.math.pi)+amath.x".toList ∧
    (Conversion.graphingOf "2***(np.math.pi)+amath.x").value = "2^(π)+amath.x" ∧
    IsGraphing "2^(π)+amath.x".toList ∧
    (Conversion.graphingOf "2^(π)+amath.x").value = "2^(π)+amath.x" := by
  have hvalue : (Conversion.graphingOf "2***(np.math.pi)+amath.x").value = "2^(π)+amath.x" := by
    decide +kernel
  have hqualifying : Qualifying "2***(np.math.pi)+amath.x".toList := by decide +kernel
  have hnormal := graphingOf_normal hqualifying
  rw [hvalue] at hnormal
  exact ⟨hqualifying, hvalue, hnormal⟩

/-- Behind a namespace without a letter the signs around it come together. -/
example : (Conversion.graphingOf "x*math.*y").value = "x**y" := by decide +kernel

end FormulaDesk.Dialect
