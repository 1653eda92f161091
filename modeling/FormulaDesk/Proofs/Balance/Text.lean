import FormulaDesk.Dialect.Cleanup
import Mathlib.Data.List.Infix

/-! # Balanced texts

A text is balanced if its parentheses come in pairs. `level` counts those that are open along the
text, which turns balance into one computation (`balanced_iff_level`): texts put one after the other
add up, and a pass that drops or inserts other characters changes no level.
-/

namespace FormulaDesk.Dialect

variable {n m k : Nat} {c : Char} {cs cs' : List Char} {s t : String}

/-- No prefix has more closing parentheses than opening ones, and in all there are as many. -/
structure Balanced (cs : List Char) : Prop where
  initial : ∀ p, p <+: cs → p.count ')' ≤ p.count '('
  total : cs.count '(' = cs.count ')'

/-- The number of parentheses that are open behind a character, given the number before it. There is
none if the character closes one that is not open. -/
def opened (n : Nat) (c : Char) : Option Nat :=
  if c = '(' then some (n + 1)
  else if c = ')' then if n = 0 then none else some (n - 1)
  else some n

/-- The number of parentheses that are open behind a text. -/
def level (n : Nat) (cs : List Char) : Option Nat := cs.foldlM opened n

theorem level_cons (n : Nat) (c : Char) (cs : List Char) :
    level n (c :: cs) = (opened n c).bind fun m => level m cs := List.foldlM_cons

/-- Levels are counted through a text piece by piece. -/
theorem level_append (n : Nat) (cs cs' : List Char) :
    level n (cs ++ cs') = (level n cs).bind fun m => level m cs' := List.foldlM_append

/-- Only parentheses change the level. -/
theorem opened_other (h : c ≠ '(' ∧ c ≠ ')') (n : Nat) : opened n c = some n := by
  rw [opened, if_neg h.1, if_neg h.2]

/-- The level counts openings up and closings down. -/
theorem opened_eq_some_iff :
    opened n c = some m ↔ n + [c].count '(' = m + [c].count ')' := by
  unfold opened
  split
  · next h =>
    subst h
    simp
  · split
    · next h =>
      subst h
      split
      · next h =>
        subst h
        simp
      · simp
        omega
    · next hopening hclosing => simp [hopening, hclosing]

/-- A level is reached exactly when no prefix closes more than is open. -/
theorem level_eq_some_iff : level n cs = some m ↔
    (∀ p, p <+: cs → p.count ')' ≤ n + p.count '(') ∧ n + cs.count '(' = m + cs.count ')' := by
  induction cs generalizing n with
  | nil => simp [level]
  | cons c cs ih =>
    -- the first character and the rest are counted apart
    have hcount : ∀ d (p : List Char), (c :: p).count d = [c].count d + p.count d := by
      intro d p
      rw [← List.singleton_append, List.count_append]
    rw [level_cons, Option.bind_eq_some_iff, hcount _ cs, hcount _ cs]
    simp only [opened_eq_some_iff, ih]
    constructor
    · rintro ⟨k, hc, hinitial, htotal⟩
      refine ⟨fun p hp => ?_, by omega⟩
      rcases List.prefix_cons_iff.mp hp with rfl | ⟨q, rfl, hq⟩
      · simp
      · have := hinitial q hq
        rw [hcount _ q, hcount _ q]
        omega
    · rintro ⟨hinitial, htotal⟩
      -- the first character alone is a prefix, so it closes nothing that is not open
      have hfirst := hinitial [c] (by simp)
      refine ⟨n + [c].count '(' - [c].count ')', by omega, fun p hp => ?_, by omega⟩
      have := hinitial (c :: p) (List.prefix_cons_inj c |>.mpr hp)
      rw [hcount _ p, hcount _ p] at this
      omega

/-- Balance is reaching level zero again, so that it can be shown by counting. -/
theorem balanced_iff_level : Balanced cs ↔ level 0 cs = some 0 := by
  rw [level_eq_some_iff]
  simp only [Nat.zero_add]
  exact ⟨fun h => ⟨h.initial, h.total⟩, fun h => ⟨h.1, h.2⟩⟩

/-- A balanced text leaves every level as it is. -/
theorem Balanced.level_eq (h : Balanced cs) (n : Nat) : level n cs = some n := by
  rw [level_eq_some_iff]
  refine ⟨fun p hp => ?_, by rw [h.total]⟩
  have := h.initial p hp
  omega

/-! ## Texts made of balanced texts -/

theorem Balanced.nil : Balanced [] := balanced_iff_level.mpr rfl

/-- Balanced texts stay balanced one behind the other. -/
theorem Balanced.append (h : Balanced cs) (h' : Balanced cs') : Balanced (cs ++ cs') := by
  rw [balanced_iff_level, level_append, h.level_eq]
  exact h'.level_eq 0

/-- A balanced text stays balanced in parentheses. -/
theorem Balanced.parens (h : Balanced cs) : Balanced ('(' :: (cs ++ [')'])) := by
  rw [balanced_iff_level, level_cons, opened]
  simp [level_append, h.level_eq]
  rfl

/-- A text without parentheses. -/
def Flat (s : String) : Prop := ∀ c ∈ s.toList, c ≠ '(' ∧ c ≠ ')'

instance : Decidable (Flat s) :=
  decidable_of_iff (s.toList.all fun c => c != '(' && c != ')') (by simp [Flat])

/-- A text without parentheses is balanced. -/
theorem balanced_of_flat (h : ∀ c ∈ cs, c ≠ '(' ∧ c ≠ ')') : Balanced cs := by
  rw [balanced_iff_level]
  induction cs with
  | nil => rfl
  | cons c cs ih =>
    obtain ⟨hc, hcs⟩ := List.forall_mem_cons.mp h
    rw [level_cons, opened_other hc]
    exact ih hcs

theorem Flat.balanced (h : Flat s) : Balanced s.toList := balanced_of_flat h

/-- Balance of texts that are put together. -/
theorem balanced_append (h : Balanced s.toList) (h' : Balanced t.toList) :
    Balanced (s ++ t).toList := by
  rw [String.toList_append]
  exact h.append h'

/-- A text put in parentheses is balanced when it was before. -/
theorem balanced_inParens (h : Balanced s.toList) : Balanced (inParens s).toList := by
  simpa [inParens] using h.parens

/-! ## Passes -/

/-- Texts that reach the same levels do so behind one more character too. -/
theorem level_congr (c : Char) (h : ∀ n, level n cs = level n cs') (n : Nat) :
    level n (c :: cs) = level n (c :: cs') := by
  simp only [level_cons, h]

/-- A character that is no parenthesis can be left out of the count. -/
theorem level_other (h : c ≠ '(' ∧ c ≠ ')') (n : Nat) (cs : List Char) :
    level n (c :: cs) = level n cs := by
  rw [level_cons, opened_other h, Option.bind_some]

/-- Dropping blanks keeps the level. -/
theorem level_dropBlanks (n : Nat) (cs : List Char) : level n (dropBlanks cs) = level n cs := by
  induction cs generalizing n with
  | nil => rfl
  | cons c cs ih =>
    cases hblank : Text.isBlank c with
    | false =>
      rw [dropBlanks, List.filter_cons_of_pos (by simp [hblank])]
      exact level_congr c ih n
    | true =>
      have hc : c ≠ '(' ∧ c ≠ ')' := by
        constructor <;> rintro rfl <;> exact absurd hblank (by decide)
      rw [dropBlanks, List.filter_cons_of_neg (by simp [hblank]), level_other hc]
      exact ih n

theorem level_star (n : Nat) (cs : List Char) : level n ('*' :: cs) = level n cs :=
  level_other (by decide) n cs

/-- Dropping the star between a name and its parenthesis keeps the level. -/
theorem level_joinCalls (n : Nat) (run cs : List Char) :
    level n (joinCalls run cs) = level n cs := by
  induction cs generalizing n run with
  | nil => rfl
  | cons c cs ih =>
    unfold joinCalls
    split
    · exact level_congr c (fun n => ih n _) n
    · split
      · next hstar =>
        simp only [Bool.and_eq_true, beq_iff_eq] at hstar
        rw [hstar.1.1, level_star]
        exact ih n []
      · exact level_congr c (fun n => ih n []) n

/-- Putting stars between factors keeps the level. -/
theorem level_splitFactors (n : Nat) (cs : List Char) :
    level n (splitFactors cs) = level n cs := by
  induction cs generalizing n with
  | nil => rfl
  | cons c cs ih =>
    unfold splitFactors
    split
    · refine level_congr c (fun n => ?_) n
      rw [level_star]
      exact ih n
    · exact level_congr c ih n

/-- Dropping stars keeps the level. -/
theorem level_dropStars (n : Nat) (cs : List Char) : level n (dropStars cs) = level n cs := by
  induction cs generalizing n with
  | nil => rfl
  | cons c cs ih =>
    unfold dropStars
    split
    · next hstar =>
      simp only [Bool.and_eq_true, beq_iff_eq] at hstar
      rw [hstar.1, level_star]
      exact ih n
    · exact level_congr c ih n

/-- The passes that end a conversion keep a text balanced. -/
theorem balanced_finish (d : Dialect) (h : Balanced s.toList) : Balanced (d.finish s).toList := by
  have htidy : level 0 (tidy s.toList) = some 0 := by
    rw [tidy, level_splitFactors, level_joinCalls, level_dropBlanks]
    exact balanced_iff_level.mp h
  rw [balanced_iff_level, finish, String.toList_ofList]
  cases d.starless with
  | false => exact htidy
  | true => exact (level_dropStars 0 _).trans htidy

end FormulaDesk.Dialect
