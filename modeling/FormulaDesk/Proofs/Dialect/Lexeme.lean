import FormulaDesk.Proofs.Dialect.Settled
import FormulaDesk.Proofs.Formula.Basic

/-! # Lexemes

A printed formula is a row of numbers, names and signs. The dialects spell a power and two constants
each in its own way, and the clean-up and rewriting passes go over the spelled text. What they do to
it is said here once: a pass that takes each lexeme from one spelling to another, whatever may stand
behind it, takes the whole row (`pass_spell`).
-/

namespace FormulaDesk.Dialect

/-! ## Rows of lexemes -/

/-- A run of digits and points. -/
structure Figure where
  chars : List Char
  nonempty : chars ≠ []
  accepted : ∀ c ∈ chars, isFigure c = true

/-- The signs that every dialect spells alike. -/
inductive Mark where
  | opening | closing | plus | minus | slash | comma
deriving DecidableEq, Repr

def Mark.char : Mark → Char
  | .opening => '('
  | .closing => ')'
  | .plus => '+'
  | .minus => '-'
  | .slash => '/'
  | .comma => ','

inductive Lexeme where
  | number (value : Figure)
  | letter (v : Letter)
  /-- The name of a function that is called. -/
  | call (name : String) (h : name ∈ callNames)
  | euler
  | pi
  | times
  | power
  | mark (m : Mark)

namespace Lexeme

/-- Numbers and names. -/
def isWord : Lexeme → Bool
  | .times => false
  | .power => false
  | .mark _ => false
  | _ => true

def isCall : Lexeme → Bool
  | .call _ _ => true
  | _ => false

/-- The signs that are written with stars. -/
def isStar : Lexeme → Bool
  | .times => true
  | .power => true
  | _ => false

def isOpening : Lexeme → Bool
  | .mark .opening => true
  | _ => false

/-- A lexeme as a dialect spells it. -/
def chars (d : Dialect) : Lexeme → List Char
  | .number value => value.chars
  | .letter v => [v.char]
  | .call name _ => name.toList
  | .euler => d.euler.toList
  | .pi => d.pi.toList
  | .times => ['*']
  | .power => d.power.toList
  | .mark m => [m.char]

/-- Whether the second lexeme may stand behind the first: words are kept apart, and so are stars,
and what is called has a parenthesis behind it. -/
def joins (x y : Lexeme) : Bool :=
  (!x.isWord || !y.isWord) && (!x.isCall || y.isOpening) && (!x.isStar || !y.isStar)

end Lexeme

/-- A row of lexemes in a dialect. -/
def spell (d : Dialect) (row : List Lexeme) : List Char := row.flatMap (Lexeme.chars d)

def Joined (row : List Lexeme) : Prop := row.IsChain fun x y => x.joins y = true

variable {d d' : Dialect} {x y : Lexeme} {row row' : List Lexeme} {cs : List Char}

theorem spell_cons (d : Dialect) (x : Lexeme) (row : List Lexeme) :
    spell d (x :: row) = x.chars d ++ spell d row := List.flatMap_cons ..

/-- Rows are spelled one behind the other. -/
theorem spell_append (d : Dialect) (row row' : List Lexeme) :
    spell d (row ++ row') = spell d row ++ spell d row' := List.flatMap_append ..

/-! ## What stands behind a lexeme -/

/-- The characters that signs are spelled with. -/
def isBoundary (c : Char) : Bool := ['(', ')', '+', '-', '*', '/', ',', '^'].contains c

/-- Nothing, or a sign. -/
def Bounded (cs : List Char) : Prop := ∀ c, cs.head? = some c → isBoundary c = true

/-- What the clean-up asks of a character, answered once for those that end a word. -/
theorem boundary_facts {c : Char} (h : isBoundary c = true) :
    Breaks c ∧ c ≠ '.' ∧ c ≠ 'p' ∧ c ≠ 'i' ∧ joinsBefore c = false ∧ joinsAfter c = false := by
  simp only [isBoundary, List.contains_eq_mem, List.mem_cons, List.not_mem_nil, or_false,
    decide_eq_true_eq] at h
  rcases h with rfl | rfl | rfl | rfl | rfl | rfl | rfl | rfl <;>
    exact ⟨⟨rfl, rfl, rfl⟩, by decide⟩

/-- A dialect that spells its own lexemes in one of the ways that occur. -/
structure Plain (d : Dialect) : Prop where
  power : d.power = "**" ∨ d.power = "^"
  euler : d.euler = "math.e" ∨ d.euler = "e"
  pi : d.pi = "pi" ∨ d.pi = "π"

/-- A figure begins with a character of a word. -/
theorem Figure.head (n : Figure) : ∃ c cs, n.chars = c :: cs ∧ isBoundary c = false := by
  obtain ⟨chars, hne, haccepted⟩ := n
  obtain ⟨c, cs, rfl⟩ := List.exists_cons_of_ne_nil hne
  refine ⟨c, cs, rfl, ?_⟩
  by_contra hboundary
  rw [Bool.not_eq_false] at hboundary
  obtain ⟨⟨hword, -⟩, hpoint, -⟩ := boundary_facts hboundary
  obtain ⟨-, hc | hc⟩ := figure_facts (haccepted c List.mem_cons_self)
  · rw [hword] at hc
    simp at hc
  · exact hpoint hc

/-- A letter ends no word. -/
theorem not_boundary_of_letter {c : Char} (h : Text.isAsciiLetter c = true) :
    isBoundary c = false := by
  by_contra hboundary
  rw [Bool.not_eq_false] at hboundary
  rw [(boundary_facts hboundary).1.2.2] at h
  simp at h

/-- The name of a call begins with a character of a word. -/
theorem callName_head {name : String} (h : name ∈ callNames) :
    ∃ c cs, name.toList = c :: cs ∧ isBoundary c = false := by
  have hhead : ∀ name ∈ callNames, name.toList.head?.any (fun c => !isBoundary c) = true := by
    decide
  have hname := hhead name h
  cases hlist : name.toList with
  | nil => simp [hlist] at hname
  | cons c cs =>
    refine ⟨c, cs, rfl, ?_⟩
    simpa [hlist] using hname

/-- The first character of a lexeme tells words, stars and parentheses apart. -/
theorem Lexeme.head (hd : Plain d) (x : Lexeme) : ∃ c cs, x.chars d = c :: cs ∧
    isBoundary c = !x.isWord ∧ (x.isStar = false → c ≠ '*') ∧ (c = '(' ↔ x.isOpening = true) := by
  -- a word starts with no sign at all
  have hword : ∀ c, isBoundary c = false → c ≠ '*' ∧ c ≠ '(' := by
    intro c hc
    constructor <;> rintro rfl <;> simp [isBoundary] at hc
  cases x with
  | number n =>
    obtain ⟨c, cs, hchars, hc⟩ := n.head
    exact ⟨c, cs, hchars, hc, fun _ => (hword c hc).1, by simp [(hword c hc).2, isOpening]⟩
  | letter v =>
    have hc := not_boundary_of_letter v.isLetter
    exact ⟨v.char, [], rfl, hc, fun _ => (hword _ hc).1, by simp [(hword _ hc).2, isOpening]⟩
  | call name h =>
    obtain ⟨c, cs, hchars, hc⟩ := callName_head h
    exact ⟨c, cs, hchars, hc, fun _ => (hword c hc).1, by simp [(hword c hc).2, isOpening]⟩
  | euler => rcases hd.euler with he | he <;> rw [chars, he] <;> exact ⟨_, _, rfl, by decide⟩
  | pi => rcases hd.pi with hpi | hpi <;> rw [chars, hpi] <;> exact ⟨_, _, rfl, by decide⟩
  | times => exact ⟨_, _, rfl, by decide⟩
  | power => rcases hd.power with hp | hp <;> rw [chars, hp] <;> exact ⟨_, _, rfl, by decide⟩
  | mark m => cases m <;> exact ⟨_, _, rfl, by decide⟩

/-- What may stand behind a lexeme. -/
structure Follows (x : Lexeme) (cs : List Char) : Prop where
  word : x.isWord = true → Bounded cs
  star : x.isCall = true ∨ x.isStar = true → cs.head? ≠ some '*'

/-- What stands behind a word in a joined row follows it as it may. -/
theorem Joined.follows (hd : Plain d) (h : Joined (x :: row)) : Follows x (spell d row) := by
  cases row with
  | nil => exact ⟨fun _ c hc => by simp [spell] at hc, fun _ => by simp [spell]⟩
  | cons y row =>
    have hjoins : x.joins y = true := (List.isChain_cons_cons.mp h).1
    -- only the first character of the next lexeme counts
    obtain ⟨c, cs, hchars, hboundary, hstar, hopening⟩ := y.head hd
    simp only [Lexeme.joins, Bool.and_eq_true, Bool.or_eq_true, Bool.not_eq_true'] at hjoins
    obtain ⟨⟨hwords, hcall⟩, hstars⟩ := hjoins
    rw [spell_cons, hchars]
    constructor
    · intro hx c' hc'
      rw [List.cons_append, List.head?_cons, Option.some.injEq] at hc'
      rw [← hc', hboundary]
      simpa [hx] using hwords
    · intro hx
      rw [List.cons_append, List.head?_cons, Ne, Option.some.injEq]
      rcases hx with hx | hx
      · have hc : c = '(' := hopening.mpr (by simpa [hx] using hcall)
        rw [hc]
        decide
      · exact hstar (by simpa [hx] using hstars)

/-- A pass that takes every lexeme to its other spelling takes a row there. -/
theorem pass_spell {pass : List Char → List Char} (hd : Plain d) (hnil : pass [] = [])
    (hstep : ∀ x cs, Follows x cs → pass (x.chars d ++ cs) = x.chars d' ++ pass cs)
    (h : Joined row) : pass (spell d row) = spell d' row := by
  induction row with
  | nil => exact hnil
  | cons x row ih => rw [spell_cons, spell_cons, hstep x _ (h.follows hd), ih h.tail]

/-! ## Phrases -/

/-- A row that can stand between signs. -/
structure IsPhrase (row : List Lexeme) : Prop where
  joined : Joined row
  first : ∃ x, row.head? = some x ∧ x.isStar = false
  last : ∃ x, row.getLast? = some x ∧ x.isCall = false ∧ x.isStar = false

/-- A row in parentheses. -/
def parens (row : List Lexeme) : List Lexeme := .mark .opening :: (row ++ [.mark .closing])

/-- A lexeme that is no word is no call. -/
theorem Lexeme.isCall_of_sign (hx : x.isWord = false) : x.isCall = false := by
  cases x <;> simp_all [isWord, isCall]

/-- One lexeme that needs nothing behind it is a phrase. -/
theorem IsPhrase.single (hcall : x.isCall = false) (hstar : x.isStar = false) : IsPhrase [x] :=
  ⟨.singleton x, ⟨x, rfl, hstar⟩, ⟨x, rfl, hcall, hstar⟩⟩

/-- A phrase before one that starts with a sign. -/
theorem IsPhrase.append (h : IsPhrase row) (h' : IsPhrase row')
    (hsign : ∀ y, row'.head? = some y → y.isWord = false) : IsPhrase (row ++ row') := by
  obtain ⟨first, hfirst, hstar⟩ := h.first
  obtain ⟨last, hlast, hcall, hlaststar⟩ := h.last
  obtain ⟨last', hlast', hends⟩ := h'.last
  refine ⟨List.isChain_append.mpr ⟨h.joined, h'.joined, ?_⟩, ⟨first, ?_, hstar⟩, ⟨last', ?_, hends⟩⟩
  · intro x hx y hy
    rw [hlast, Option.mem_some_iff] at hx
    subst hx
    simp [Lexeme.joins, hsign y hy, hcall, hlaststar]
  · simp [hfirst]
  · simp [hlast']

/-- Two phrases with a sign between them. -/
theorem IsPhrase.around (h : IsPhrase row) (hx : x.isWord = false) (h' : IsPhrase row') :
    IsPhrase (row ++ x :: row') := by
  -- a sign is no word, so only the lexemes at the two seams have to be looked at
  obtain ⟨first, hfirst, hstar⟩ := h.first
  obtain ⟨last, hlast, hcall, hlaststar⟩ := h.last
  obtain ⟨first', hfirst', hstar'⟩ := h'.first
  obtain ⟨last', hlast', hends⟩ := h'.last
  have hbehind : Joined (x :: row') := by
    refine List.isChain_cons.mpr ⟨fun y hy => ?_, h'.joined⟩
    rw [hfirst', Option.mem_some_iff] at hy
    subst hy
    simp [Lexeme.joins, hx, Lexeme.isCall_of_sign hx, hstar']
  refine ⟨List.isChain_append.mpr ⟨h.joined, hbehind, ?_⟩, ⟨first, ?_, hstar⟩, ⟨last', ?_, hends⟩⟩
  · intro y hy z hz
    rw [hlast, Option.mem_some_iff] at hy
    rw [List.head?_cons, Option.mem_some_iff] at hz
    subst hy hz
    simp [Lexeme.joins, hx, hcall, hlaststar]
  · simp [hfirst]
  · simp [List.getLast?_cons, hlast']

/-- A mark in front of a phrase is a phrase. -/
theorem IsPhrase.after_mark (h : IsPhrase row) (m : Mark) : IsPhrase (.mark m :: row) := by
  obtain ⟨last, hlast, hends⟩ := h.last
  refine ⟨h.joined.cons fun y _ => ?_, ⟨.mark m, rfl, rfl⟩, ⟨last, ?_, hends⟩⟩
  · simp [Lexeme.joins, Lexeme.isWord, Lexeme.isCall, Lexeme.isStar]
  · simp [List.getLast?_cons, hlast]

/-- A phrase in parentheses is a phrase. -/
theorem IsPhrase.parens (h : IsPhrase row) : IsPhrase (parens row) := by
  have hclosing : IsPhrase [.mark .closing] := .single rfl rfl
  refine (h.append hclosing fun y hy => ?_).after_mark .opening
  rw [List.head?_cons, Option.some.injEq] at hy
  exact hy ▸ rfl

/-- The call of a name around a phrase is a phrase. -/
theorem IsPhrase.call (h : IsPhrase row) {name : String} (hname : name ∈ callNames) :
    IsPhrase (.call name hname :: Dialect.parens row) := by
  obtain ⟨last, hlast, hends⟩ := h.parens.last
  refine ⟨h.parens.joined.cons fun y hy => ?_, ⟨_, rfl, rfl⟩, ⟨last, ?_, hends⟩⟩
  · rw [Dialect.parens, List.head?_cons, Option.mem_some_iff] at hy
    subst hy
    rfl
  · simp [List.getLast?_cons, hlast]

end FormulaDesk.Dialect
