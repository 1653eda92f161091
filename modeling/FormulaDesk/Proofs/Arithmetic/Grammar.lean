import FormulaDesk.Proofs.Text.Classes
import Mathlib.Data.List.TakeWhile

/-! # The grammar of arithmetic

What an evaluable text says, by the usual precedence of operators: a sum of products of signed
powers. Sums and products associate to the left and powers to the right, a sign binds looser than
the power behind it, and the exponent of a power may have a sign of its own. The text has no blanks.

Each parser gives what it has parsed and what is left. Where one goes on with what another left,
that is asked to be `shortened`, which it always is behind a piece of text with anything in it.
-/

namespace FormulaDesk.Arithmetic

inductive Expr where
  /-- A decimal: the digits before the point and those behind it. -/
  | number (whole places : List Char)
  /-- A constant or a variable. -/
  | name (s : String)
  | call (f : String) (a : Expr)
  | call₂ (f : String) (a b : Expr)
  | neg (a : Expr)
  | add (a b : Expr)
  | sub (a b : Expr)
  | mul (a b : Expr)
  | div (a b : Expr)
  | pow (a b : Expr)
deriving DecidableEq, Repr, Inhabited

/-! ## Numbers and names -/

/-- A decimal. A whole part that starts with zero has no other digits. -/
def parseNumber (cs : List Char) : Option (Expr × List Char) :=
  let whole := cs.takeWhile Text.isAsciiDigit
  if whole.head? == some '0' && whole != ['0'] then none
  else match cs.dropWhile Text.isAsciiDigit with
    | '.' :: rest =>
      some (.number whole (rest.takeWhile Text.isAsciiDigit), rest.dropWhile Text.isAsciiDigit)
    | rest => some (.number whole [], rest)

/-- The characters of a name; a point stands between a name and what it belongs to. -/
def isNameChar (c : Char) : Bool :=
  Text.isAsciiLetter c || Text.isAsciiDigit c || c == '_' || c == '.'

/-! ## Operators -/

/-- A result that leaves less than `n` characters. -/
def shortened (n : Nat) :
    Option (Expr × List Char) → Option (Expr × { rest : List Char // rest.length < n })
  | some (a, rest) => if h : rest.length < n then some (a, ⟨rest, h⟩) else none
  | none => none

mutual

def parseSum (cs : List Char) : Option (Expr × List Char) := do
  let (first, ⟨rest, _⟩) ← shortened cs.length (parseProduct cs)
  parseTerms first rest
termination_by (cs.length, 5)

/-- The further terms of a sum. -/
def parseTerms (left : Expr) (cs : List Char) : Option (Expr × List Char) :=
  match cs with
  | '+' :: cs => do
    let (right, ⟨rest, _⟩) ← shortened cs.length (parseProduct cs)
    parseTerms (.add left right) rest
  | '-' :: cs => do
    let (right, ⟨rest, _⟩) ← shortened cs.length (parseProduct cs)
    parseTerms (.sub left right) rest
  | cs => some (left, cs)
termination_by (cs.length, 0)

def parseProduct (cs : List Char) : Option (Expr × List Char) := do
  let (first, ⟨rest, _⟩) ← shortened cs.length (parseSigned cs)
  parseFactors first rest
termination_by (cs.length, 4)

/-- The further factors of a product. -/
def parseFactors (left : Expr) (cs : List Char) : Option (Expr × List Char) :=
  match cs with
  | '*' :: cs => do
    let (right, ⟨rest, _⟩) ← shortened cs.length (parseSigned cs)
    parseFactors (.mul left right) rest
  | '/' :: cs => do
    let (right, ⟨rest, _⟩) ← shortened cs.length (parseSigned cs)
    parseFactors (.div left right) rest
  | cs => some (left, cs)
termination_by (cs.length, 0)

def parseSigned (cs : List Char) : Option (Expr × List Char) :=
  match cs with
  | '-' :: cs => do
    let (a, rest) ← parseSigned cs
    return (.neg a, rest)
  | cs => parsePower cs
termination_by (cs.length, 3)

def parsePower (cs : List Char) : Option (Expr × List Char) := do
  let (base, ⟨rest, _⟩) ← shortened cs.length (parseOperand cs)
  parseExponent base rest
termination_by (cs.length, 2)

/-- The exponent of a power, if there is one. -/
def parseExponent (base : Expr) (cs : List Char) : Option (Expr × List Char) :=
  match cs with
  | '*' :: '*' :: cs => do
    let (exponent, rest) ← parseSigned cs
    return (.pow base exponent, rest)
  | cs => some (base, cs)
termination_by (cs.length, 0)

/-- A number, a name, a call or what stands in parentheses. -/
def parseOperand (cs : List Char) : Option (Expr × List Char) :=
  match cs with
  | '(' :: cs => do
    let (a, rest) ← parseSum cs
    match rest with
    | ')' :: rest => return (a, rest)
    | _ => none
  | c :: cs =>
    if Text.isAsciiDigit c then parseNumber (c :: cs)
    else if Text.isAsciiLetter c then
      parseCall (String.ofList (c :: cs.takeWhile isNameChar)) (cs.dropWhile isNameChar)
    else none
  | [] => none
termination_by (cs.length, 1)
decreasing_by
  · simp only [Prod.lex_def, List.length_cons]
    omega
  · have := (List.dropWhile_suffix (l := cs) isNameChar).length_le
    simp only [Prod.lex_def, List.length_cons]
    omega

/-- What stands behind a name: the arguments of a call, or nothing. -/
def parseCall (f : String) (cs : List Char) : Option (Expr × List Char) :=
  match cs with
  | '(' :: cs => do
    let (a, ⟨rest, _⟩) ← shortened cs.length (parseSum cs)
    parseArguments f a rest
  | cs => some (.name f, cs)
termination_by (cs.length, 0)

/-- What stands behind the first argument of a call. -/
def parseArguments (f : String) (a : Expr) (cs : List Char) : Option (Expr × List Char) :=
  match cs with
  | ')' :: cs => some (.call f a, cs)
  | ',' :: cs => do
    let (b, rest) ← parseSum cs
    match rest with
    | ')' :: rest => return (.call₂ f a b, rest)
    | _ => none
  | _ => none
termination_by (cs.length, 0)

end

/-- The expression that a whole text is. -/
def Expr.ofString? (s : String) : Option Expr :=
  match parseSum s.toList with
  | some (a, []) => some a
  | _ => none

/-! ## Pieces of a text

What a piece of a text is parsed as, whatever follows it within reason: `rest` below never goes on
with the piece itself.
-/

/-- The text does not go on with a name, a number or a call. -/
def EndsName (rest : List Char) : Prop :=
  ∀ c, rest.head? = some c → isNameChar c = false ∧ c ≠ '('

/-- The text goes on with no power either. -/
structure EndsPower (rest : List Char) : Prop where
  name : EndsName rest
  power : ∀ cs, rest ≠ '*' :: '*' :: cs

/-- The piece needs no parentheses as the base of a power. -/
def IsOperand (s : List Char) (a : Expr) : Prop :=
  ∀ rest, EndsName rest → parseOperand (s ++ rest) = some (a, rest)

/-- The piece needs no parentheses as a factor. -/
def IsFactor (s : List Char) (a : Expr) : Prop :=
  ∀ rest, EndsPower rest → parseSigned (s ++ rest) = some (a, rest)

/-- The piece is a product, or the start of one. -/
def IsProduct (s : List Char) (a : Expr) : Prop :=
  ∀ rest, EndsPower rest → parseProduct (s ++ rest) = parseFactors a rest

/-- The piece is a sum, or the start of one. -/
def IsSum (s : List Char) (a : Expr) : Prop :=
  ∀ rest, EndsPower rest → (∀ c, rest.head? = some c → c ≠ '*' ∧ c ≠ '/') →
    parseSum (s ++ rest) = parseTerms a rest

variable {s s' : List Char} {a b : Expr}

/-- The parsers carry the proof that they have taken something. It does not change what they
return. -/
theorem shortened_some {n : Nat} {rest : List Char} (h : rest.length < n) :
    shortened n (some (a, rest)) = some (a, ⟨rest, h⟩) := by
  simp [shortened, h]

theorem endsPower_nil : EndsPower [] :=
  ⟨fun c h => by simp at h, fun cs h => by simp at h⟩

theorem parseOperand_nil : parseOperand [] = none := by rw [parseOperand]

theorem parseSigned_nil : parseSigned [] = none := by
  rw [parseSigned, parsePower, parseOperand_nil]
  · rfl
  · simp

theorem parseProduct_nil : parseProduct [] = none := by
  rw [parseProduct, parseSigned_nil]
  rfl

theorem parseSum_nil : parseSum [] = none := by
  rw [parseSum, parseProduct_nil]
  rfl

theorem parseFactors_nil : parseFactors a [] = some (a, []) := by rw [parseFactors] <;> simp

theorem parseTerms_nil : parseTerms a [] = some (a, []) := by rw [parseTerms] <;> simp

/-- What is left is shorter when something was taken. -/
theorem length_lt_append (hs : s ≠ []) (rest : List Char) : rest.length < (s ++ rest).length := by
  have := List.length_pos_iff.mpr hs
  rw [List.length_append]
  omega

/-- An operand takes at least one character. -/
theorem IsOperand.shortens (h : IsOperand s a) (rest : List Char) :
    rest.length < (s ++ rest).length := by
  refine length_lt_append ?_ rest
  rintro rfl
  have := h [] endsPower_nil.name
  rw [List.append_nil, parseOperand_nil] at this
  simp at this

/-- A factor takes at least one character. -/
theorem IsFactor.shortens (h : IsFactor s a) (rest : List Char) :
    rest.length < (s ++ rest).length := by
  refine length_lt_append ?_ rest
  rintro rfl
  have := h [] endsPower_nil
  rw [List.append_nil, parseSigned_nil] at this
  simp at this

/-- A product takes at least one character. -/
theorem IsProduct.shortens (h : IsProduct s a) (rest : List Char) :
    rest.length < (s ++ rest).length := by
  refine length_lt_append ?_ rest
  rintro rfl
  have := h [] endsPower_nil
  rw [List.append_nil, parseProduct_nil, parseFactors_nil] at this
  simp at this

/-- A sum takes at least one character. -/
theorem IsSum.shortens (h : IsSum s a) (rest : List Char) :
    rest.length < (s ++ rest).length := by
  refine length_lt_append ?_ rest
  rintro rfl
  have := h [] endsPower_nil (by simp)
  rw [List.append_nil, parseSum_nil, parseTerms_nil] at this
  simp at this

/-- An operand has no sign before it. -/
theorem parseSigned_eq_parsePower {cs rest : List Char} (h : parseOperand cs = some (a, rest)) :
    parseSigned cs = parsePower cs := by
  rw [parseSigned]
  rintro cs rfl
  have hminus : parseOperand ('-' :: cs) = none := by
    rw [parseOperand]
    · rfl
    · simp
  rw [hminus] at h
  simp at h

/-- An operand with no power behind it is the power itself. -/
theorem IsOperand.parsePower (h : IsOperand s a) {rest : List Char} (hrest : EndsName rest) :
    parsePower (s ++ rest) = parseExponent a rest := by
  rw [Arithmetic.parsePower, h rest hrest, shortened_some (h.shortens rest)]
  rfl

/-- Each level of the grammar holds the ones below it. -/
theorem IsOperand.isFactor (h : IsOperand s a) : IsFactor s a := by
  intro rest hrest
  rw [parseSigned_eq_parsePower (h rest hrest.name), h.parsePower hrest.name, parseExponent]
  rintro cs rfl
  exact hrest.power cs rfl

/-- A factor is a product of one. -/
theorem IsFactor.isProduct (h : IsFactor s a) : IsProduct s a := by
  intro rest hrest
  rw [parseProduct, h rest hrest, shortened_some (h.shortens rest)]
  rfl

/-- A product is over where no further factor comes. -/
theorem IsProduct.last (h : IsProduct s a) {rest : List Char} (hrest : EndsPower rest)
    (hfactor : ∀ c, rest.head? = some c → c ≠ '*' ∧ c ≠ '/') :
    parseProduct (s ++ rest) = some (a, rest) := by
  rw [h rest hrest, parseFactors]
  · rintro cs rfl
    exact (hfactor _ rfl).1 rfl
  · rintro cs rfl
    exact (hfactor _ rfl).2 rfl

/-- A product is a sum of one. -/
theorem IsProduct.isSum (h : IsProduct s a) : IsSum s a := by
  intro rest hrest hfactor
  rw [parseSum, h.last hrest hfactor, shortened_some (h.shortens rest)]
  rfl

/-! ## How pieces are put together -/

/-- A character that neither goes on with a name nor calls it ends the name. -/
theorem endsName_cons {c : Char} (hname : isNameChar c = false) (hcall : c ≠ '(')
    {rest : List Char} : EndsName (c :: rest) := by
  intro d hd
  simp only [List.head?_cons, Option.some.injEq] at hd
  exact hd ▸ ⟨hname, hcall⟩

/-- One that starts no power either ends the whole operand. -/
theorem endsPower_cons {c : Char} (hname : isNameChar c = false) (hcall : c ≠ '(')
    (hstar : c ≠ '*') {rest : List Char} : EndsPower (c :: rest) := by
  refine ⟨endsName_cons hname hcall, fun cs h => ?_⟩
  simp only [List.cons.injEq] at h
  exact hstar h.1

/-- A sum is over where a parenthesis closes or a comma stands. -/
theorem IsSum.closed (h : IsSum s a) {c : Char} (hc : c = ')' ∨ c = ',') (rest : List Char) :
    parseSum (s ++ c :: rest) = some (a, c :: rest) := by
  have hends : EndsPower (c :: rest) := by
    rcases hc with rfl | rfl <;> exact endsPower_cons (by decide) (by decide) (by decide)
  rw [h (c :: rest) hends ?_]
  · rw [parseTerms]
    · rintro cs ⟨⟩
      simp at hc
    · rintro cs ⟨⟩
      simp at hc
  · intro d hd
    simp only [List.head?_cons, Option.some.injEq] at hd
    subst hd
    rcases hc with rfl | rfl <;> decide

/-- Parentheses make an operand of any expression. -/
theorem IsSum.parens (h : IsSum s a) : IsOperand ('(' :: (s ++ [')'])) a := by
  intro rest _
  have := h.closed (Or.inl rfl) rest
  simp [parseOperand, this]

/-- A text that is an expression to its end is parsed as it. -/
theorem IsSum.ofString? (h : IsSum s a) : Expr.ofString? (String.ofList s) = some a := by
  have := h [] endsPower_nil (by simp)
  rw [List.append_nil, parseTerms_nil] at this
  simp [Expr.ofString?, this]

/-- A factor does not start with a star. -/
theorem IsFactor.no_star (h : IsFactor s a) {rest : List Char} (hrest : EndsPower rest)
    (cs : List Char) : s ++ rest ≠ '*' :: cs := by
  intro hstar
  have hsome := h rest hrest
  have hnone : parseSigned ('*' :: cs) = none := by
    rw [parseSigned, parsePower, parseOperand]
    · rfl
    · simp
    · simp
  rw [hstar, hnone] at hsome
  simp at hsome

/-- Products associate to the left: the operand to the right is a single factor. -/
theorem IsProduct.times (h : IsProduct s a) (h' : IsFactor s' b) :
    IsProduct (s ++ '*' :: s') (.mul a b) := by
  intro rest hrest
  -- one star and a factor are no power, since no factor starts with a star
  have hends : EndsPower ('*' :: (s' ++ rest)) := by
    refine ⟨endsName_cons (by decide) (by decide), fun cs hcs => ?_⟩
    simp only [List.cons.injEq, true_and] at hcs
    exact h'.no_star hrest cs hcs
  rw [List.append_assoc, List.cons_append, h _ hends, parseFactors, h' rest hrest,
    shortened_some (h'.shortens rest)]
  rfl

/-- A quotient of a product by a factor is a product. -/
theorem IsProduct.over (h : IsProduct s a) (h' : IsFactor s' b) :
    IsProduct (s ++ '/' :: s') (.div a b) := by
  intro rest hrest
  have hends : EndsPower ('/' :: (s' ++ rest)) :=
    endsPower_cons (by decide) (by decide) (by decide)
  rw [List.append_assoc, List.cons_append, h _ hends, parseFactors, h' rest hrest,
    shortened_some (h'.shortens rest)]
  rfl

/-- A minus in front of a factor is a factor. -/
theorem IsFactor.neg (h : IsFactor s a) : IsFactor ('-' :: s) (.neg a) := by
  intro rest hrest
  rw [List.cons_append, parseSigned, h rest hrest]
  rfl

/-- Sums associate to the left as well. -/
theorem IsSum.plus (h : IsSum s a) (h' : IsProduct s' b) : IsSum (s ++ '+' :: s') (.add a b) := by
  intro rest hrest hfactor
  have hends : EndsPower ('+' :: (s' ++ rest)) :=
    endsPower_cons (by decide) (by decide) (by decide)
  rw [List.append_assoc, List.cons_append, h _ hends (by simp), parseTerms,
    h'.last hrest hfactor, shortened_some (h'.shortens rest)]
  rfl

/-- A difference of a sum and a product is a sum. -/
theorem IsSum.minus (h : IsSum s a) (h' : IsProduct s' b) : IsSum (s ++ '-' :: s') (.sub a b) := by
  intro rest hrest hfactor
  have hends : EndsPower ('-' :: (s' ++ rest)) :=
    endsPower_cons (by decide) (by decide) (by decide)
  rw [List.append_assoc, List.cons_append, h _ hends (by simp), parseTerms,
    h'.last hrest hfactor, shortened_some (h'.shortens rest)]
  rfl

/-- A power with its exponent in parentheses. -/
theorem IsOperand.raised (h : IsOperand s a) (h' : IsSum s' b) :
    IsFactor (s ++ '*' :: '*' :: '(' :: (s' ++ [')'])) (.pow a b) := by
  intro rest hrest
  -- in its parentheses the exponent needs no more than what ends a factor
  have hexponent := h'.parens.isFactor rest hrest
  have hends : EndsName ('*' :: '*' :: '(' :: (s' ++ [')']) ++ rest) :=
    endsName_cons (by decide) (by decide)
  rw [List.append_assoc, parseSigned_eq_parsePower (h _ hends), h.parsePower hends]
  simp only [List.cons_append] at hexponent ⊢
  rw [parseExponent, hexponent]
  rfl

/-! ## Numbers, names and calls -/

/-- A run is taken up to the first character that is not accepted, and no further. -/
theorem takeWhile_append_of_ends {accept : Char → Bool} {run rest : List Char}
    (hrun : ∀ c ∈ run, accept c = true) (hrest : ∀ c, rest.head? = some c → accept c = false) :
    (run ++ rest).takeWhile accept = run ∧ (run ++ rest).dropWhile accept = rest := by
  have hnil : rest.takeWhile accept = [] ∧ rest.dropWhile accept = rest := by
    cases rest with
    | nil => exact ⟨rfl, rfl⟩
    | cons c rest => simp [hrest c rfl]
  rw [List.takeWhile_append_of_pos hrun, List.dropWhile_append_of_pos hrun, hnil.1, hnil.2]
  simp

/-- A name starts with a letter. -/
structure IsName (f : List Char) : Prop where
  starts : ∃ c cs, f = c :: cs ∧ Text.isAsciiLetter c = true
  goesOn : ∀ c ∈ f, isNameChar c = true

/-- A name is taken whole, and then it is seen whether it is called. -/
theorem IsName.parse {f : List Char} (h : IsName f) {rest : List Char}
    (hrest : ∀ c, rest.head? = some c → isNameChar c = false) :
    parseOperand (f ++ rest) = parseCall (String.ofList f) rest := by
  obtain ⟨c, cs, rfl, hletter⟩ := h.starts
  obtain ⟨htake, hdrop⟩ := takeWhile_append_of_ends
    (fun d hd => h.goesOn d (List.mem_cons_of_mem c hd)) hrest
  -- a name is no number
  have hdigit : Text.isAsciiDigit c = false := by
    by_contra hdigit
    have := (Text.classes_of_isAsciiDigit (by simpa using hdigit)).2.1
    rw [(Text.classes_of_isAsciiLetter hletter).1] at this
    simp at this
  rw [List.cons_append, parseOperand, htake, hdrop]
  · simp [hdigit, hletter]
  · rintro rfl
    exact absurd hletter (by decide)

/-- A name that is not called is an operand. -/
theorem IsName.isOperand {f : List Char} (h : IsName f) :
    IsOperand f (.name (String.ofList f)) := by
  intro rest hrest
  rw [h.parse fun c hc => (hrest c hc).1, parseCall]
  rintro cs rfl
  exact (hrest '(' rfl).2 rfl

/-- A call goes on behind its first argument. -/
theorem IsName.parse_call {f : List Char} (hf : IsName f) (h : IsSum s a) {c : Char}
    (hc : c = ')' ∨ c = ',') (rest : List Char) :
    parseOperand (f ++ '(' :: (s ++ c :: rest))
      = parseArguments (String.ofList f) a (c :: rest) := by
  rw [hf.parse (by simp [isNameChar, Text.isAsciiLetter, Text.isAsciiDigit]), parseCall,
    h.closed hc rest, shortened_some (h.shortens _)]
  rfl

/-- A call with one argument. -/
theorem IsName.call {f : List Char} (hf : IsName f) (h : IsSum s a) :
    IsOperand (f ++ '(' :: (s ++ [')'])) (.call (String.ofList f) a) := by
  intro rest _
  rw [List.append_assoc, List.cons_append, List.append_assoc, List.singleton_append,
    hf.parse_call h (Or.inl rfl), parseArguments]

/-- A call with two arguments. -/
theorem IsName.call₂ {f : List Char} (hf : IsName f) (h : IsSum s a) (h' : IsSum s' b) :
    IsOperand (f ++ '(' :: (s ++ ',' :: (s' ++ [')']))) (.call₂ (String.ofList f) a b) := by
  intro rest _
  have hlist : f ++ '(' :: (s ++ ',' :: (s' ++ [')'])) ++ rest
      = f ++ '(' :: (s ++ ',' :: (s' ++ ')' :: rest)) := by simp
  rw [hlist, hf.parse_call h (Or.inr rfl), parseArguments, h'.closed (Or.inl rfl) rest]
  rfl

/-- A whole part as it is written: without superfluous zeros before it. -/
structure IsWhole (whole : List Char) : Prop where
  nonempty : whole ≠ []
  digits : ∀ c ∈ whole, Text.isAsciiDigit c = true
  plain : whole.head? = some '0' → whole = ['0']

/-- The whole part of a number has no leading zero. -/
theorem IsWhole.no_zero {whole : List Char} (h : IsWhole whole) :
    (whole.head? == some '0' && whole != ['0']) = false := by
  by_cases hhead : whole.head? = some '0'
  · simp [h.plain hhead]
  · simp [hhead]

/-- A digit in front makes an operand a number. -/
theorem IsWhole.parse {whole : List Char} (h : IsWhole whole) (cs : List Char) :
    parseOperand (whole ++ cs) = parseNumber (whole ++ cs) := by
  obtain ⟨d, ds, rfl⟩ := List.exists_cons_of_ne_nil h.nonempty
  have hd : Text.isAsciiDigit d = true := h.digits d List.mem_cons_self
  rw [List.cons_append, parseOperand]
  · simp [hd]
  · rintro rfl
    exact absurd hd (by decide)

/-- What ends a name ends a number. -/
theorem EndsName.ends_number {rest : List Char} (h : EndsName rest) :
    ∀ c, rest.head? = some c → Text.isAsciiDigit c = false ∧ c ≠ '.' := by
  intro c hc
  have hname := (h c hc).1
  simp only [isNameChar, Bool.or_eq_false_iff, beq_eq_false_iff_ne] at hname
  exact ⟨hname.1.1.2, hname.2⟩

/-- A whole number. -/
theorem IsWhole.isOperand {whole : List Char} (h : IsWhole whole) :
    IsOperand whole (.number whole []) := by
  intro rest hrest
  obtain ⟨htake, hdrop⟩ := takeWhile_append_of_ends h.digits fun c hc => (hrest.ends_number c hc).1
  rw [h.parse]
  simp only [parseNumber, htake, hdrop, h.no_zero, Bool.false_eq_true, if_false]
  split
  · next more => exact absurd rfl (hrest.ends_number '.' rfl).2
  · rfl

/-- A number with decimal places, of which there may be none behind the point. -/
theorem IsWhole.isOperand_places {whole places : List Char} (h : IsWhole whole)
    (hplaces : ∀ c ∈ places, Text.isAsciiDigit c = true) :
    IsOperand (whole ++ '.' :: places) (.number whole places) := by
  intro rest hrest
  -- the point ends the digits before it, and `rest` those behind it
  have hpoint : ∀ c, ('.' :: (places ++ rest)).head? = some c → Text.isAsciiDigit c = false := by
    simp [Text.isAsciiDigit]
  obtain ⟨htake, hdrop⟩ := takeWhile_append_of_ends h.digits hpoint
  obtain ⟨htake', hdrop'⟩ :=
    takeWhile_append_of_ends hplaces fun c hc => (hrest.ends_number c hc).1
  rw [List.append_assoc, List.cons_append, h.parse]
  simp only [parseNumber, htake, hdrop, h.no_zero, Bool.false_eq_true, if_false, htake', hdrop']

end FormulaDesk.Arithmetic
