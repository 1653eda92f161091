import FormulaDesk.Proofs.Reading.Adequacy

/-! # Well-nested tokens read the same in every place

Siblings inside a group are read with the closers of all groups around them as stops, and with the
tokens of those groups still to come. For well-nested tokens none of this matters:

* `WellNested`: every bracket among the tokens has its partner;
* `ReadsSiblings.anywhere`: a reading of well-nested tokens that does not meet the nesting limit
  ends exactly where they end, and is the same reading before any other stop, among any other
  closers and with any more levels of room.
-/

namespace FormulaDesk.Markup

/-! ## Well-nested tokens -/

/-- Any token but the brackets, `\left` and `\right`. -/
def Token.isOrdinary : Token → Bool
  | .char c => !(['{', '}', '(', ')', '[', ']'].contains c)
  | .command name => !(["\x7b", "\x7d", "left", "right"].contains name)

/-- Brackets come in pairs. The delimiters of `\left` and `\right` are any tokens whatever. -/
inductive WellNested : List Token → Prop
  | nil : WellNested []
  | token {t m} (ht : t.isOrdinary = true) (h : WellNested m) : WellNested (t :: m)
  | braces {inner m} (hi : WellNested inner) (h : WellNested m) :
      WellNested (.char '{' :: (inner ++ .char '}' :: m))
  | parens {inner m} (hi : WellNested inner) (h : WellNested m) :
      WellNested (.char '(' :: (inner ++ .char ')' :: m))
  | brackets {inner m} (hi : WellNested inner) (h : WellNested m) :
      WellNested (.char '[' :: (inner ++ .char ']' :: m))
  | sets {inner m} (hi : WellNested inner) (h : WellNested m) :
      WellNested (.command "\x7b" :: (inner ++ .command "\x7d" :: m))
  | delimited {d d' inner m} (hi : WellNested inner) (h : WellNested m) :
      WellNested (.command "left" :: d :: (inner ++ .command "right" :: d' :: m))

variable {stops : Stops} {room : Nat} {single : Bool} {t : Token} {m ts u rest after : List Token}
  {acc nodes : List Node} {node : Node}

/-- An ordinary token closes nothing. -/
theorem closer?_eq_none_of_ordinary (h : t.isOrdinary = true) : t.closer? = none := by
  unfold Token.closer?
  split <;> first | rfl | exact absurd h (by decide)

/-- No closer comes before its opener. -/
theorem WellNested.head_closer? (h : WellNested (t :: m)) : t.closer? = none := by
  cases h with
  | token ht _ => exact closer?_eq_none_of_ordinary ht
  | braces => rfl
  | parens => rfl
  | brackets => rfl
  | sets => rfl
  | delimited => rfl

/-- Well nested tokens stay so without an ordinary one in front. -/
theorem WellNested.tail (h : WellNested (t :: m)) (ht : t.isOrdinary = true) : WellNested m := by
  cases h with
  | token _ h => exact h
  | braces => exact absurd ht (by decide)
  | parens => exact absurd ht (by decide)
  | brackets => exact absurd ht (by decide)
  | sets => exact absurd ht (by decide)
  | delimited => exact absurd ht (by decide)

/-- The `\right` that belongs to the first `\left`, with well nested tokens between the two and
behind. -/
theorem WellNested.of_left (h : WellNested (.command "left" :: m)) :
    ∃ d inner d' m', m = d :: (inner ++ .command "right" :: d' :: m') ∧ WellNested inner ∧
      WellNested m' := by
  generalize hts : Token.command "left" :: m = ts at h
  cases h with
  | token ht _ =>
    simp only [List.cons.injEq] at hts
    exact absurd ht (by rw [← hts.1]; decide)
  | delimited hi hm =>
    simp only [List.cons.injEq, true_and] at hts
    exact ⟨_, _, _, _, hts, hi, hm⟩
  | _ => simp at hts

/-- The closing brace that belongs to the first escaped brace. -/
theorem WellNested.of_set (h : WellNested (.command "\x7b" :: m)) :
    ∃ inner m', m = inner ++ .command "\x7d" :: m' ∧ WellNested inner ∧ WellNested m' := by
  generalize hts : Token.command "\x7b" :: m = ts at h
  cases h with
  | token ht _ =>
    simp only [List.cons.injEq] at hts
    exact absurd ht (by rw [← hts.1]; decide)
  | sets hi hm =>
    simp only [List.cons.injEq, true_and] at hts
    exact ⟨_, _, hts, hi, hm⟩
  | _ => simp at hts

/-- A command that opens nothing can be dropped from the front. -/
theorem WellNested.tail_command {name : String} (h : WellNested (.command name :: m))
    (hleft : name ≠ "left") (hset : name ≠ "\x7b") : WellNested m := by
  generalize hts : Token.command name :: m = ts at h
  cases h with
  | token _ hm =>
    simp only [List.cons.injEq] at hts
    exact hts.2 ▸ hm
  | sets => simp_all
  | delimited => simp_all
  | _ => simp at hts

/-- A character that opens nothing can be taken off well-nested markup. -/
theorem WellNested.tail_char {c : Char} (h : WellNested (.char c :: m))
    (hopen : c ≠ '{' ∧ c ≠ '(' ∧ c ≠ '[') : WellNested m := by
  cases h with
  | token _ hm => exact hm
  | braces => exact absurd rfl hopen.1
  | parens => exact absurd rfl hopen.2.1
  | brackets => exact absurd rfl hopen.2.2

/-- Letters, digits, points and blanks open and close nothing. -/
theorem isOrdinary_of_not_bracket {c : Char} (h : Text.isLetter c = true ∨ isNumberChar c = true ∨
    Text.isBlank c = true ∨ isFactorChar c = true) : (Token.char c).isOrdinary = true := by
  have hbracket : ∀ d ∈ ['{', '}', '(', ')', '[', ']'], Text.isLetter d = false ∧
      isNumberChar d = false ∧ Text.isBlank d = false ∧ isFactorChar d = false := by
    intro d hd
    simp only [List.mem_cons, List.not_mem_nil, or_false] at hd
    rcases hd with rfl | rfl | rfl | rfl | rfl | rfl <;> decide
  simp only [Token.isOrdinary, List.contains_eq_mem, Bool.not_eq_true', decide_eq_false_iff_not]
  intro hmem
  have := hbracket c hmem
  simp_all

/-- A blank is ordinary. -/
theorem isOrdinary_of_isBlank (h : t.isBlank = true) : t.isOrdinary = true := by
  cases t with
  | command name => exact absurd h (by simp [Token.isBlank])
  | char c => exact isOrdinary_of_not_bracket (Or.inr (Or.inr (Or.inl h)))

/-- Skipping blanks does not tear a pair apart. -/
theorem wellNested_skipBlanks (h : WellNested m) : WellNested (skipBlanks m) := by
  induction m with
  | nil => exact h
  | cons t m ih =>
    by_cases hblank : t.isBlank = true
    · have hskip : skipBlanks (t :: m) = skipBlanks m := by
        simp [skipBlanks, hblank]
      rw [hskip]
      exact ih (h.tail (isOrdinary_of_isBlank hblank))
    · have hskip : skipBlanks (t :: m) = t :: m := by simp [skipBlanks, hblank]
      rwa [hskip]

/-- Taking a run does not tear a pair apart. -/
theorem wellNested_takeRun {accept : Char → Bool} (h : WellNested m)
    (haccept : ∀ c, accept c = true → (Token.char c).isOrdinary = true) :
    WellNested (takeRun accept m).2 := by
  induction m with
  | nil => exact h
  | cons t m ih =>
    cases t with
    | command name => exact h
    | char c =>
      unfold takeRun
      split
      · next hc => exact ih (h.tail (haccept c hc))
      · exact h

/-! ## What follows well-nested tokens -/

/-- Nothing, or a token that ends the siblings. -/
def AtStop (stops : Stops) (u : List Token) : Prop :=
  u = [] ∨ ∃ t rest, u = t :: rest ∧ t.stops stops = true

theorem AtStop.cons {closer : Closer} (h : t.closer? = some closer) (hmem : closer ∈ stops) :
    AtStop stops (t :: rest) :=
  Or.inr ⟨t, rest, rfl, by simp [Token.stops, h, hmem]⟩

/-- A stop is a closer. -/
theorem AtStop.head_closer? (h : AtStop stops (t :: rest)) : t.closer? ≠ none := by
  rcases h with h | ⟨t', rest', h, hstop⟩
  · simp at h
  · simp only [List.cons.injEq] at h
    intro hnone
    rw [← h.1] at hstop
    simp [Token.stops, hnone] at hstop

/-- At a stop the reader sees a token it stops at. -/
theorem AtStop.head_stops (h : AtStop stops (t :: rest)) : t.stops stops = true := by
  rcases h with h | ⟨t', rest', h, hstop⟩
  · simp at h
  · simp only [List.cons.injEq] at h
    exact h.1 ▸ hstop

/-- Siblings end at a stop without reading anything. -/
theorem AtStop.siblings {flat : Prop} (h : AtStop stops u) :
    ReadsSiblings flat stops room acc u acc.reverse u := by
  rcases h with rfl | ⟨t, rest, rfl, hstop⟩
  · exact .finish
  · exact .stop hstop

/-- A closing token is no blank. -/
theorem not_blank_of_closer (h : t.closer? ≠ none) : t.isBlank = false := by
  unfold Token.closer? at h
  split at h <;> first | rfl | decide | exact absurd rfl h

theorem skipBlanks_cons (h : t.isBlank = false) : skipBlanks (t :: ts) = t :: ts := by
  simp [skipBlanks, h]

/-- No closer is a blank, so blanks are skipped up to the stop and not beyond it. -/
theorem skipBlanks_atStop (h : AtStop stops u) : skipBlanks u = u := by
  cases u with
  | nil => rfl
  | cons t rest => exact skipBlanks_cons (not_blank_of_closer h.head_closer?)

/-- What stands behind the stop has no part in the skipping. -/
theorem skipBlanks_append_atStop (h : AtStop stops u) :
    skipBlanks (m ++ u) = skipBlanks m ++ u := by
  induction m with
  | nil => exact skipBlanks_atStop h
  | cons t m ih =>
    by_cases hblank : t.isBlank = true
    · simpa [skipBlanks, hblank] using ih
    · simp [skipBlanks, hblank]

/-- Where only blanks are left before the stop, the operand is missing. -/
theorem AtStop.atom {flat : Prop} (h : AtStop stops u) (hskip : skipBlanks m = []) :
    ReadsAtom flat stops room single (m ++ u) (.group []) u := by
  have hu : skipBlanks (m ++ u) = u := by rw [skipBlanks_append_atStop h, hskip, List.nil_append]
  rcases h with rfl | ⟨t, rest, rfl, hstop⟩
  · exact .missing hu
  · exact .ended hu (by simp [Token.endsOperand, hstop])

/-- A run ends at the stop at the latest. -/
theorem takeRun_append_atStop {accept : Char → Bool} (h : AtStop stops u)
    (haccept : ∀ c, accept c = true → (Token.char c).isOrdinary = true) :
    takeRun accept (m ++ u) = ((takeRun accept m).1, (takeRun accept m).2 ++ u) := by
  induction m with
  | nil =>
    cases u with
    | nil => rfl
    | cons t rest =>
      cases t with
      | command name => rfl
      | char c =>
        have hc : accept c = false := by
          by_contra hc
          have := haccept c (by simpa using hc)
          exact h.head_closer? (closer?_eq_none_of_ordinary this)
        simp [takeRun, hc]
  | cons t m ih =>
    cases t with
    | command name => rfl
    | char c =>
      by_cases hc : accept c = true
      · simp [takeRun, hc, ih]
      · simp [takeRun, hc]

/-- A token that closes nothing is no stop, whatever is open. -/
theorem stops_eq_false_of_closer (h : t.closer? = none) : t.stops stops = false := by
  simp [Token.stops, h]

/-- Only a closing token, or a separator, leaves an operand missing. -/
theorem endsOperand_eq_false_of_closer (h : t.closer? = none) : t.endsOperand stops = false := by
  simp [Token.endsOperand, Token.stops, h]

/-- Where an operand can begin, siblings do not end. -/
theorem stops_of_endsOperand (h : t.endsOperand stops = false) : t.stops stops = false := by
  simp only [Token.endsOperand, Bool.or_eq_false_iff] at h
  exact h.1.1

/-- A token that is no stop belongs to the well-nested tokens before one. -/
theorem AtStop.split (h : AtStop stops u) (heq : t :: ts = m ++ u)
    (hstop : t.stops stops = false) : ∃ m', m = t :: m' ∧ ts = m' ++ u := by
  cases m with
  | nil =>
    rw [List.nil_append] at heq
    rw [← heq] at h
    rw [h.head_stops] at hstop
    simp at hstop
  | cons t' m' =>
    simp only [List.cons_append, List.cons.injEq] at heq
    exact ⟨m', by rw [heq.1], heq.2⟩

/-- A token that is no closer either belongs to the tokens before a stop or does not come next. -/
theorem AtStop.head_append (hu : AtStop stops u) (ht : t.closer? = none) :
    (m ++ u).head? = some t ↔ m.head? = some t := by
  cases m with
  | cons t' m => rfl
  | nil =>
    cases u with
    | nil => rfl
    | cons t' rest =>
      simp only [List.nil_append, List.head?_cons, List.head?_nil, Option.some.injEq,
        reduceCtorEq, iff_false]
      rintro rfl
      exact hu.head_closer? ht

/-- Blanks and then a token that is no closer come from before the stop. -/
theorem AtStop.skip_split (hu : AtStop stops u) (hm : WellNested m)
    (hskip : skipBlanks (m ++ u) = t :: rest) (ht : t.closer? = none) :
    ∃ m', skipBlanks m = t :: m' ∧ rest = m' ++ u ∧ WellNested (t :: m') := by
  rw [skipBlanks_append_atStop hu] at hskip
  obtain ⟨m', hm', hrest⟩ := hu.split hskip.symm (stops_eq_false_of_closer ht)
  exact ⟨m', hm', hrest, hm' ▸ wellNested_skipBlanks hm⟩

/-- At a stop a function has no argument. -/
theorem AtStop.argument {flat : Prop} (hu : AtStop stops u) :
    ReadsArgument flat stops room u none u := by
  rcases hu with rfl | ⟨t, rest, rfl, hstop⟩
  · exact .missing
  · exact .ended hstop

/-! ## Readings that do not depend on the place -/

/-- Siblings that read to the same nodes before any stop, with at least this much room. -/
def SiblingsAnywhere (room : Nat) (acc : List Node) (m : List Token) (nodes : List Node) : Prop :=
  ∀ stops u room', AtStop stops u → room ≤ room' →
    ReadsSiblings False stops room' acc (m ++ u) nodes u

/-- An operand that reads to the same node before any stop, leaving `m'`. -/
def AtomAnywhere (room : Nat) (single : Bool) (m : List Token) (node : Node) (m' : List Token) :
    Prop :=
  ∀ stops u room', AtStop stops u → room ≤ room' →
    ReadsAtom False stops room' single (m ++ u) node (m' ++ u)

def NestedAnywhere (room : Nat) (single : Bool) (t : Token) (m : List Token) (node : Node)
    (m' : List Token) : Prop :=
  ∀ stops u room', AtStop stops u → room ≤ room' →
    ReadsNested False stops room' single t (m ++ u) node (m' ++ u)

def FunctionAnywhere (room : Nat) (fn : Fn) (script power : Option Node) (m : List Token)
    (node : Node) (m' : List Token) : Prop :=
  ∀ stops u room', AtStop stops u → room ≤ room' →
    ReadsFunction False stops room' fn script power (m ++ u) node (m' ++ u)

def ArgumentAnywhere (room : Nat) (m : List Token) (argument : Option Node) (m' : List Token) :
    Prop :=
  ∀ stops u room', AtStop stops u → room ≤ room' →
    ReadsArgument False stops room' (m ++ u) argument (m' ++ u)

def FactorsAnywhere (room : Nat) (acc : List Node) (m : List Token) (nodes : List Node)
    (m' : List Token) : Prop :=
  ∀ stops u room', AtStop stops u → room ≤ room' →
    ReadsFactors False stops room' acc (m ++ u) nodes (m' ++ u)

/-- A command without a construct of its own opens nothing. -/
theorem ne_of_not_structured {name : String} (h : isStructured name = false) :
    name ≠ "left" ∧ name ≠ "\x7b" := by
  constructor <;> rintro rfl <;> exact absurd h (by decide)

/-- The closer that is waited for is taken. -/
theorem expect_cons {closer : Closer} (h : t.closer? = some closer) :
    expect closer (t :: rest) = rest := by
  simp [expect, h]

/-- A group is read to its own closer, whatever the closers around it. -/
theorem group_anywhere {closer : Closer} {close : Token} {inner : List Token}
    (ih : ∀ m u, ts = m ++ u → WellNested m → AtStop (closer :: stops) u →
      after = u ∧ SiblingsAnywhere room [] m nodes)
    (hts : ts = inner ++ close :: m ++ u) (hi : WellNested inner)
    (hclose : close.closer? = some closer) :
    after = close :: (m ++ u) ∧ ∀ stops' u' room', room ≤ room' →
      ReadsSiblings False (closer :: stops') room' [] (inner ++ close :: m ++ u') nodes
        (close :: (m ++ u')) := by
  obtain ⟨hafter, hany⟩ := ih inner (close :: (m ++ u)) (by simp [hts]) hi
    (AtStop.cons hclose List.mem_cons_self)
  refine ⟨hafter, fun stops' u' room' hroom => ?_⟩
  rw [List.append_assoc, List.cons_append]
  exact hany _ _ room' (AtStop.cons hclose List.mem_cons_self) hroom

/-- A run ends where the well-nested tokens end, if not before. -/
theorem readRun_anywhere {accept : Char → Bool} (single : Bool) (c : Char) (hm : WellNested m)
    (hu : AtStop stops u) (haccept : ∀ d, accept d = true → (Token.char d).isOrdinary = true) :
    ∃ m', WellNested m' ∧
      readRun single accept c (m ++ u) = ((readRun single accept c m).1, m' ++ u) ∧
      ∀ stops' u', AtStop stops' u' →
        readRun single accept c (m ++ u') = ((readRun single accept c m).1, m' ++ u') := by
  cases single with
  | true => exact ⟨m, hm, rfl, fun _ _ _ => rfl⟩
  | false =>
    refine ⟨(takeRun accept m).2, wellNested_takeRun hm haccept, ?_, fun stops' u' hu' => ?_⟩
    · simp [readRun, takeRun_append_atStop hu haccept]
    · simp [readRun, takeRun_append_atStop hu' haccept]

mutual

-- Induction on the derivation, where `m` is what is left of the well-nested tokens and `u` starts
-- with the stop. No rule looks past the first token of `u`, so any other stop does as well.
/-- A reading of well nested tokens before a stop ends at the stop, and goes the same way wherever
the tokens stand. By induction on the derivation, with one lemma for each reader. -/
theorem ReadsSiblings.anywhere {stops room acc ts nodes after} :
    ReadsSiblings False stops room acc ts nodes after → ∀ m u, ts = m ++ u → WellNested m →
      AtStop stops u → after = u ∧ SiblingsAnywhere room acc m nodes
  | .finish, m, u, hts, _, _ => by
      obtain ⟨rfl, rfl⟩ := List.append_eq_nil_iff.mp hts.symm
      exact ⟨rfl, fun stops u room' hu _ => hu.siblings⟩
  | .stop hstop, m, u, hts, hm, _ => by
      cases m with
      | nil => exact ⟨hts, fun stops u room' hu _ => hu.siblings⟩
      | cons t' m =>
        simp only [List.cons_append, List.cons.injEq] at hts
        rw [hts.1, stops_eq_false_of_closer hm.head_closer?] at hstop
        simp at hstop
  | .blank (t := t) hstop hblank h, m, u, hts, hm, hu => by
      have ih := h.anywhere
      obtain ⟨m, rfl, rfl⟩ := hu.split hts hstop
      -- a blank is a character outside all brackets, so the rest is well nested
      obtain ⟨hafter, hany⟩ := ih m u rfl (hm.tail (isOrdinary_of_isBlank hblank)) hu
      exact ⟨hafter, fun stops u room' hu hroom =>
        .blank (stops_eq_false_of_closer hm.head_closer?) hblank (hany stops u room' hu hroom)⟩
  | .strayBrace hstop _, m, u, hts, hm, hu => by
      obtain ⟨m, rfl, -⟩ := hu.split hts hstop
      exact absurd hm.head_closer? (by simp [Token.closer?])
  | .strayParen hstop _, m, u, hts, hm, hu => by
      obtain ⟨m, rfl, -⟩ := hu.split hts hstop
      exact absurd hm.head_closer? (by simp [Token.closer?])
  | .strayBracket hstop _, m, u, hts, hm, hu => by
      obtain ⟨m, rfl, -⟩ := hu.split hts hstop
      exact absurd hm.head_closer? (by simp [Token.closer?])
  | .strayRight hstop _, m, u, hts, hm, hu => by
      obtain ⟨m, rfl, -⟩ := hu.split hts hstop
      exact absurd hm.head_closer? (by simp [Token.closer?])
  | .power hexp h, m, u, hts, hm, hu => by
      have ihexp := hexp.anywhere
      have ih := h.anywhere
      obtain ⟨m, rfl, rfl⟩ := hu.split hts rfl
      obtain ⟨m', hm', rfl, hany⟩ := ihexp m u rfl (hm.tail rfl) hu
      obtain ⟨hafter, hany'⟩ := ih m' u rfl hm' hu
      exact ⟨hafter, fun stops u room' hu hroom =>
        .power (hany stops u room' hu hroom) (hany' stops u room' hu hroom)⟩
  | .script hscript h, m, u, hts, hm, hu => by
      have ihscript := hscript.anywhere
      have ih := h.anywhere
      obtain ⟨m, rfl, rfl⟩ := hu.split hts rfl
      obtain ⟨m', hm', rfl, hany⟩ := ihscript m u rfl (hm.tail rfl) hu
      obtain ⟨hafter, hany'⟩ := ih m' u rfl hm' hu
      exact ⟨hafter, fun stops u room' hu hroom =>
        .script (hany stops u room' hu hroom) (hany' stops u room' hu hroom)⟩
  | .operand hstop hblank hstart hnode h, m, u, hts, hm, hu => by
      have ihnode := hnode.anywhere
      have ih := h.anywhere
      obtain ⟨m, rfl, rfl⟩ := hu.split hts hstop
      obtain ⟨m', hm', rfl, hany⟩ := ihnode _ u rfl hm hu
      obtain ⟨hafter, hany'⟩ := ih m' u rfl hm' hu
      exact ⟨hafter, fun stops u room' hu hroom =>
        .operand (stops_eq_false_of_closer hm.head_closer?) hblank hstart
          (hany stops u room' hu hroom) (hany' stops u room' hu hroom)⟩

/-- An atom of well-nested markup ends inside it, and is read alike wherever the markup stands. -/
theorem ReadsAtom.anywhere {stops room single ts node after} :
    ReadsAtom False stops room single ts node after → ∀ m u, ts = m ++ u → WellNested m →
      AtStop stops u → ∃ m', WellNested m' ∧ after = m' ++ u ∧ AtomAnywhere room single m node m'
  | .missing hskip, m, u, hts, _, hu => by
      subst hts
      rw [skipBlanks_append_atStop hu] at hskip
      obtain ⟨hm, rfl⟩ := List.append_eq_nil_iff.mp hskip
      exact ⟨[], .nil, rfl, fun stops u room' hu _ => hu.atom hm⟩
  | .ended (t := t) hskip hend, m, u, hts, hm, hu => by
      subst hts
      rw [skipBlanks_append_atStop hu] at hskip
      have hblanks := wellNested_skipBlanks hm
      cases hm' : skipBlanks m with
      | nil =>
        rw [hm', List.nil_append] at hskip
        exact ⟨[], .nil, by simp [hskip], fun stops u room' hu _ => hu.atom hm'⟩
      | cons t' m' =>
        rw [hm'] at hskip hblanks
        simp only [List.cons_append, List.cons.injEq] at hskip
        rw [← hskip.1, endsOperand_eq_false_of_closer hblanks.head_closer?] at hend
        simp at hend
  | .nested (t := t) hskip hend h, m, u, hts, hm, hu => by
      have ih := h.anywhere
      subst hts
      rw [skipBlanks_append_atStop hu] at hskip
      obtain ⟨m', hm', hrest⟩ := hu.split hskip.symm (stops_of_endsOperand hend)
      have hnested : WellNested (t :: m') := hm' ▸ wellNested_skipBlanks hm
      obtain ⟨m'', hm'', hafter, hany⟩ := ih m' u hrest hnested hu
      refine ⟨m'', hm'', hafter, fun stops u room' hu hroom => ?_⟩
      -- the level that was spent is there in any larger room
      cases room' with
      | zero => omega
      | succ room' =>
        exact .nested (by rw [skipBlanks_append_atStop hu, hm']; rfl)
          (endsOperand_eq_false_of_closer hnested.head_closer?)
          (hany stops u room' hu (by omega))

/-- An enclosed part of well-nested markup ends inside it, and is read alike wherever the markup
stands. -/
theorem ReadsNested.anywhere {stops room single t ts node after} :
    ReadsNested False stops room single t ts node after → ∀ m u, ts = m ++ u →
      WellNested (t :: m) → AtStop stops u →
      ∃ m', WellNested m' ∧ after = m' ++ u ∧ NestedAnywhere room single t m node m'
  | .group h, m, u, hts, hm, hu => by
      have ih := h.anywhere
      cases hm with
      | token ht _ => exact absurd ht (by decide)
      | @braces inner m hi hm =>
        obtain ⟨rfl, hany⟩ := group_anywhere ih hts hi rfl
        exact ⟨m, hm, expect_cons rfl, fun stops u room' _ hroom =>
          .group (hany stops u room' hroom)⟩
  | .paren h, m, u, hts, hm, hu => by
      have ih := h.anywhere
      cases hm with
      | token ht _ => exact absurd ht (by decide)
      | @parens inner m hi hm =>
        obtain ⟨rfl, hany⟩ := group_anywhere ih hts hi rfl
        exact ⟨m, hm, expect_cons rfl, fun stops u room' _ hroom =>
          .paren (hany stops u room' hroom)⟩
  | .bracket h, m, u, hts, hm, hu => by
      have ih := h.anywhere
      cases hm with
      | token ht _ => exact absurd ht (by decide)
      | @brackets inner m hi hm =>
        obtain ⟨rfl, hany⟩ := group_anywhere ih hts hi rfl
        exact ⟨m, hm, expect_cons rfl, fun stops u room' _ hroom =>
          .bracket (hany stops u room' hroom)⟩
  | .number (c := c) hnum, m, u, hts, hm, hu => by
      subst hts
      have hm := hm.tail (isOrdinary_of_not_bracket (Or.inr (Or.inl hnum)))
      obtain ⟨m', hm', hrun, hany⟩ := readRun_anywhere single c hm hu
        (fun d hd => isOrdinary_of_not_bracket (Or.inr (Or.inl hd)))
      refine ⟨m', hm', by rw [hrun], fun stops u' room' hu' _ => ?_⟩
      have := @ReadsNested.number False stops room' single c (m ++ u') hnum
      rw [hrun]
      rwa [hany stops u' hu'] at this
  | .word (c := c) hnum hletter, m, u, hts, hm, hu => by
      subst hts
      have hm := hm.tail (isOrdinary_of_not_bracket (Or.inl hletter))
      obtain ⟨m', hm', hrun, hany⟩ := readRun_anywhere single c hm hu
        (fun d hd => isOrdinary_of_not_bracket (Or.inl hd))
      refine ⟨m', hm', by rw [hrun], fun stops u' room' hu' _ => ?_⟩
      have := @ReadsNested.word False stops room' single c (m ++ u') hnum hletter
      rw [hrun]
      rwa [hany stops u' hu'] at this
  | .text hopen hnum hletter, m, _, hts, hm, _ =>
    ⟨m, hm.tail_char hopen, hts, fun _ _ _ _ _ => .text hopen hnum hletter⟩
  | .delimited h, m, u, hts, hm, hu => by
      have ih := h.anywhere
      obtain ⟨d, inner, d', m, rfl, hi, hm⟩ := hm.of_left
      subst hts
      obtain ⟨rfl, hany⟩ := group_anywhere (m := d' :: m) ih (by cases d <;> rfl) hi rfl
      refine ⟨m, hm, by cases d' <;> rfl, fun stops u room' _ hroom => ?_⟩
      -- `delimiter` takes one token, of whatever kind it is
      have := @ReadsNested.delimited False stops room' single
        (d :: (inner ++ .command "right" :: d' :: m) ++ u) _ _
        (by cases d <;> exact hany stops u room' hroom)
      cases d <;> cases d' <;> exact this
  | .set h, m, u, hts, hm, hu => by
      have ih := h.anywhere
      obtain ⟨inner, m, rfl, hi, hm⟩ := hm.of_set
      obtain ⟨rfl, hany⟩ := group_anywhere ih hts hi rfl
      exact ⟨m, hm, expect_cons rfl, fun stops u room' _ hroom => .set (hany stops u room' hroom)⟩
  | .fraction hname hnum hden, m, u, hts, hm, hu => by
      have ihnum := hnum.anywhere
      have ihden := hden.anywhere
      have hne := ne_of_isFractionCommand hname
      obtain ⟨m', hm', hmiddle, hany⟩ := ihnum m u hts (hm.tail_command hne.1 hne.2) hu
      obtain ⟨m'', hm'', hafter, hany'⟩ := ihden m' u hmiddle hm' hu
      exact ⟨m'', hm'', hafter, fun stops u room' hu hroom =>
        .fraction hname (hany stops u room' hu hroom) (hany' stops u room' hu hroom)⟩
  | .indexedRoot hskip hindex hrad, m, u, hts, hm, hu => by
      have ihindex := hindex.anywhere
      have ihrad := hrad.anywhere
      have hm := hm.tail_command (by decide) (by decide)
      obtain ⟨m₁, hm₁, hinside, hnested⟩ := hu.skip_split hm (hts ▸ hskip) rfl
      cases hnested with
      | token ht _ => exact absurd ht (by decide)
      | @brackets inner m₂ hi hm₂ =>
        obtain ⟨rfl, hany⟩ := group_anywhere ihindex hinside hi rfl
        obtain ⟨m', hm', hafter, hany'⟩ := ihrad m₂ u (expect_cons rfl) hm₂ hu
        refine ⟨m', hm', hafter, fun stops u room' hu hroom => ?_⟩
        refine .indexedRoot ?_ (hany stops u room' hroom) (hany' stops u room' hu hroom)
        rw [skipBlanks_append_atStop hu, hm₁]
        simp
  | .root hskip hrad, m, u, hts, hm, hu => by
      have ihrad := hrad.anywhere
      have hm := hm.tail_command (by decide) (by decide)
      subst hts
      obtain ⟨m', hm', hafter, hany⟩ := ihrad (skipBlanks m) u (skipBlanks_append_atStop hu)
        (wellNested_skipBlanks hm) hu
      refine ⟨m', hm', hafter, fun stops u' room' hu' hroom => .root ?_ ?_⟩
      · rw [skipBlanks_append_atStop hu] at hskip
        rw [skipBlanks_append_atStop hu', ne_eq, hu'.head_append rfl, ← hu.head_append rfl]
        exact hskip
      · rw [skipBlanks_append_atStop hu']
        exact hany stops u' room' hu' hroom
  | .namedFunction hinner hfn h, m, u, hts, hm, hu => by
      have ihinner := hinner.anywhere
      have ih := h.anywhere
      have hm := hm.tail_command (by decide) (by decide)
      obtain ⟨m', hm', hmiddle, hany⟩ := ihinner m u hts hm hu
      obtain ⟨m'', hm'', hafter, hany'⟩ := ih m' u hmiddle hm' hu
      exact ⟨m'', hm'', hafter, fun stops u room' hu hroom =>
        .namedFunction (hany stops u room' hu hroom) hfn (hany' stops u room' hu hroom)⟩
  | .named hinner hfn, m, u, hts, hm, hu => by
      have ihinner := hinner.anywhere
      have hm := hm.tail_command (by decide) (by decide)
      obtain ⟨m', hm', hafter, hany⟩ := ihinner m u hts hm hu
      exact ⟨m', hm', hafter, fun stops u room' hu hroom =>
        .named (hany stops u room' hu hroom) hfn⟩
  | .function hname hfn h, m, u, hts, hm, hu => by
      have ih := h.anywhere
      have hne := ne_of_not_structured hname
      obtain ⟨m', hm', hafter, hany⟩ := ih m u hts (hm.tail_command hne.1 hne.2) hu
      exact ⟨m', hm', hafter, fun stops u room' hu hroom =>
        .function hname hfn (hany stops u room' hu hroom)⟩
  | .command hname hfn, m, u, hts, hm, hu =>
    ⟨m, hm.tail_command (ne_of_not_structured hname).1 (ne_of_not_structured hname).2, hts,
      fun _ _ _ _ _ => .command hname hfn⟩

/-- A function of well-nested markup ends inside it, and is read alike wherever the markup
stands. -/
theorem ReadsFunction.anywhere {stops room fn script power ts node after} :
    ReadsFunction False stops room fn script power ts node after → ∀ m u, ts = m ++ u →
      WellNested m → AtStop stops u →
      ∃ m', WellNested m' ∧ after = m' ++ u ∧ FunctionAnywhere room fn script power m node m'
  | .script hskip hnode h, m, u, hts, hm, hu => by
      have ihnode := hnode.anywhere
      have ih := h.anywhere
      obtain ⟨m₁, hm₁, hinside, hnested⟩ := hu.skip_split hm (hts ▸ hskip) rfl
      obtain ⟨m', hm', hmiddle, hany⟩ := ihnode m₁ u hinside (hnested.tail rfl) hu
      obtain ⟨m'', hm'', hafter, hany'⟩ := ih m' u hmiddle hm' hu
      refine ⟨m'', hm'', hafter, fun stops u room' hu hroom => ?_⟩
      refine .script ?_ (hany stops u room' hu hroom) (hany' stops u room' hu hroom)
      rw [skipBlanks_append_atStop hu, hm₁, List.cons_append]
  | .power hskip hnode h, m, u, hts, hm, hu => by
      have ihnode := hnode.anywhere
      have ih := h.anywhere
      obtain ⟨m₁, hm₁, hinside, hnested⟩ := hu.skip_split hm (hts ▸ hskip) rfl
      obtain ⟨m', hm', hmiddle, hany⟩ := ihnode m₁ u hinside (hnested.tail rfl) hu
      obtain ⟨m'', hm'', hafter, hany'⟩ := ih m' u hmiddle hm' hu
      refine ⟨m'', hm'', hafter, fun stops u room' hu hroom => ?_⟩
      refine .power ?_ (hany stops u room' hu hroom) (hany' stops u room' hu hroom)
      rw [skipBlanks_append_atStop hu, hm₁, List.cons_append]
  | .argument hscript hpower h, m, u, hts, hm, hu => by
      have ih := h.anywhere
      subst hts
      obtain ⟨m', hm', hafter, hany⟩ := ih (skipBlanks m) u (skipBlanks_append_atStop hu)
        (wellNested_skipBlanks hm) hu
      -- that no script comes next is a fact about `m`, since a stop is no `^` or `_`
      rw [skipBlanks_append_atStop hu, ne_eq, hu.head_append rfl] at hscript hpower
      refine ⟨m', hm', hafter, fun stops u' room' hu' hroom => .argument ?_ ?_ ?_⟩
      · rwa [skipBlanks_append_atStop hu', ne_eq, hu'.head_append rfl]
      · rwa [skipBlanks_append_atStop hu', ne_eq, hu'.head_append rfl]
      · rw [skipBlanks_append_atStop hu']
        exact hany stops u' room' hu' hroom

/-- An argument in well-nested markup ends inside it, and is read alike wherever the markup
stands. -/
theorem ReadsArgument.anywhere {stops room ts argument after} :
    ReadsArgument False stops room ts argument after → ∀ m u, ts = m ++ u → WellNested m →
      AtStop stops u → ∃ m', WellNested m' ∧ after = m' ++ u ∧ ArgumentAnywhere room m argument m'
  | .missing, m, u, hts, _, _ => by
      obtain ⟨rfl, rfl⟩ := List.append_eq_nil_iff.mp hts.symm
      exact ⟨[], .nil, rfl, fun stops u room' hu _ => hu.argument⟩
  | .ended hstop, m, u, hts, hm, _ => by
      cases m with
      | nil => exact ⟨[], .nil, hts, fun stops u room' hu _ => hu.argument⟩
      | cons t' m =>
        simp only [List.cons_append, List.cons.injEq] at hts
        rw [hts.1, stops_eq_false_of_closer hm.head_closer?] at hstop
        simp at hstop
  | .other hstop hopen hfactor, m, u, hts, hm, hu => by
      obtain ⟨m, rfl, rfl⟩ := hu.split hts hstop
      exact ⟨_, hm, rfl, fun stops u room' _ _ =>
        .other (stops_eq_false_of_closer hm.head_closer?) hopen hfactor⟩
  | .bracketed hstop hopen h, m, u, hts, hm, hu => by
      have ih := h.anywhere
      obtain ⟨m, rfl, rfl⟩ := hu.split hts hstop
      obtain ⟨m', hm', hafter, hany⟩ := ih _ u rfl hm hu
      exact ⟨m', hm', hafter, fun stops u room' hu hroom =>
        .bracketed (stops_eq_false_of_closer hm.head_closer?) hopen (hany stops u room' hu hroom)⟩
  | .factors hstop hopen hfactor h, m, u, hts, hm, hu => by
      have ih := h.anywhere
      obtain ⟨m, rfl, rfl⟩ := hu.split hts hstop
      obtain ⟨m', hm', hafter, hany⟩ := ih _ u rfl hm hu
      exact ⟨m', hm', hafter, fun stops u room' hu hroom =>
        .factors (stops_eq_false_of_closer hm.head_closer?) hopen hfactor
          (hany stops u room' hu hroom)⟩

/-- The factors of an argument in well-nested markup end inside it, and are read alike wherever the
markup stands. -/
theorem ReadsFactors.anywhere {stops room acc ts nodes after} :
    ReadsFactors False stops room acc ts nodes after → ∀ m u, ts = m ++ u → WellNested m →
      AtStop stops u → ∃ m', WellNested m' ∧ after = m' ++ u ∧ FactorsAnywhere room acc m nodes m'
  | .power hacc hexp h, m, u, hts, hm, hu => by
      have ihexp := hexp.anywhere
      have ih := h.anywhere
      obtain ⟨m, rfl, rfl⟩ := hu.split hts rfl
      obtain ⟨m', hm', hmiddle, hany⟩ := ihexp m u rfl (hm.tail rfl) hu
      obtain ⟨m'', hm'', hafter, hany'⟩ := ih m' u hmiddle hm' hu
      exact ⟨m'', hm'', hafter, fun stops u room' hu hroom =>
        .power hacc (hany stops u room' hu hroom) (hany' stops u room' hu hroom)⟩
  | .factor hfactor hnode h, m, u, hts, hm, hu => by
      have ihnode := hnode.anywhere
      have ih := h.anywhere
      have hcloser := closer?_eq_none_of_ordinary
        (isOrdinary_of_not_bracket (Or.inr (Or.inr (Or.inr hfactor))))
      obtain ⟨m, rfl, rfl⟩ := hu.split hts (stops_eq_false_of_closer hcloser)
      obtain ⟨m', hm', hmiddle, hany⟩ := ihnode _ u rfl hm hu
      obtain ⟨m'', hm'', hafter, hany'⟩ := ih m' u hmiddle hm' hu
      exact ⟨m'', hm'', hafter, fun stops u room' hu hroom =>
        .factor hfactor (hany stops u room' hu hroom) (hany' stops u room' hu hroom)⟩
  | .done hpower hfactor, m, u, hts, hm, hu => by
      subst hts
      rw [ne_eq, hu.head_append rfl] at hpower
      refine ⟨m, hm, rfl, fun stops u' room' hu' _ => .done ?_ ?_⟩
      · rwa [ne_eq, hu'.head_append rfl]
      · intro c hc
        by_contra hfac
        rw [Bool.not_eq_false] at hfac
        have hcloser := closer?_eq_none_of_ordinary
          (isOrdinary_of_not_bracket (Or.inr (Or.inr (Or.inr hfac))))
        -- a factor at the head would already have been there before the first stop
        rw [hu'.head_append hcloser, ← hu.head_append hcloser] at hc
        rw [hfactor c hc] at hfac
        simp at hfac

end

end FormulaDesk.Markup
