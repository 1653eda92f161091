import FormulaDesk.Proofs.Reading.Conservation
import FormulaDesk.Proofs.Totality.Reader

/-! # The cursor reads every markup

Wherever the rules of reading go from one piece of the tokens to another, the reader with a cursor
returns the same nodes and moves its cursor over what lies between. The induction is on the
derivation, which every token sequence has; so every loop ends and no step fails. The fuel that a
loop needs grows with the tokens before the cursor. Some loops call one another without taking a
token, so what a loop needs beyond that is its rank: how many such calls can still follow.
-/

namespace FormulaDesk.Markup

variable {stops : List Token} {closers : Stops} {tokens ts us rest after : List Token} {t : Token}
  {depth room rank called fuel : Nat} {single : Bool}

/-! ## Tables and stops -/

/-- Looking a name up in a table is finding the entry that has it. -/
theorem lookup_map {α : Type} (f g : α → String) (entries : List α) (name : String) :
    (entries.map fun a => (f a, g a)).lookup name
      = (entries.find? fun a => f a == name).map g := by
  induction entries with
  | nil => rfl
  | cons a entries ih =>
    rw [List.map_cons, List.lookup_cons, List.find?_cons, ih, Bool.beq_comm]
    split <;> simp_all

/-- The table of functions knows the same names as the readers. -/
theorem isFunctionName_eq (name : String) : isFunctionName name = (Fn.ofCommand? name).isSome := by
  have hfunctions : functionTable = Fn.direct.map fun fn => (fn.command, fn.callName) := rfl
  have hreciprocals : reciprocalTable = Fn.reciprocals.map fun fn => (fn.command, fn.callName) :=
    rfl
  rw [isFunctionName, lists, lists, hfunctions, hreciprocals, lookup_map, lookup_map,
    Fn.ofCommand?, Fn.all, List.find?_append]
  simp

/-- Each closer is one token. -/
theorem closer?_eq_some_iff {closer : Closer} : t.closer? = some closer ↔ t = closer.token := by
  constructor
  · intro h
    unfold Token.closer? at h
    split at h <;> cases h <;> rfl
  · rintro rfl
    cases closer <;> rfl

/-- The stops are the tokens of the closers. -/
def StandFor (stops : List Token) (closers : Stops) : Prop :=
  ∀ t : Token, stops.contains t = t.stops closers

/-- One more closer on top of those that are open. -/
theorem StandFor.append (h : StandFor stops closers) (closer : Closer) :
    StandFor (stops ++ [closer.token]) (closer :: closers) := by
  intro t
  have hnew : (t == closer.token) = (t.closer? == some closer) := by
    rw [Bool.eq_iff_iff, beq_iff_eq, beq_iff_eq, closer?_eq_some_iff]
  have hcontains : (stops ++ [closer.token]).contains t
      = (stops.contains t || t == closer.token) := by
    simp [List.contains_eq_mem, Bool.decide_or, Bool.beq_eq_decide_eq]
  rw [hcontains, h t, hnew]
  unfold Token.stops
  cases t.closer? with
  | none => rfl
  | some c => simp [Bool.or_comm, Bool.beq_eq_decide_eq]

/-- The machine asks three questions where the rules have one test. -/
theorem endsOperand_eq (h : StandFor stops closers) (t : Token) :
    (stops.contains t || t == Closer.brace.token || t == Closer.right.token)
      = t.endsOperand closers := by
  have heq : ∀ closer : Closer, (t == closer.token) = (t.closer? == some closer) := by
    intro closer
    rw [Bool.eq_iff_iff, beq_iff_eq, beq_iff_eq, closer?_eq_some_iff]
  rw [h t, heq, heq, Token.endsOperand]

/-! ## Fuel -/

/-- The fuel that a loop of some rank needs for the tokens before the cursor. -/
def Suffices (rank : Nat) (ts : List Token) (fuel : Nat) : Prop := 6 * ts.length + rank ≤ fuel

/-- A call costs one unit itself. -/
theorem Suffices.exists_succ (h : Suffices (rank + 1) ts fuel) : ∃ left, fuel = left + 1 :=
  Nat.exists_eq_add_one_of_ne_zero (by unfold Suffices at h; omega)

/-- Fuel that suffices for the tokens suffices for what is left of them. -/
theorem Suffices.at_suffix (h : Suffices rank ts fuel) (hus : us <:+ ts) :
    Suffices rank us fuel := by
  have hle := hus.length_le
  unfold Suffices at h ⊢
  omega

/-- A loop hands what is left to one of a lower rank, at the same tokens or behind them. -/
theorem Suffices.call (h : Suffices rank ts (fuel + 1)) (hus : us <:+ ts)
    (hrank : called < rank := by decide) : Suffices called us fuel := by
  have hle := hus.length_le
  unfold Suffices at h ⊢
  omega

/-- Behind a token it has enough left for a loop of any rank. -/
theorem Suffices.behind (h : Suffices rank (t :: ts) (fuel + 1)) (hus : us <:+ ts)
    (hrank : called ≤ rank + 5 := by decide) : Suffices called us fuel := by
  have hle := hus.length_le
  unfold Suffices at h ⊢
  rw [List.length_cons] at h
  omega

namespace Reader

/-! ## Single loops -/

/-- Skipping blanks moves the cursor and nothing else. -/
theorem runs_skipSpaces (hfuel : Suffices 1 ts fuel) (h : ts <:+ tokens) :
    Runs (skipSpaces fuel) (standing tokens ts depth) ()
      (standing tokens (skipBlanks ts) depth) := by
  induction ts generalizing fuel with
  | nil =>
    obtain ⟨fuel, rfl⟩ := hfuel.exists_succ
    exact (runs_peek h).bind (Runs.pure () _)
  | cons t ts ih =>
    obtain ⟨fuel, rfl⟩ := hfuel.exists_succ
    rw [skipSpaces]
    refine (runs_peek h).bind ?_
    by_cases hblank : t.isBlank = true
    · simp only [List.head?_cons, hblank, if_true, skipBlanks, List.dropWhile_cons]
      have htail := (List.suffix_cons t ts).trans h
      exact (runs_skip h).bind (ih (hfuel.behind List.suffix_rfl) htail)
    · simp only [List.head?_cons, hblank, Bool.false_eq_true, if_false, skipBlanks, List.dropWhile_cons]
      exact Runs.pure () _

/-- Skipping blanks takes the cursor to the next token that is none. -/
theorem runs_skipTo (depth : Nat) (hskip : skipBlanks ts = us) (hfuel : Suffices 1 ts fuel)
    (h : ts <:+ tokens) : us <:+ tokens ∧
      Runs (skipSpaces fuel) (standing tokens ts depth) () (standing tokens us depth) := by
  subst hskip
  exact ⟨(skipBlanks_suffix ts).trans h, runs_skipSpaces hfuel h⟩

/-- A closer is passed if it is there. -/
theorem runs_dropCloser (closer : Closer) (h : ts <:+ tokens) :
    Runs (dropCloser closer) (standing tokens ts depth) ()
      (standing tokens (expect closer ts) depth) := by
  refine (runs_peek h).bind ?_
  cases ts with
  | nil => exact Runs.pure () _
  | cons t ts =>
    simp only [List.head?_cons, expect, closer?_eq_some_iff, beq_iff_eq, Option.some.injEq]
    split
    · exact runs_skip h
    · exact Runs.pure () _

/-- Taking a delimiter where the markup ends gives none, and does not fail. -/
theorem runs_takeDelimiter (h : ts <:+ tokens) :
    Runs takeDelimiter (standing tokens ts depth) (delimiter ts).1
      (standing tokens (delimiter ts).2 depth) := by
  refine (runs_peek h).bind ?_
  cases ts with
  | nil => exact Runs.pure "" _
  | cons t ts =>
    refine (runs_skip h).bind ?_
    cases t with
    | command name => exact Runs.pure _ _
    | char c => exact Runs.pure _ _

theorem runs_takeRight (h : ts <:+ tokens) :
    Runs takeRight (standing tokens ts depth) (closeDelimited ts).1
      (standing tokens (closeDelimited ts).2 depth) := by
  refine (runs_peek h).bind ?_
  cases ts with
  | nil => exact Runs.pure "" _
  | cons t ts =>
    simp only [List.head?_cons, closeDelimited, beq_iff_eq, closer?_eq_some_iff,
      Option.some.injEq]
    split
    · exact (runs_skip h).bind (runs_takeDelimiter ((List.suffix_cons t ts).trans h))
    · exact Runs.pure "" _

/-- Collecting a run stops in front of the first other token or at the end. -/
theorem runs_collect (accept : Char → Bool) (hfuel : Suffices 1 ts fuel) (h : ts <:+ tokens) :
    Runs (collect accept fuel) (standing tokens ts depth) (takeRun accept ts).1
      (standing tokens (takeRun accept ts).2 depth) := by
  induction ts generalizing fuel with
  | nil =>
    obtain ⟨fuel, rfl⟩ := hfuel.exists_succ
    exact (runs_peek h).bind (Runs.pure [] _)
  | cons t ts ih =>
    obtain ⟨fuel, rfl⟩ := hfuel.exists_succ
    rw [collect]
    refine (runs_peek h).bind ?_
    cases t with
    | command name => exact Runs.pure [] _
    | char c =>
      simp only [List.head?_cons, takeRun]
      split
      · have hrun := ih (hfuel.behind List.suffix_rfl) ((List.suffix_cons _ ts).trans h)
        exact (runs_skip h).bind (hrun.bind (Runs.pure _ _))
      · exact Runs.pure [] _

theorem runs_collectFrom (single : Bool) (accept : Char → Bool) (c : Char)
    (hfuel : Suffices 1 ts fuel) (h : ts <:+ tokens) :
    Runs (collectFrom single accept c fuel) (standing tokens ts depth)
      (readRun single accept c ts).1 (standing tokens (readRun single accept c ts).2 depth) := by
  unfold collectFrom readRun
  split
  · exact Runs.pure _ _
  · exact (runs_collect accept hfuel h).bind (Runs.pure _ _)

/-- Below the limit one token is taken. There is one, since the cursor stands before it. -/
theorem runs_flatNode (h : t :: ts <:+ tokens) :
    Runs flatNode (standing tokens (t :: ts) depth) (flatAtom t ts).1
      (standing tokens (flatAtom t ts).2 depth) := by
  refine (runs_advance h).bind ?_
  cases t with
  | char c =>
    unfold flatAtom
    dsimp only
    split_ifs <;> exact Runs.pure _ _
  | command name =>
    unfold flatAtom
    dsimp only
    split_ifs
    · exact (runs_takeDelimiter ((List.suffix_cons _ ts).trans h)).bind (Runs.pure _ _)
    · exact Runs.pure _ _
    · exact Runs.pure _ _

/-- Taking the last sibling where there is none gives none, and does not fail. -/
theorem runs_popBase (acc : List Node) (c : Cursor) :
    Runs (popBase acc) c (acc.head?, acc.tail) c := by
  cases acc with
  | nil => exact Runs.pure _ c
  | cons node acc => exact (runs_popNode_cons node acc c).bind (Runs.pure _ c)

end Reader

open Reader

/-! ## Loops that call each other -/

/-- A token that starts an operand is none of those that siblings treat on their own. -/
theorem startsOperand_facts (h : t.startsOperand = true) :
    (t == Closer.brace.token) = false ∧
      (t == Closer.paren.token || t == Closer.bracket.token) = false ∧
      (t == Closer.right.token) = false ∧ (t == .char '^') = false ∧ (t == .char '_') = false := by
  have hne : ∀ u : Token, u.startsOperand = false → (t == u) = false := by
    intro u hu
    rw [beq_eq_false_iff_ne]
    rintro rfl
    simp [h] at hu
  exact ⟨hne _ rfl, by rw [hne _ rfl, hne _ rfl]; rfl, hne _ rfl, hne _ rfl, hne _ rfl⟩

theorem stops_of_mark {c : Char} (h : c = '^' ∨ c = '_') (closers : Stops) :
    (Token.char c).stops closers = false := by
  rcases h with rfl | rfl <;> rfl

/-- A command without structure passes all the tests of the machine. -/
theorem structured_facts {name : String} (h : isStructured name = false) :
    (name == "left") = false ∧ (name == "\x7b") = false ∧ isFractionCommand name = false ∧
      (name == "sqrt") = false ∧ (name == "operatorname") = false := by
  simpa only [isStructured, Bool.or_eq_false_iff, and_assoc] using h

theorem runs_factors_done {acc : List Node} (hfuel : Suffices 3 ts fuel)
    (hpower : acc.isEmpty = true ∨ ts.head? ≠ some (.char '^'))
    (hfactor : ∀ c, ts.head? = some (.char c) → isFactorChar c = false) (hts : ts <:+ tokens) :
    Runs (factors stops acc fuel) (standing tokens ts depth) acc.reverse
      (standing tokens ts depth) := by
  obtain ⟨fuel, rfl⟩ := hfuel.exists_succ
  rw [factors]
  refine (runs_peek hts).bind ?_
  rcases ts with _ | ⟨_ | c, ts⟩
  · exact Runs.pure _ _
  · exact Runs.pure _ _
  · have hcaret : (c == '^' && !acc.isEmpty) = false := by
      rcases hpower with hempty | hne
      · simp [hempty]
      · have hne : c ≠ '^' := by simpa using hne
        simp [hne]
    simp only [List.head?_cons, hcaret, hfactor c rfl, Bool.false_eq_true, if_false]
    exact Runs.pure _ _

mutual

/-- The machine returns the nodes of the derivation, and its cursor stands behind the tokens that
they are read from. By induction on the derivation, with one lemma for each loop. -/
theorem ReadsSiblings.runs {stops closers depth room acc ts nodes after fuel}
    (hstops : StandFor stops closers) (hdepth : depth + room = maxNesting)
    (hfuel : Suffices 3 ts fuel) (hts : ts <:+ tokens)
    (h : ReadsSiblings True closers room acc ts nodes after) :
    Runs (siblings stops acc fuel) (standing tokens ts depth) nodes
      (standing tokens after depth) := by
  obtain ⟨fuel, rfl⟩ := hfuel.exists_succ
  rw [siblings]
  refine (runs_peek hts).bind ?_
  match h with
  | .finish => exact Runs.pure _ _
  | .stop hstop =>
    simp only [List.head?_cons, hstops _, hstop, if_true]
    exact Runs.pure _ _
  | .blank hstop hblank h =>
    have htail := (List.suffix_cons _ _).trans hts
    simp only [List.head?_cons, hstops _, hstop, hblank, Bool.false_eq_true, if_true, if_false]
    exact (runs_skip hts).bind (h.runs hstops hdepth (hfuel.behind List.suffix_rfl) htail)
  | .strayBrace hstop h =>
    have htail := (List.suffix_cons _ _).trans hts
    have hblank : (Token.char '}').isBlank = false := by decide
    simp only [List.head?_cons, hstops _, hstop, hblank, Bool.false_eq_true, if_false]
    exact (runs_skip hts).bind (h.runs hstops hdepth (hfuel.behind List.suffix_rfl) htail)
  | .strayParen hstop h =>
    have htail := (List.suffix_cons _ _).trans hts
    have hblank : (Token.char ')').isBlank = false := by decide
    simp only [List.head?_cons, hstops _, hstop, hblank, Bool.false_eq_true, if_false]
    exact (runs_skip hts).bind (h.runs hstops hdepth (hfuel.behind List.suffix_rfl) htail)
  | .strayBracket hstop h =>
    have htail := (List.suffix_cons _ _).trans hts
    have hblank : (Token.char ']').isBlank = false := by decide
    simp only [List.head?_cons, hstops _, hstop, hblank, Bool.false_eq_true, if_false]
    exact (runs_skip hts).bind (h.runs hstops hdepth (hfuel.behind List.suffix_rfl) htail)
  | .strayRight hstop h =>
    have htail := (List.suffix_cons _ _).trans hts
    have hblank : (Token.command "right").isBlank = false := rfl
    have hrest := h.runs hstops hdepth (hfuel.behind (delimiter_suffix _))
      ((delimiter_suffix _).trans htail)
    simp only [List.head?_cons, hstops _, hstop, hblank, Bool.false_eq_true, if_false]
    exact (runs_skip hts).bind ((runs_takeDelimiter htail).bind hrest)
  | .power hexp h =>
    have htail := (List.suffix_cons _ _).trans hts
    have hblank : (Token.char '^').isBlank = false := by decide
    have hexponent := hexp.runs hstops hdepth (hfuel.behind List.suffix_rfl) htail
    have hrest := h.runs hstops hdepth (hfuel.behind hexp.suffix) (hexp.suffix.trans htail)
    simp only [List.head?_cons, hstops _, stops_of_mark (Or.inl rfl), hblank, Bool.false_eq_true,
      if_false]
    exact (runs_skip hts).bind ((runs_popBase _ _).bind (hexponent.bind hrest))
  | .script hscript h =>
    have htail := (List.suffix_cons _ _).trans hts
    have hblank : (Token.char '_').isBlank = false := by decide
    have hnode := hscript.runs hstops hdepth (hfuel.behind List.suffix_rfl) htail
    have hrest := h.runs hstops hdepth (hfuel.behind hscript.suffix) (hscript.suffix.trans htail)
    simp only [List.head?_cons, hstops _, stops_of_mark (Or.inr rfl), hblank, Bool.false_eq_true,
      if_false]
    exact (runs_skip hts).bind ((runs_popBase _ _).bind (hnode.bind hrest))
  | .operand hstop hblank hstart hnode h =>
    obtain ⟨hbrace, hparen, hright, hpower, hscript⟩ := startsOperand_facts hstart
    -- an operand that is there takes its first token
    have hafter := hnode.takes_head hblank (endsOperand_false_of_starts hstop hstart)
    have hoperand := hnode.runs hstops hdepth (hfuel.call List.suffix_rfl) hts
    have hrest := h.runs hstops hdepth (hfuel.behind hafter) (hnode.suffix.trans hts)
    simp only [List.head?_cons, hstops _, hstop, hblank, hbrace, hparen, hright, hpower, hscript,
      Bool.false_eq_true, if_false]
    exact hoperand.bind hrest

theorem ReadsAtom.runs {stops closers depth room single ts node after fuel}
    (hstops : StandFor stops closers) (hdepth : depth + room = maxNesting)
    (hfuel : Suffices 2 ts fuel) (hts : ts <:+ tokens)
    (h : ReadsAtom True closers room single ts node after) :
    Runs (atom stops single fuel) (standing tokens ts depth) node
      (standing tokens after depth) := by
  obtain ⟨fuel, rfl⟩ := hfuel.exists_succ
  have hrest := (skipBlanks_suffix _).trans hts
  rw [atom]
  refine (runs_skipSpaces (hfuel.call List.suffix_rfl) hts).bind ((runs_peek hrest).bind ?_)
  match h with
  | .missing hskip =>
    rw [hskip]
    exact Runs.pure _ _
  | .ended hskip hend =>
    simp only [hskip, List.head?_cons, endsOperand_eq hstops, hend, if_true]
    exact Runs.pure _ _
  | .limit _ hskip hend =>
    simp only [hskip, List.head?_cons, endsOperand_eq hstops, hend, Bool.false_eq_true, if_false]
    refine (runs_get _).bind ?_
    split_ifs with hlimit
    · exact runs_flatNode (hskip ▸ hrest)
    · exact absurd (Nat.le_of_eq hdepth.symm) hlimit
  | .nested hskip hend h =>
    have hat := hskip ▸ skipBlanks_suffix ts
    have hnode := h.runs hstops ((Nat.add_right_comm depth 1 _).trans hdepth) (hfuel.call hat)
      (hat.trans hts)
    simp only [hskip, List.head?_cons, endsOperand_eq hstops, hend, Bool.false_eq_true, if_false]
    refine (runs_get _).bind ?_
    split_ifs with hlimit
    · have hreached : maxNesting ≤ depth := hlimit
      omega
    · exact (runs_enter _).bind (hnode.bind ((runs_leave _).bind (Runs.pure _ _)))

theorem ReadsNested.runs {stops closers depth room single t ts node after fuel}
    (hstops : StandFor stops closers) (hdepth : depth + room = maxNesting)
    (hfuel : Suffices 1 (t :: ts) fuel) (hts : t :: ts <:+ tokens)
    (h : ReadsNested True closers room single t ts node after) :
    Runs (nested stops single fuel) (standing tokens (t :: ts) depth) node
      (standing tokens after depth) := by
  obtain ⟨fuel, rfl⟩ := hfuel.exists_succ
  have htail := (List.suffix_cons _ _).trans hts
  rw [nested]
  refine (runs_advance hts).bind ?_
  match h with
  | .group h =>
    have hchildren := h.runs (hstops.append .brace) hdepth (hfuel.behind List.suffix_rfl) htail
    exact hchildren.bind ((runs_dropCloser .brace (h.suffix.trans htail)).bind (Runs.pure _ _))
  | .paren h =>
    have hchildren := h.runs (hstops.append .paren) hdepth (hfuel.behind List.suffix_rfl) htail
    exact hchildren.bind ((runs_dropCloser .paren (h.suffix.trans htail)).bind (Runs.pure _ _))
  | .bracket h =>
    have hchildren := h.runs (hstops.append .bracket) hdepth (hfuel.behind List.suffix_rfl) htail
    exact hchildren.bind ((runs_dropCloser .bracket (h.suffix.trans htail)).bind (Runs.pure _ _))
  | .number (c := c) hnum =>
    obtain ⟨hbrace, hparen, hbracket⟩ := ne_of_isNumberChar hnum
    have hrun : Suffices 1 ts fuel := hfuel.behind List.suffix_rfl
    simp only [beq_iff_eq, hbrace, hparen, hbracket, hnum, if_true, if_false]
    exact (runs_collectFrom single isNumberChar c hrun htail).bind (Runs.pure _ _)
  | .word (c := c) hnum hletter =>
    obtain ⟨hbrace, hparen, hbracket⟩ := ne_of_isLetter hletter
    have hrun : Suffices 1 ts fuel := hfuel.behind List.suffix_rfl
    simp only [beq_iff_eq, hbrace, hparen, hbracket, hnum, hletter, Bool.false_eq_true, if_true,
      if_false]
    exact (runs_collectFrom single Text.isLetter c hrun htail).bind (Runs.pure _ _)
  | .text hopen hnum hletter =>
    simp only [beq_iff_eq, hopen.1, hopen.2.1, hopen.2.2, hnum, hletter, Bool.false_eq_true,
      if_false]
    exact Runs.pure _ _
  | .delimited h =>
    have hdelimiter := delimiter_suffix ts
    have hinside := hdelimiter.trans htail
    have hchildren := h.runs (hstops.append .right) hdepth (hfuel.behind hdelimiter) hinside
    exact (runs_takeDelimiter htail).bind (hchildren.bind
      ((runs_takeRight (h.suffix.trans hinside)).bind (Runs.pure _ _)))
  | .set h =>
    have hchildren := h.runs (hstops.append .set) hdepth (hfuel.behind List.suffix_rfl) htail
    exact hchildren.bind ((runs_dropCloser .set (h.suffix.trans htail)).bind (Runs.pure _ _))
  | .fraction hname hnum hden =>
    obtain ⟨hleft, hset⟩ := ne_of_isFractionCommand hname
    have hnumerator := hnum.runs hstops hdepth (hfuel.behind List.suffix_rfl) htail
    have hdenominator := hden.runs hstops hdepth (hfuel.behind hnum.suffix)
      (hnum.suffix.trans htail)
    simp only [beq_iff_eq, hleft, hset, hname, if_true, if_false]
    exact hnumerator.bind (hdenominator.bind (Runs.pure _ _))
  | .indexedRoot hskip hindex hrad =>
    obtain ⟨hbody, hspaces⟩ := runs_skipTo depth hskip (hfuel.behind List.suffix_rfl) htail
    have hinside := (List.suffix_cons _ _).trans hbody
    have hopened := skipBlanks_cons_suffix hskip
    have hmiddle := hindex.suffix.trans hinside
    have hclosed := (expect_suffix .bracket _).trans hindex.suffix
    have hchildren := hindex.runs (hstops.append .bracket) hdepth (hfuel.behind hopened) hinside
    have hradicand := hrad.runs hstops hdepth (hfuel.behind (hclosed.trans hopened))
      (hclosed.trans hinside)
    exact hspaces.bind ((runs_peek hbody).bind ((runs_skip hbody).bind (hchildren.bind
      ((runs_dropCloser .bracket hmiddle).bind (hradicand.bind (Runs.pure _ _))))))
  | .root hskip hrad =>
    have hbody := (skipBlanks_suffix _).trans htail
    have hradicand := hrad.runs hstops hdepth (hfuel.behind (skipBlanks_suffix _)) hbody
    refine (runs_skipSpaces (hfuel.behind List.suffix_rfl) htail).bind
      ((runs_peek hbody).bind ?_)
    simp only [beq_iff_eq, hskip, if_false]
    exact hradicand.bind (Runs.pure _ _)
  | .namedFunction hinner hfn h =>
    have hname := hinner.runs hstops hdepth (hfuel.behind List.suffix_rfl) htail
    have hcall := h.runs hstops hdepth (hfuel.behind hinner.suffix) (hinner.suffix.trans htail) hfn
    refine hname.bind ?_
    simp only [isFunctionName_eq, hfn, Option.isSome_some, if_true]
    exact hcall
  | .named hinner hfn =>
    refine (hinner.runs hstops hdepth (hfuel.behind List.suffix_rfl) htail).bind ?_
    simp only [isFunctionName_eq, hfn, Option.isSome_none, Bool.false_eq_true, if_false]
    exact Runs.pure _ _
  | .function hname hfn h =>
    obtain ⟨hleft, hset, hfrac, hsqrt, hoperator⟩ := structured_facts hname
    have hcall := h.runs hstops hdepth (hfuel.behind List.suffix_rfl) htail hfn
    simp only [hleft, hset, hfrac, hsqrt, hoperator, isFunctionName_eq, hfn, Option.isSome_some,
      Bool.false_eq_true, if_true, if_false]
    exact hcall
  | .command hname hfn =>
    obtain ⟨hleft, hset, hfrac, hsqrt, hoperator⟩ := structured_facts hname
    simp only [hleft, hset, hfrac, hsqrt, hoperator, isFunctionName_eq, hfn, Option.isSome_none,
      Bool.false_eq_true, if_false]
    exact Runs.pure _ _

theorem ReadsFunction.runs {stops closers depth room fn name script power ts node after fuel}
    (hstops : StandFor stops closers) (hdepth : depth + room = maxNesting)
    (hfuel : Suffices 5 ts fuel) (hts : ts <:+ tokens) (hname : Fn.ofCommand? name = some fn)
    (h : ReadsFunction True closers room fn script power ts node after) :
    Runs (function stops name script power fuel) (standing tokens ts depth) node
      (standing tokens after depth) := by
  obtain ⟨fuel, rfl⟩ := hfuel.exists_succ
  have hrest := (skipBlanks_suffix _).trans hts
  rw [function]
  refine (runs_skipSpaces (hfuel.call List.suffix_rfl) hts).bind ((runs_peek hrest).bind ?_)
  match h with
  | .script hskip hnode h =>
    have hfuel := hfuel.at_suffix (skipBlanks_suffix _)
    rw [hskip] at hfuel hrest ⊢
    have htail := (List.suffix_cons _ _).trans hrest
    have hscript := hnode.runs hstops hdepth (hfuel.behind List.suffix_rfl) htail
    have hcall := h.runs hstops hdepth (hfuel.behind hnode.suffix) (hnode.suffix.trans htail) hname
    exact (runs_skip hrest).bind (hscript.bind hcall)
  | .power hskip hnode h =>
    have hfuel := hfuel.at_suffix (skipBlanks_suffix _)
    rw [hskip] at hfuel hrest ⊢
    have htail := (List.suffix_cons _ _).trans hrest
    have hscript := hnode.runs hstops hdepth (hfuel.behind List.suffix_rfl) htail
    have hcall := h.runs hstops hdepth (hfuel.behind hnode.suffix) (hnode.suffix.trans htail) hname
    exact (runs_skip hrest).bind (hscript.bind hcall)
  | .argument hscript hpower h =>
    simp only [beq_iff_eq, hscript, hpower, if_false]
    exact (h.runs hstops hdepth (hfuel.call (skipBlanks_suffix _)) hrest).bind
      ((runs_functionNamed hname _).bind (Runs.pure _ _))

theorem ReadsArgument.runs {stops closers depth room ts operand after fuel}
    (hstops : StandFor stops closers) (hdepth : depth + room = maxNesting)
    (hfuel : Suffices 4 ts fuel) (hts : ts <:+ tokens)
    (h : ReadsArgument True closers room ts operand after) :
    Runs (argument stops fuel) (standing tokens ts depth) operand
      (standing tokens after depth) := by
  obtain ⟨fuel, rfl⟩ := hfuel.exists_succ
  rw [argument]
  refine (runs_peek hts).bind ?_
  match h with
  | .missing => exact Runs.pure _ _
  | .ended hstop =>
    simp only [List.head?_cons, hstops _, hstop, if_true]
    exact Runs.pure _ _
  | .other (t := t) hstop hopen hfactor =>
    simp only [List.head?_cons, hstops _, hstop, Bool.false_eq_true, if_false]
    cases t with
    | command name =>
      rw [Token.startsBracketed] at hopen
      simp only [hopen, Bool.false_eq_true, if_false]
      exact Runs.pure _ _
    | char c =>
      rw [Token.startsBracketed] at hopen
      rw [Token.startsFactors] at hfactor
      simp only [hopen, hfactor, Bool.false_eq_true, if_false]
      exact Runs.pure _ _
  | .bracketed (t := t) hstop hopen h =>
    have hatom := h.runs hstops hdepth (hfuel.call List.suffix_rfl) hts
    simp only [List.head?_cons, hstops _, hstop, Bool.false_eq_true, if_false]
    cases t with
    | command name =>
      rw [Token.startsBracketed] at hopen
      simp only [hopen, if_true]
      exact hatom.bind (Runs.pure _ _)
    | char c =>
      rw [Token.startsBracketed] at hopen
      simp only [hopen, if_true]
      exact hatom.bind (Runs.pure _ _)
  | .factors (t := t) hstop hopen hfactor h =>
    have hfactors := h.runs hstops hdepth (hfuel.call List.suffix_rfl) hts
    simp only [List.head?_cons, hstops _, hstop, Bool.false_eq_true, if_false]
    cases t with
    | command name => simp [Token.startsFactors] at hfactor
    | char c =>
      rw [Token.startsBracketed] at hopen
      rw [Token.startsFactors] at hfactor
      simp only [hopen, hfactor, Bool.false_eq_true, if_true, if_false]
      exact hfactors.bind (Runs.pure _ _)

theorem ReadsFactors.runs {stops closers depth room acc ts nodes after fuel}
    (hstops : StandFor stops closers) (hdepth : depth + room = maxNesting)
    (hfuel : Suffices 3 ts fuel) (hts : ts <:+ tokens)
    (h : ReadsFactors True closers room acc ts nodes after) :
    Runs (factors stops acc fuel) (standing tokens ts depth) nodes
      (standing tokens after depth) := by
  match h with
  | .done hpower hfactor => exact runs_factors_done hfuel hpower hfactor hts
  | .power hacc hexp h =>
    obtain ⟨fuel, rfl⟩ := hfuel.exists_succ
    have htail := (List.suffix_cons _ _).trans hts
    have hexponent := hexp.runs hstops hdepth (hfuel.behind List.suffix_rfl) htail
    have hrest := h.runs hstops hdepth (hfuel.behind hexp.suffix) (hexp.suffix.trans htail)
    obtain ⟨node, hhead, hpop⟩ := runs_popNode hacc (standing tokens _ depth)
    rw [hhead] at hrest
    rw [factors]
    refine (runs_peek hts).bind ?_
    simp only [List.head?_cons, hacc, beq_self_eq_true, Bool.not_false, Bool.and_true, if_true]
    exact (runs_skip hts).bind (hpop.bind (hexponent.bind hrest))
  | .factor hfactor hnode h =>
    obtain ⟨fuel, rfl⟩ := hfuel.exists_succ
    have hafter := hnode.takes_head (isBlank_eq_false_of_factor hfactor)
      (endsOperand_false_of_factor hfactor)
    have hoperand := hnode.runs hstops hdepth (hfuel.call List.suffix_rfl) hts
    have hrest := h.runs hstops hdepth (hfuel.behind hafter) (hnode.suffix.trans hts)
    rw [factors]
    refine (runs_peek hts).bind ?_
    simp only [List.head?_cons, beq_eq_false_iff_ne.mpr (ne_caret_of_factor hfactor), hfactor,
      Bool.false_and, Bool.false_eq_true, if_true, if_false]
    exact hoperand.bind hrest

end

/-! ## Markup -/

/-- The reader returns the nodes of the tokens, with its cursor behind the last of them. -/
theorem runs_siblings (tokens : List Token) (hfuel : readingFuel tokens.length ≤ fuel) :
    Runs (siblings [] [] fuel) (Cursor.start tokens) (Node.ofTokens tokens)
      (standing tokens [] 0) := by
  have hstops : StandFor [] [] := by
    intro t
    unfold Token.stops
    split <;> rfl
  have hdepth : 0 + maxNesting = maxNesting := Nat.zero_add _
  have hsuffices : Suffices 3 tokens fuel := by
    unfold readingFuel at hfuel
    unfold Suffices
    omega
  have hreads := ofTokens_reads_all tokens
  rw [start_eq]
  exact hreads.runs hstops hdepth hsuffices List.suffix_rfl

end FormulaDesk.Markup
