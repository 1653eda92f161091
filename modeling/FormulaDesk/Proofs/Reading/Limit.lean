import FormulaDesk.Proofs.Reading.Adequacy

/-! # The nesting limit

A reading stays within the limit when it can be derived without the rule for tokens below it. Every
level of grouping costs a token, so no text of at most `maxNesting` tokens ever meets the limit.
-/

namespace FormulaDesk.Markup

/-- The markup is read without meeting the nesting limit. -/
def WithinLimit (markup : String) : Prop :=
  ∃ nodes, ReadsSiblings False [] maxNesting [] (Token.ofString markup) nodes []

/-- A reading from the full room is what the parser returns. -/
theorem ofMarkup_eq_of_reads {markup : String} {nodes : List Node} {after : List Token}
    (h : ReadsSiblings False [] maxNesting [] (Token.ofString markup) nodes after) :
    Node.ofMarkup markup = nodes :=
  ofTokens_eq_of_reads h

/-- Within the limit the nodes of a text are the ones that the rules derive. -/
theorem WithinLimit.reads {markup : String} (h : WithinLimit markup) :
    ReadsSiblings False [] maxNesting [] (Token.ofString markup) (Node.ofMarkup markup) [] := by
  obtain ⟨nodes, h⟩ := h
  exact ofMarkup_eq_of_reads h ▸ h

/-! ## More room

Away from the limit it does not matter how much room there is.
-/

mutual

/-- More room changes nothing of a reading that keeps within less. -/
theorem ReadsSiblings.more_room {stops room room' acc ts nodes after} :
    ReadsSiblings False stops room acc ts nodes after → room ≤ room' →
      ReadsSiblings False stops room' acc ts nodes after
  | .finish, _ => .finish
  | .stop hstop, _ => .stop hstop
  | .blank hstop hblank h, hroom => .blank hstop hblank (h.more_room hroom)
  | .strayBrace hstop h, hroom => .strayBrace hstop (h.more_room hroom)
  | .strayParen hstop h, hroom => .strayParen hstop (h.more_room hroom)
  | .strayBracket hstop h, hroom => .strayBracket hstop (h.more_room hroom)
  | .strayRight hstop h, hroom => .strayRight hstop (h.more_room hroom)
  | .power hexp h, hroom => .power (hexp.more_room hroom) (h.more_room hroom)
  | .script hscript h, hroom => .script (hscript.more_room hroom) (h.more_room hroom)
  | .operand hstop hblank hstart hnode h, hroom =>
    .operand hstop hblank hstart (hnode.more_room hroom) (h.more_room hroom)

/-- An atom is read the same with more room. -/
theorem ReadsAtom.more_room {stops room room' single ts node after} :
    ReadsAtom False stops room single ts node after → room ≤ room' →
      ReadsAtom False stops room' single ts node after
  | .missing hskip, _ => .missing hskip
  | .ended hskip hend, _ => .ended hskip hend
  | .limit hflat _ _, _ => hflat.elim
  | .nested hskip hend h, hroom => by
      -- one level is spent here, so `room'` is a successor too
      have ih := h.more_room (Nat.le_sub_one_of_lt hroom)
      rw [← Nat.sub_add_cancel (Nat.one_le_of_lt hroom)]
      exact .nested hskip hend ih

/-- An enclosed part is read the same with more room. -/
theorem ReadsNested.more_room {stops room room' single t ts node after} :
    ReadsNested False stops room single t ts node after → room ≤ room' →
      ReadsNested False stops room' single t ts node after
  | .group h, hroom => .group (h.more_room hroom)
  | .paren h, hroom => .paren (h.more_room hroom)
  | .bracket h, hroom => .bracket (h.more_room hroom)
  | .number hnum, _ => .number hnum
  | .word hnum hletter, _ => .word hnum hletter
  | .text hopen hnum hletter, _ => .text hopen hnum hletter
  | .delimited h, hroom => .delimited (h.more_room hroom)
  | .set h, hroom => .set (h.more_room hroom)
  | .fraction hname hnum hden, hroom =>
    .fraction hname (hnum.more_room hroom) (hden.more_room hroom)
  | .indexedRoot hskip hindex hrad, hroom =>
    .indexedRoot hskip (hindex.more_room hroom) (hrad.more_room hroom)
  | .root hskip hrad, hroom => .root hskip (hrad.more_room hroom)
  | .namedFunction hinner hfn h, hroom =>
    .namedFunction (hinner.more_room hroom) hfn (h.more_room hroom)
  | .named hinner hfn, hroom => .named (hinner.more_room hroom) hfn
  | .function hname hfn h, hroom => .function hname hfn (h.more_room hroom)
  | .command hname hfn, _ => .command hname hfn

/-- A function is read the same with more room. -/
theorem ReadsFunction.more_room {stops room room' fn script power ts node after} :
    ReadsFunction False stops room fn script power ts node after → room ≤ room' →
      ReadsFunction False stops room' fn script power ts node after
  | .script hskip hnode h, hroom => .script hskip (hnode.more_room hroom) (h.more_room hroom)
  | .power hskip hnode h, hroom => .power hskip (hnode.more_room hroom) (h.more_room hroom)
  | .argument hscript hpower h, hroom => .argument hscript hpower (h.more_room hroom)

/-- An argument is read the same with more room. -/
theorem ReadsArgument.more_room {stops room room' ts argument after} :
    ReadsArgument False stops room ts argument after → room ≤ room' →
      ReadsArgument False stops room' ts argument after
  | .missing, _ => .missing
  | .ended hstop, _ => .ended hstop
  | .other hstop hopen hfactor, _ => .other hstop hopen hfactor
  | .bracketed hstop hopen h, hroom => .bracketed hstop hopen (h.more_room hroom)
  | .factors hstop hopen hfactor h, hroom => .factors hstop hopen hfactor (h.more_room hroom)

/-- The factors of an argument are read the same with more room. -/
theorem ReadsFactors.more_room {stops room room' acc ts nodes after} :
    ReadsFactors False stops room acc ts nodes after → room ≤ room' →
      ReadsFactors False stops room' acc ts nodes after
  | .power hacc hexp h, hroom => .power hacc (hexp.more_room hroom) (h.more_room hroom)
  | .factor hfactor hnode h, hroom => .factor hfactor (hnode.more_room hroom) (h.more_room hroom)
  | .done hpower hfactor, _ => .done hpower hfactor

end

/-- What a text within the limit is read as can be found with any amount of room. -/
theorem WithinLimit.eq_of_reads {markup : String} (h : WithinLimit markup) {room : Nat}
    {nodes : List Node} {after : List Token}
    (hreads : ReadsSiblings False [] room [] (Token.ofString markup) nodes after) :
    Node.ofMarkup markup = nodes := by
  have hlimit := h.reads.more_room (Nat.le_max_left maxNesting room)
  exact (hlimit.unique (hreads.more_room (Nat.le_max_right maxNesting room))).1

/-! ## Short inputs -/

/-- Stepping over blanks and one more token leaves fewer tokens. -/
theorem skipBlanks_cons_length {t : Token} {ts rest : List Token}
    (h : skipBlanks ts = t :: rest) : rest.length < ts.length := by
  have := (skipBlanks_suffix ts).length_le
  rw [h, List.length_cons] at this
  omega

mutual

/-- With as much room as there are tokens the limit is never met. -/
theorem ReadsSiblings.of_length {flat stops room acc ts nodes after} :
    ReadsSiblings flat stops room acc ts nodes after → ts.length ≤ room →
      ReadsSiblings False stops room acc ts nodes after
  | .finish, _ => .finish
  | .stop hstop, _ => .stop hstop
  | .blank hstop hblank h, hlen => by
      rw [List.length_cons] at hlen
      exact .blank hstop hblank (h.of_length (by omega))
  | .strayBrace hstop h, hlen => by
      rw [List.length_cons] at hlen
      exact .strayBrace hstop (h.of_length (by omega))
  | .strayParen hstop h, hlen => by
      rw [List.length_cons] at hlen
      exact .strayParen hstop (h.of_length (by omega))
  | .strayBracket hstop h, hlen => by
      rw [List.length_cons] at hlen
      exact .strayBracket hstop (h.of_length (by omega))
  | .strayRight hstop h, hlen => by
      rw [List.length_cons] at hlen
      exact .strayRight hstop (h.of_length ((delimiter_suffix _).length_le.trans (by omega)))
  | .power hexp h, hlen => by
      rw [List.length_cons] at hlen
      have := hexp.suffix.length_le
      exact .power (hexp.of_length (by omega)) (h.of_length (by omega))
  | .script hscript h, hlen => by
      rw [List.length_cons] at hlen
      have := hscript.suffix.length_le
      exact .script (hscript.of_length (by omega)) (h.of_length (by omega))
  | .operand hstop hblank hstart hnode h, hlen => by
      have := hnode.suffix.length_le
      exact .operand hstop hblank hstart (hnode.of_length hlen) (h.of_length (by omega))

/-- An atom of as many tokens as there is room stays within the limit. -/
theorem ReadsAtom.of_length {flat stops room single ts node after} :
    ReadsAtom flat stops room single ts node after → ts.length ≤ room →
      ReadsAtom False stops room single ts node after
  | .missing hskip, _ => .missing hskip
  | .ended hskip hend, _ => .ended hskip hend
  | .limit _ hskip _, hlen => by
      have := skipBlanks_cons_length hskip
      omega
  | .nested hskip hend h, hlen => by
      have := skipBlanks_cons_length hskip
      exact .nested hskip hend (h.of_length (by omega))

/-- An enclosed part of as many tokens as there is room stays within the limit. -/
theorem ReadsNested.of_length {flat stops room single t ts node after} :
    ReadsNested flat stops room single t ts node after → ts.length ≤ room →
      ReadsNested False stops room single t ts node after
  | .group h, hlen => .group (h.of_length hlen)
  | .paren h, hlen => .paren (h.of_length hlen)
  | .bracket h, hlen => .bracket (h.of_length hlen)
  | .number hnum, _ => .number hnum
  | .word hnum hletter, _ => .word hnum hletter
  | .text hopen hnum hletter, _ => .text hopen hnum hletter
  | .delimited h, hlen => .delimited (h.of_length ((delimiter_suffix _).length_le.trans hlen))
  | .set h, hlen => .set (h.of_length hlen)
  | .fraction hname hnum hden, hlen =>
    .fraction hname (hnum.of_length hlen) (hden.of_length (hnum.suffix.length_le.trans hlen))
  | .indexedRoot hskip hindex hrad, hlen => by
      have hinside := skipBlanks_cons_length hskip
      have hmiddle := ((expect_suffix .bracket _).trans hindex.suffix).length_le
      exact .indexedRoot hskip (hindex.of_length (by omega)) (hrad.of_length (by omega))
  | .root hskip hrad, hlen =>
    .root hskip (hrad.of_length ((skipBlanks_suffix _).length_le.trans hlen))
  | .namedFunction hinner hfn h, hlen =>
    .namedFunction (hinner.of_length hlen) hfn (h.of_length (hinner.suffix.length_le.trans hlen))
  | .named hinner hfn, hlen => .named (hinner.of_length hlen) hfn
  | .function hname hfn h, hlen => .function hname hfn (h.of_length hlen)
  | .command hname hfn, _ => .command hname hfn

/-- A function of as many tokens as there is room stays within the limit. -/
theorem ReadsFunction.of_length {flat stops room fn script power ts node after} :
    ReadsFunction flat stops room fn script power ts node after → ts.length ≤ room →
      ReadsFunction False stops room fn script power ts node after
  | .script hskip hnode h, hlen => by
      have hinside := skipBlanks_cons_length hskip
      have hmiddle := hnode.suffix.length_le
      exact .script hskip (hnode.of_length (by omega)) (h.of_length (by omega))
  | .power hskip hnode h, hlen => by
      have hinside := skipBlanks_cons_length hskip
      have hmiddle := hnode.suffix.length_le
      exact .power hskip (hnode.of_length (by omega)) (h.of_length (by omega))
  | .argument hscript hpower h, hlen =>
    .argument hscript hpower (h.of_length ((skipBlanks_suffix _).length_le.trans hlen))

/-- An argument of as many tokens as there is room stays within the limit. -/
theorem ReadsArgument.of_length {flat stops room ts argument after} :
    ReadsArgument flat stops room ts argument after → ts.length ≤ room →
      ReadsArgument False stops room ts argument after
  | .missing, _ => .missing
  | .ended hstop, _ => .ended hstop
  | .other hstop hopen hfactor, _ => .other hstop hopen hfactor
  | .bracketed hstop hopen h, hlen => .bracketed hstop hopen (h.of_length hlen)
  | .factors hstop hopen hfactor h, hlen => .factors hstop hopen hfactor (h.of_length hlen)

/-- Factors of as many tokens as there is room stay within the limit. -/
theorem ReadsFactors.of_length {flat stops room acc ts nodes after} :
    ReadsFactors flat stops room acc ts nodes after → ts.length ≤ room →
      ReadsFactors False stops room acc ts nodes after
  | .power hacc hexp h, hlen => by
      rw [List.length_cons] at hlen
      have := hexp.suffix.length_le
      exact .power hacc (hexp.of_length (by omega)) (h.of_length (by omega))
  | .factor hfactor hnode h, hlen =>
    .factor hfactor (hnode.of_length hlen) (h.of_length (hnode.suffix.length_le.trans hlen))
  | .done hpower hfactor, _ => .done hpower hfactor

end

/-- Markup of no more tokens than the limit stays within it, so that a concrete text can be shown
to. -/
theorem withinLimit_of_length {markup : String}
    (h : (Token.ofString markup).length ≤ maxNesting) : WithinLimit markup :=
  ⟨_, (ofTokens_reads_all _).of_length h⟩

end FormulaDesk.Markup
