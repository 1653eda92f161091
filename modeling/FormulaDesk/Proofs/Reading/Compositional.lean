import FormulaDesk.Proofs.Dialect.Settled
import FormulaDesk.Proofs.Reading.Constructs

/-! # Reading is compositional

What stands in braces, brackets, `\left` and `\right`, or in the slots of a fraction or a root reads
there as it reads alone. `ReadsSiblings.anywhere` gives this for tokens; the inversion lemmas below
take a reading of a whole construct apart down to the readings of its slots.
-/

namespace FormulaDesk.Markup

variable {flat : Prop} {stops : Stops} {room : Nat} {single : Bool} {t : Token}
  {m m' ts u after : List Token} {acc nodes : List Node} {node node' : Node}

/-! ## Taking a reading apart -/

/-- The first token decides the rule, so a reading can be taken apart at its first operand. -/
theorem ReadsSiblings.first_operand (h : ReadsSiblings flat stops room acc (t :: ts) nodes after)
    (hstop : t.stops stops = false) (hblank : t.isBlank = false) (hstart : t.startsOperand = true) :
    ∃ node middle, ReadsAtom flat stops room false (t :: ts) node middle ∧
      ReadsSiblings flat stops room (node :: acc) middle nodes after := by
  cases h with
  | stop hstop' => rw [hstop] at hstop'; simp at hstop'
  | blank _ hblank' => rw [hblank] at hblank'; simp at hblank'
  | strayBrace => exact absurd hstart (by decide)
  | strayParen => exact absurd hstart (by decide)
  | strayBracket => exact absurd hstart (by decide)
  | strayRight => exact absurd hstart (by decide)
  | power => exact absurd hstart (by decide)
  | script => exact absurd hstart (by decide)
  | operand _ _ _ hnode h => exact ⟨_, _, hnode, h⟩

/-- At the end of the tokens the siblings are those that have been read. -/
theorem ReadsSiblings.at_end (h : ReadsSiblings flat stops room acc [] nodes after) :
    nodes = acc.reverse := by
  cases h
  rfl

/-- Away from the limit an operand that is there is read one level further down. -/
theorem ReadsAtom.one_level_down (h : ReadsAtom False stops room single (t :: ts) node after)
    (hblank : t.isBlank = false) (hend : t.endsOperand stops = false) :
    ∃ room', room = room' + 1 ∧ ReadsNested False stops room' single t ts node after := by
  have hskip : skipBlanks (t :: ts) = t :: ts := skipBlanks_cons hblank
  cases h with
  | missing hskip' => rw [hskip] at hskip'; simp at hskip'
  | ended hskip' hend' =>
    rw [hskip, List.cons.injEq] at hskip'
    rw [← hskip'.1, hend] at hend'
    simp at hend'
  | limit hflat => exact hflat.elim
  | nested hskip' _ h =>
    rw [hskip, List.cons.injEq] at hskip'
    obtain ⟨rfl, rfl⟩ := hskip'
    exact ⟨_, rfl, h⟩

/-- Well-nested tokens inside a group read as they do alone. -/
theorem ReadsSiblings.inside {closer : Closer} {close : Token}
    (h : ReadsSiblings False (closer :: stops) room [] (m ++ close :: u) nodes after)
    (hm : WellNested m) (hclose : close.closer? = some closer) (hroom : room ≤ maxNesting) :
    nodes = Node.ofTokens m ∧ after = close :: u := by
  obtain ⟨hafter, hany⟩ := h.anywhere m (close :: u) rfl hm
    (AtStop.cons hclose List.mem_cons_self)
  -- the same tokens with nothing around them
  have halone := hany [] [] maxNesting (Or.inl rfl) hroom
  rw [List.append_nil] at halone
  exact ⟨(ofTokens_eq_of_reads halone).symm, hafter⟩

section Constructs

variable (hm : WellNested m) (hroom : room ≤ maxNesting)

include hm hroom

/-- What stands between the braces is read as it is read alone, and the reading goes on behind
them. -/
theorem ReadsNested.of_braces
    (h : ReadsNested False stops room single (.char '{') (m ++ .char '}' :: u) node after) :
    node = .group (Node.ofTokens m) ∧ after = u := by
  cases h with
  | group h =>
    obtain ⟨rfl, rfl⟩ := h.inside hm rfl hroom
    exact ⟨rfl, expect_cons rfl⟩
  | number hnum => exact absurd hnum (by decide)
  | word _ hletter => exact absurd hletter (by decide)
  | text hopen => exact absurd rfl hopen.1

/-- The content of a pair of parentheses is read on its own. -/
theorem ReadsNested.of_parens
    (h : ReadsNested False stops room single (.char '(') (m ++ .char ')' :: u) node after) :
    node = .delimited "(" ")" (Node.ofTokens m) ∧ after = u := by
  cases h with
  | paren h =>
    obtain ⟨rfl, rfl⟩ := h.inside hm rfl hroom
    exact ⟨rfl, expect_cons rfl⟩
  | number hnum => exact absurd hnum (by decide)
  | word _ hletter => exact absurd hletter (by decide)
  | text hopen => exact absurd rfl hopen.2.1

/-- The content of a pair of brackets is read on its own. -/
theorem ReadsNested.of_brackets
    (h : ReadsNested False stops room single (.char '[') (m ++ .char ']' :: u) node after) :
    node = .delimited "[" "]" (Node.ofTokens m) ∧ after = u := by
  cases h with
  | bracket h =>
    obtain ⟨rfl, rfl⟩ := h.inside hm rfl hroom
    exact ⟨rfl, expect_cons rfl⟩
  | number hnum => exact absurd hnum (by decide)
  | word _ hletter => exact absurd hletter (by decide)
  | text hopen => exact absurd rfl hopen.2.2

/-- The delimiters are the tokens behind `\left` and `\right`. -/
theorem ReadsNested.of_left {d d' : Token}
    (h : ReadsNested False stops room single (.command "left")
      (d :: (m ++ .command "right" :: d' :: u)) node after) :
    node = .delimited (delimiter [d]).1 (delimiter [d']).1 (Node.ofTokens m) ∧ after = u := by
  -- only the rule for `\left` reads this command
  generalize ht : Token.command "left" = t at h
  cases h with
  | delimited h =>
    have hinside : (delimiter (d :: (m ++ .command "right" :: d' :: u))).2
        = m ++ .command "right" :: d' :: u := by cases d <;> rfl
    rw [hinside] at h
    obtain ⟨rfl, rfl⟩ := h.inside hm rfl hroom
    constructor
    · cases d <;> cases d' <;> rfl
    · cases d' <;> rfl
  | fraction hname => cases ht; exact absurd hname (by decide)
  | function hname => cases ht; exact absurd hname (by decide)
  | command hname => cases ht; exact absurd hname (by decide)
  | _ => simp at ht

/-- A group in the place of an operand. -/
theorem ReadsAtom.of_braces
    (h : ReadsAtom False stops (room + 1) single (.char '{' :: (m ++ .char '}' :: u)) node after) :
    node = .group (Node.ofTokens m) ∧ after = u := by
  obtain ⟨room', hroom', hnested⟩ := h.one_level_down (by decide)
    (endsOperand_eq_false_of_closer rfl)
  exact hnested.of_braces hm (by omega)

end Constructs

/-- A reading that does not meet the limit has a level left where an operand starts. -/
theorem ReadsAtom.room_pos (h : ReadsAtom False stops room single (t :: ts) node after)
    (hblank : t.isBlank = false) (hcloser : t.closer? = none) : ∃ room', room = room' + 1 := by
  obtain ⟨room', hroom, -⟩ := h.one_level_down hblank (endsOperand_eq_false_of_closer hcloser)
  exact ⟨room', hroom⟩

/-- Numerator and denominator are read apart from each other and from what follows. -/
theorem ReadsNested.of_frac (hm : WellNested m) (hm' : WellNested m') (hroom : room ≤ maxNesting)
    (h : ReadsNested False stops room single (.command "frac")
      (.char '{' :: (m ++ .char '}' :: .char '{' :: (m' ++ .char '}' :: u))) node after) :
    node = .fraction (.group (Node.ofTokens m)) (.group (Node.ofTokens m')) ∧ after = u := by
  generalize ht : Token.command "frac" = t at h
  cases h with
  | fraction hname hnum hden =>
    obtain ⟨room', rfl⟩ := hnum.room_pos (by decide) rfl
    obtain ⟨rfl, rfl⟩ := hnum.of_braces hm (by omega)
    obtain ⟨rfl, rfl⟩ := hden.of_braces hm' (by omega)
    exact ⟨rfl, rfl⟩
  | function hname => cases ht; exact absurd hname (by decide)
  | command hname => cases ht; exact absurd hname (by decide)
  | _ => simp at ht

/-- The index is read in its brackets and the radicand in its braces. -/
theorem ReadsNested.of_sqrt (hm : WellNested m) (hm' : WellNested m') (hroom : room ≤ maxNesting)
    (h : ReadsNested False stops room single (.command "sqrt")
      (.char '[' :: (m ++ .char ']' :: .char '{' :: (m' ++ .char '}' :: u))) node after) :
    node = .root (.group (Node.ofTokens m')) (some (.group (Node.ofTokens m))) ∧ after = u := by
  generalize ht : Token.command "sqrt" = t at h
  cases h with
  | fraction hname => cases ht; exact absurd hname (by decide)
  | indexedRoot hskip hindex hrad =>
    rw [skipBlanks_cons (by decide), List.cons.injEq] at hskip
    -- the index first, then the radicand behind its closer
    obtain ⟨-, rfl⟩ := hskip
    obtain ⟨rfl, rfl⟩ := hindex.inside hm rfl hroom
    rw [expect_cons rfl] at hrad
    obtain ⟨room', rfl⟩ := hrad.room_pos (by decide) rfl
    obtain ⟨rfl, rfl⟩ := hrad.of_braces hm' (by omega)
    exact ⟨rfl, rfl⟩
  | root hskip => exact absurd (by rw [skipBlanks_cons (by decide)]; rfl) hskip
  | function hname => cases ht; exact absurd hname (by decide)
  | command hname => cases ht; exact absurd hname (by decide)
  | _ => simp at ht

/-- A reading of one operand alone. -/
theorem ReadsSiblings.sole_operand
    (h : ReadsSiblings False [] maxNesting [] (t :: ts) nodes after)
    (hblank : t.isBlank = false) (hstart : t.startsOperand = true) (hcloser : t.closer? = none)
    (hnode : ∀ {room single node after}, room ≤ maxNesting →
      ReadsNested False [] room single t ts node after → node = node' ∧ after = []) :
    nodes = [node'] := by
  obtain ⟨node, middle, hatom, hrest⟩ :=
    h.first_operand (stops_eq_false_of_closer hcloser) hblank hstart
  obtain ⟨room, hroom, hnested⟩ := hatom.one_level_down hblank
    (endsOperand_eq_false_of_closer hcloser)
  obtain ⟨rfl, rfl⟩ := hnode (by omega) hnested
  exact hrest.at_end

/-! ## Constructs of markup -/

/-- Markup whose brackets come in pairs and that does not end in a lone backslash. -/
structure NestedMarkup (m : String) : Prop where
  nested : WellNested (Token.ofString m)
  closed : dangles false m.toList = false

/-- Nested markup ends in no open command, so what follows it is scanned on its own. -/
theorem NestedMarkup.scan_before {m : String} (hm : NestedMarkup m) {d : Char}
    (hd : Text.isAsciiLetter d = false) (ds : List Char) :
    Token.scan none (m.toList ++ d :: ds) = Token.ofString m ++ Token.scan none (d :: ds) :=
  scan_append hd ds m.toList none hm.closed

/-- The tokens of a construct are those of its parts, with its own between them. -/
theorem ofString_braced {m : String} (hm : NestedMarkup m) :
    Token.ofString (braced m) = .char '{' :: (Token.ofString m ++ [.char '}']) := by
  simp [Token.ofString, braced, Token.scan, hm.scan_before (d := '}') (by decide)]

/-- The tokens of markup in parentheses. -/
theorem ofString_parenthesized {m : String} (hm : NestedMarkup m) :
    Token.ofString (parenthesized m) = .char '(' :: (Token.ofString m ++ [.char ')']) := by
  simp [Token.ofString, parenthesized, Token.scan, hm.scan_before (d := ')') (by decide)]

/-- The tokens of markup in brackets. -/
theorem ofString_bracketed {m : String} (hm : NestedMarkup m) :
    Token.ofString (bracketed m) = .char '[' :: (Token.ofString m ++ [.char ']']) := by
  simp [Token.ofString, bracketed, Token.scan, hm.scan_before (d := ']') (by decide)]

/-- The tokens of markup between `\left(` and `\right)`. -/
theorem ofString_leftRight {m : String} (hm : NestedMarkup m) :
    Token.ofString (leftRight m) = .command "left" :: .char '('
      :: (Token.ofString m ++ .command "right" :: .char ')' :: []) := by
  simp [Token.ofString, leftRight, Token.scan, Text.isAsciiLetter,
    hm.scan_before (d := '\\') (by decide)]

/-- The tokens of a fraction. -/
theorem ofString_fracOf {m₁ m₂ : String} (hm₁ : NestedMarkup m₁) (hm₂ : NestedMarkup m₂) :
    Token.ofString (fracOf m₁ m₂) = .command "frac" :: .char '{' :: (Token.ofString m₁
      ++ .char '}' :: .char '{' :: (Token.ofString m₂ ++ .char '}' :: [])) := by
  simp [Token.ofString, fracOf, braced, Token.scan, Text.isAsciiLetter,
    hm₁.scan_before (d := '}') (by decide), hm₂.scan_before (d := '}') (by decide)]

/-- The tokens of a root with an index. -/
theorem ofString_rootOf {m₁ m₂ : String} (hm₁ : NestedMarkup m₁) (hm₂ : NestedMarkup m₂) :
    Token.ofString (rootOf m₁ m₂) = .command "sqrt" :: .char '[' :: (Token.ofString m₁
      ++ .char ']' :: .char '{' :: (Token.ofString m₂ ++ .char '}' :: [])) := by
  simp [Token.ofString, rootOf, bracketed, braced, Token.scan, Text.isAsciiLetter,
    hm₁.scan_before (d := ']') (by decide), hm₂.scan_before (d := '}') (by decide)]

/-! ## Constructs in place -/

/-- Within the limit a group holds what its inside is read as alone. The other constructs have a
lemma each. -/
theorem ofMarkup_braced {m : String} (hm : NestedMarkup m) (hlimit : WithinLimit (braced m)) :
    Node.ofMarkup (braced m) = [.group (Node.ofMarkup m)] := by
  have h := hlimit.reads
  rw [ofString_braced hm] at h
  exact h.sole_operand (by decide) rfl rfl fun hroom h => h.of_braces hm.nested hroom

/-- Parentheses are one delimited node around what the content reads as. -/
theorem ofMarkup_parenthesized {m : String} (hm : NestedMarkup m)
    (hlimit : WithinLimit (parenthesized m)) :
    Node.ofMarkup (parenthesized m) = [.delimited "(" ")" (Node.ofMarkup m)] := by
  have h := hlimit.reads
  rw [ofString_parenthesized hm] at h
  exact h.sole_operand (by decide) rfl rfl fun hroom h => h.of_parens hm.nested hroom

/-- Brackets are one delimited node around what the content reads as. -/
theorem ofMarkup_bracketed {m : String} (hm : NestedMarkup m)
    (hlimit : WithinLimit (bracketed m)) :
    Node.ofMarkup (bracketed m) = [.delimited "[" "]" (Node.ofMarkup m)] := by
  have h := hlimit.reads
  rw [ofString_bracketed hm] at h
  exact h.sole_operand (by decide) rfl rfl fun hroom h => h.of_brackets hm.nested hroom

/-- `\left(` and `\right)` read as parentheses do. -/
theorem ofMarkup_leftRight {m : String} (hm : NestedMarkup m)
    (hlimit : WithinLimit (leftRight m)) :
    Node.ofMarkup (leftRight m) = [.delimited "(" ")" (Node.ofMarkup m)] := by
  have h := hlimit.reads
  rw [ofString_leftRight hm] at h
  exact h.sole_operand rfl rfl rfl fun hroom h => h.of_left hm.nested hroom

/-- A fraction is one node over the readings of its two parts. -/
theorem ofMarkup_fracOf {m₁ m₂ : String} (hm₁ : NestedMarkup m₁) (hm₂ : NestedMarkup m₂)
    (hlimit : WithinLimit (fracOf m₁ m₂)) :
    Node.ofMarkup (fracOf m₁ m₂)
      = [.fraction (.group (Node.ofMarkup m₁)) (.group (Node.ofMarkup m₂))] := by
  have h := hlimit.reads
  rw [ofString_fracOf hm₁ hm₂] at h
  exact h.sole_operand rfl rfl rfl fun hroom h => h.of_frac hm₁.nested hm₂.nested hroom

/-- A root with an index is one node over the readings of radicand and index. -/
theorem ofMarkup_rootOf {m₁ m₂ : String} (hm₁ : NestedMarkup m₁) (hm₂ : NestedMarkup m₂)
    (hlimit : WithinLimit (rootOf m₁ m₂)) :
    Node.ofMarkup (rootOf m₁ m₂)
      = [.root (.group (Node.ofMarkup m₂)) (some (.group (Node.ofMarkup m₁)))] := by
  have h := hlimit.reads
  rw [ofString_rootOf hm₁ hm₂] at h
  exact h.sole_operand rfl rfl rfl fun hroom h => h.of_sqrt hm₁.nested hm₂.nested hroom

/-- Well-nested markup reads inside every construct as it reads alone, so braces around it do not
change what it converts to. -/
theorem ofMarkup_compositional {m m₁ m₂ : String} (hm : NestedMarkup m) (hm₁ : NestedMarkup m₁)
    (hm₂ : NestedMarkup m₂) :
    (WithinLimit (braced m) → Node.ofMarkup (braced m) = [.group (Node.ofMarkup m)] ∧
      (Conversion.evaluableOf (braced m)).value = (Conversion.evaluableOf m).value) ∧
    (WithinLimit (parenthesized m) →
      Node.ofMarkup (parenthesized m) = [.delimited "(" ")" (Node.ofMarkup m)]) ∧
    (WithinLimit (bracketed m) →
      Node.ofMarkup (bracketed m) = [.delimited "[" "]" (Node.ofMarkup m)]) ∧
    (WithinLimit (leftRight m) →
      Node.ofMarkup (leftRight m) = [.delimited "(" ")" (Node.ofMarkup m)]) ∧
    (WithinLimit (fracOf m₁ m₂) → Node.ofMarkup (fracOf m₁ m₂)
      = [.fraction (.group (Node.ofMarkup m₁)) (.group (Node.ofMarkup m₂))]) ∧
    (WithinLimit (rootOf m₁ m₂) → Node.ofMarkup (rootOf m₁ m₂)
      = [.root (.group (Node.ofMarkup m₂)) (some (.group (Node.ofMarkup m₁)))]) := by
  refine ⟨fun hlimit => ?_, ofMarkup_parenthesized hm, ofMarkup_bracketed hm,
    ofMarkup_leftRight hm, ofMarkup_fracOf hm₁ hm₂, ofMarkup_rootOf hm₁ hm₂⟩
  have hbraced := ofMarkup_braced hm hlimit
  refine ⟨hbraced, ?_⟩
  have hprint : Dialect.evaluable.print (Node.ofMarkup (braced m))
      = Dialect.evaluable.print (Node.ofMarkup m) := by
    rw [hbraced]
    simp [Dialect.print, Dialect.printSiblings, Dialect.printNode]
  rw [Dialect.evaluableOf_value, Dialect.evaluableOf_value, Dialect.convert, Dialect.convert,
    hprint]

/-- A sign of a power with nothing behind it is well nested. -/
theorem nestedMarkup_power : NestedMarkup "x^" :=
  ⟨.token rfl (.token rfl .nil), rfl⟩

/-- A function at the very end is well nested. -/
theorem nestedMarkup_function : NestedMarkup "(1)\\sin" :=
  ⟨.parens (.token rfl .nil) (.token rfl .nil), rfl⟩

/-- A power without an exponent and a function without an argument stay what they are. -/
theorem ofMarkup_compositional_dangling :
    Node.ofMarkup (braced "x^") = [.group (Node.ofMarkup "x^")] ∧
      Node.ofMarkup (rootOf "(1)\\sin" "x^")
        = [.root (.group (Node.ofMarkup "x^")) (some (.group (Node.ofMarkup "(1)\\sin")))] := by
  obtain ⟨hbraced, -, -, -, -, hroot⟩ :=
    ofMarkup_compositional nestedMarkup_power nestedMarkup_function nestedMarkup_power
  exact ⟨(hbraced (withinLimit_of_length (by decide))).1,
    hroot (withinLimit_of_length (by decide))⟩

end FormulaDesk.Markup
