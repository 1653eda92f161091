import FormulaDesk.Proofs.Reading.Conservation
import FormulaDesk.Proofs.Scripts.Implicit

/-! # Readers with blanks in front of them

A reading without blanks is followed rule by rule by the reading with them (`ReadsSiblings.spaced`),
as long as the blanks stand behind a command or a delimiter.

* `Spaced`: the tokens that both readings still have, the blanks among them or behind;
* `Gapped`: where the readings part, one is behind the blanks and the other in front of them. Every
  reader but one skips blanks before it looks at a token, and so catches up;
* `GoesOn`: the exception is the loop over the factors of an argument without brackets, which ends
  at the blanks.
-/

namespace FormulaDesk.Markup

/-! ## Blanks and where they stand -/

/-- One blank or more. -/
structure Blanks where
  text : String
  nonempty : text ≠ ""
  blank : ∀ c ∈ text.toList, Text.isBlank c = true

/-- The blanks as tokens. -/
abbrev Blanks.tokens (blanks : Blanks) : List Token := charTokens blanks.text.toList

/-- A function with an argument without brackets, which is a group in the tree. -/
def HasBareArgument (node : Node) : Prop :=
  ∃ fn nodes script power, node = .function fn (some (.group nodes)) script power

/-- From `t` on, a function is read whose argument has no brackets and ends before `after`. -/
def EndsArgument (t : Token) (rest after : List Token) : Prop :=
  ∃ stops room single node, HasBareArgument node ∧
    ReadsNested True stops room single t rest node after

/-! ## Tokens with the blanks and without -/

/-- The same tokens without the blanks and with them. The blanks stand before `post`, and behind a
command or a delimiter. `delimiting` says whether the first token is a delimiter. -/
inductive Spaced (blanks : Blanks) (post : List Token) :
    (delimiting : Bool) → List Token → List Token → Prop
  | same {delimiting ts} : Spaced blanks post delimiting ts ts
  | behindCommand {name} (htaken : (Token.command name).takesDelimiter = false)
      (huncut : EndsFactors post ∨
        ¬ EndsArgument (.command name) (blanks.tokens ++ post) (blanks.tokens ++ post)) :
      Spaced blanks post false (.command name :: post) (.command name :: (blanks.tokens ++ post))
  | behindDelimiter {t} : Spaced blanks post true (t :: post) (t :: (blanks.tokens ++ post))
  | cons {delimiting t ts ts'} (huncut : delimiting = false →
        EndsFactors post ∨ ¬ EndsArgument t ts' (blanks.tokens ++ post))
      (h : Spaced blanks post (!delimiting && t.takesDelimiter) ts ts') :
      Spaced blanks post delimiting (t :: ts) (t :: ts')

/-- The same tokens, of which those without the blanks may start behind them already. -/
def Gapped (blanks : Blanks) (post ts ts' : List Token) : Prop :=
  Spaced blanks post false ts ts' ∨ ts = post ∧ ts' = blanks.tokens ++ post

/-- What is read with the blanks is what is read without them, or it ends at the blanks with an
argument that would go on behind them. -/
def GoesOn {α : Type} (blanks : Blanks) (post : List Token) (bare : α → Prop) (x : α)
    (after : List Token) (x' : α) (after' : List Token) : Prop :=
  x' = x ∧ Gapped blanks post after after' ∨
    ¬ EndsFactors post ∧ bare x' ∧ after' = blanks.tokens ++ post

variable {blanks : Blanks} {stops : Stops} {room : Nat} {single delimiting : Bool} {t : Token}
  {closer : Closer} {ts ts' us post rest after after' : List Token} {acc nodes : List Node}
  {node : Node} {c : Char}

/-! ## Blanks -/

namespace Blanks

variable (blanks)

/-- Inserted blanks are skipped as blanks. -/
theorem isBlank_tokens : ∀ t ∈ blanks.tokens, t.isBlank = true := by
  intro t ht
  obtain ⟨c, hc, rfl⟩ := List.mem_map.mp ht
  exact blanks.blank c hc

/-- There is at least one blank to insert. -/
theorem exists_cons : ∃ c cs, blanks.text.toList = c :: cs ∧ Text.isBlank c = true := by
  have hne : blanks.text.toList ≠ [] := by simpa using blanks.nonempty
  obtain ⟨c, cs, hcs⟩ := List.exists_cons_of_ne_nil hne
  exact ⟨c, cs, hcs, blanks.blank c (hcs ▸ List.mem_cons_self)⟩

/-- Inserted blanks are scanned as tokens of their own. -/
theorem scan (cs : List Char) :
    Token.scan none (blanks.text.toList ++ cs) = blanks.tokens ++ Token.scan none cs := by
  refine scan_chars ?_ cs
  rintro c hc rfl
  exact absurd (blanks.blank _ hc) (by decide)

/-- Where blanks are skipped, these are skipped too. -/
theorem skipBlanks_append (ts : List Token) :
    skipBlanks (blanks.tokens ++ ts) = skipBlanks ts :=
  List.dropWhile_append_of_pos blanks.isBlank_tokens

/-- Siblings are read on behind blanks. -/
theorem readsSiblings {flat : Prop} (h : ReadsSiblings flat stops room acc ts nodes after) :
    ReadsSiblings flat stops room acc (blanks.tokens ++ ts) nodes after := by
  have hblank := blanks.isBlank_tokens
  generalize blanks.tokens = bs at hblank ⊢
  induction bs with
  | nil => exact h
  | cons t bs ih =>
    have ht := hblank t List.mem_cons_self
    have hcloser := closer?_eq_none_of_ordinary (isOrdinary_of_isBlank ht)
    exact .blank (stops_eq_false_of_closer hcloser) ht
      (ih fun t ht => hblank t (List.mem_cons_of_mem _ ht))

/-- A blank is no factor and no caret. -/
theorem endsFactors (ts : List Token) : EndsFactors (blanks.tokens ++ ts) := by
  obtain ⟨b, bs, hbs, hb⟩ := blanks.exists_cons
  intro c hc
  rw [Blanks.tokens, hbs] at hc
  obtain rfl : b = c := by simpa using hc
  refine ⟨?_, ?_⟩
  · by_contra hfactor
    have hnot : Text.isBlank b = false := isBlank_eq_false_of_factor (by simpa using hfactor)
    simp [hnot] at hb
  · rintro rfl
    exact absurd hb (by decide)

end Blanks

/-- It ends there with what it has, whatever rule is tried. -/
theorem EndsFactors.eq_of_reads (h : EndsFactors ts)
    (hreads : ReadsFactors True stops room acc ts nodes after) :
    nodes = acc.reverse ∧ after = ts := by
  cases hreads with
  | power _ _ _ => exact absurd rfl (h '^' rfl).2
  | factor hfactor _ _ =>
    rw [(h _ rfl).1] at hfactor
    simp at hfactor
  | done _ _ => exact ⟨rfl, rfl⟩

/-! ## How the readers take the tokens -/

namespace Spaced

/-- Both have the same first token, unless there is none. -/
theorem exists_tail (h : Spaced blanks post delimiting (t :: ts) us) : ∃ ts', us = t :: ts' := by
  cases h <;> exact ⟨_, rfl⟩

/-- Blanks are put behind commands, so an empty text gets none. -/
theorem eq_nil (h : Spaced blanks post delimiting [] us) : us = [] := by
  cases h
  rfl

/-- Blanks are put behind tokens, so the first one stays. -/
theorem head?_eq (h : Spaced blanks post delimiting ts us) : ts.head? = us.head? := by
  cases h <;> rfl

/-- The blanks do not stand behind a character, unless it is a delimiter. -/
theorem of_char (h : Spaced blanks post false (.char c :: ts) (.char c :: ts')) :
    Spaced blanks post false ts ts' := by
  cases h with
  | same => exact .same
  | cons _ h => exact h

/-- Behind a character no blanks are put. -/
theorem char (h : Spaced blanks post false (.char c :: ts) us) :
    ∃ ts', us = .char c :: ts' ∧ Spaced blanks post false ts ts' := by
  obtain ⟨ts', rfl⟩ := h.exists_tail
  exact ⟨ts', rfl, h.of_char⟩

/-- Behind a token that takes no delimiter the blanks may come next. -/
theorem gapped_tail (h : Spaced blanks post false (t :: ts) (t :: ts'))
    (ht : t.takesDelimiter = false) : Gapped blanks post ts ts' := by
  cases h with
  | same => exact .inl .same
  | behindCommand _ _ => exact .inr ⟨rfl, rfl⟩
  | cons _ h =>
    rw [ht] at h
    exact .inl h

/-- Behind a token that takes one, the blanks come at the earliest behind the delimiter. -/
theorem gapped_delimiter (h : Spaced blanks post false (t :: ts) (t :: ts'))
    (ht : t.takesDelimiter = true) :
    (delimiter ts).1 = (delimiter ts').1 ∧
      Gapped blanks post (delimiter ts).2 (delimiter ts').2 := by
  cases h with
  | same => exact ⟨rfl, .inl .same⟩
  | behindCommand htaken _ => simp [ht] at htaken
  | cons _ h =>
    rw [ht] at h
    cases h with
    | same => exact ⟨rfl, .inl .same⟩
    | @behindDelimiter d => cases d <;> exact ⟨rfl, .inr ⟨rfl, rfl⟩⟩
    | @cons _ d _ _ _ h => cases d <;> exact ⟨rfl, .inl h⟩

/-- What the two token sequences are told apart by: nothing, or an argument that does not end at the
blanks. -/
theorem uncut (h : Spaced blanks post false (t :: ts) (t :: ts')) :
    ts = ts' ∨ EndsFactors post ∨ ¬ EndsArgument t ts' (blanks.tokens ++ post) := by
  cases h with
  | same => exact .inl rfl
  | behindCommand _ huncut => exact .inr huncut
  | cons huncut _ => exact .inr (huncut rfl)

/-- Skipping blanks passes the inserted ones with those that were there. -/
theorem skipBlanks (h : Spaced blanks post false ts ts') :
    Spaced blanks post false (skipBlanks ts) (skipBlanks ts') := by
  induction ts generalizing ts' with
  | nil =>
    rw [h.eq_nil]
    exact .same
  | cons t ts ih =>
    obtain ⟨ts', rfl⟩ := h.exists_tail
    by_cases hblank : t.isBlank = true
    · cases t with
      | command name => simp [Token.isBlank] at hblank
      | char c => simpa [Markup.skipBlanks, hblank] using ih h.of_char
    · rw [Bool.not_eq_true] at hblank
      rwa [skipBlanks_cons hblank, skipBlanks_cons hblank]

/-- Only characters are taken for a run, so the blanks are not behind one of them. -/
theorem takeRun (h : Spaced blanks post false ts ts') (accept : Char → Bool) :
    (takeRun accept ts).1 = (takeRun accept ts').1 ∧
      Spaced blanks post false (takeRun accept ts).2 (takeRun accept ts').2 := by
  induction ts generalizing ts' with
  | nil =>
    rw [h.eq_nil]
    exact ⟨rfl, .same⟩
  | cons t ts ih =>
    obtain ⟨ts', rfl⟩ := h.exists_tail
    cases t with
    | command name => exact ⟨rfl, h⟩
    | char c =>
      obtain ⟨hrun, hrest⟩ := ih h.of_char
      by_cases hc : accept c = true
      · simpa [Markup.takeRun, hc, hrun] using hrest
      · simpa [Markup.takeRun, hc] using h

/-- A number or word is the same in both. -/
theorem readRun (h : Spaced blanks post false (.char c :: ts) (.char c :: ts')) (single : Bool)
    (accept : Char → Bool) :
    (readRun single accept c ts).1 = (readRun single accept c ts').1 ∧
      Spaced blanks post false (readRun single accept c ts).2 (readRun single accept c ts').2 := by
  obtain ⟨hrun, hrest⟩ := h.of_char.takeRun accept
  cases single with
  | true => exact ⟨rfl, h.of_char⟩
  | false => simpa [Markup.readRun, hrun] using hrest

/-- A closer may be what the blanks stand behind. -/
theorem expect (h : Spaced blanks post false ts ts') (hcloser : closer ≠ .right) :
    Gapped blanks post (expect closer ts) (expect closer ts') := by
  cases ts with
  | nil =>
    rw [h.eq_nil]
    exact .inl .same
  | cons t ts =>
    obtain ⟨ts', rfl⟩ := h.exists_tail
    simp only [Markup.expect]
    split
    · next ht =>
      refine h.gapped_tail ?_
      unfold Token.closer? at ht
      split at ht <;> simp_all [Token.takesDelimiter]
    · exact .inl h

/-- The same holds of the delimiter behind `\right`, where the first of the blanks would be the
delimiter. -/
theorem closeDelimited (h : Spaced blanks post false ts ts') :
    (closeDelimited ts).1 = (closeDelimited ts').1 ∧
      Gapped blanks post (closeDelimited ts).2 (closeDelimited ts').2 := by
  cases ts with
  | nil =>
    rw [h.eq_nil]
    exact ⟨rfl, .inl .same⟩
  | cons t ts =>
    obtain ⟨ts', rfl⟩ := h.exists_tail
    simp only [Markup.closeDelimited]
    split
    · next ht =>
      obtain rfl := eq_right_of_closer (beq_iff_eq.mp ht)
      exact h.gapped_delimiter rfl
    · exact ⟨rfl, .inl h⟩

/-- Below the limit a token is read alone, and the blanks may come right behind it. -/
theorem flatAtom (h : Spaced blanks post false (t :: ts) (t :: ts'))
    (hright : t.closer? ≠ some .right) :
    (flatAtom t ts).1 = (flatAtom t ts').1 ∧
      Gapped blanks post (flatAtom t ts).2 (flatAtom t ts').2 := by
  cases t with
  | char c =>
    simp only [Markup.flatAtom]
    split_ifs <;> exact ⟨rfl, .inl h.of_char⟩
  | command name =>
    simp only [Markup.flatAtom]
    split_ifs with hleft hset
    · exact ⟨rfl, (h.gapped_delimiter (by simp [Token.takesDelimiter, hleft])).2⟩
    · exact ⟨rfl, h.gapped_tail (by simp_all [Token.takesDelimiter])⟩
    · have hname : name ≠ "left" := by simpa using hleft
      exact ⟨rfl, h.gapped_tail (takesDelimiter_command hname (ne_right_of_closer hright))⟩

end Spaced

namespace Gapped

theorem skipBlanks (h : Gapped blanks post ts ts') :
    Spaced blanks post false (skipBlanks ts) (skipBlanks ts') := by
  rcases h with h | ⟨rfl, rfl⟩
  · exact h.skipBlanks
  · rw [blanks.skipBlanks_append]
    exact .same

/-- Both readings find the same token behind the blanks that they skip. -/
theorem head (h : Gapped blanks post ts ts') (hskip : Markup.skipBlanks ts = t :: rest) :
    ∃ us, Markup.skipBlanks ts' = t :: us ∧ Spaced blanks post false (t :: rest) (t :: us) := by
  have hs := h.skipBlanks
  rw [hskip] at hs
  obtain ⟨us, hus⟩ := hs.exists_tail
  exact ⟨us, hus, hus ▸ hs⟩

/-- Siblings go on behind the blanks, if not before. -/
theorem siblings (h : Gapped blanks post ts ts')
    (hreads : ReadsSiblings True stops room acc ts nodes after)
    (ih : ∀ ts', Spaced blanks post false ts ts' → ∃ after',
      ReadsSiblings True stops room acc ts' nodes after' ∧
        Spaced blanks post false after after') :
    ∃ after', ReadsSiblings True stops room acc ts' nodes after' ∧
      Spaced blanks post false after after' := by
  rcases h with h | ⟨rfl, rfl⟩
  · exact ih ts' h
  · exact ⟨after, blanks.readsSiblings hreads, .same⟩

end Gapped

/-- The blanks end an argument without brackets. -/
theorem ReadsFactors.at_blanks (h : ReadsFactors True stops room acc post nodes after) :
    ∃ nodes' after', ReadsFactors True stops room acc (blanks.tokens ++ post) nodes' after' ∧
      GoesOn blanks post (fun _ => True) nodes after nodes' after' := by
  refine ⟨acc.reverse, blanks.tokens ++ post, (blanks.endsFactors post).done acc, ?_⟩
  by_cases hends : EndsFactors post
  · obtain ⟨rfl, rfl⟩ := hends.eq_of_reads h
    exact .inl ⟨rfl, .inr ⟨rfl, rfl⟩⟩
  · exact .inr ⟨hends, trivial, rfl⟩

/-- A function that is read from `t` on does not end at the blanks, so it is read as without
them. -/
theorem GoesOn.of_uncut {node' : Node}
    (h : GoesOn blanks post HasBareArgument node after node' after')
    (huncut : EndsFactors post ∨ ¬ EndsArgument t ts' (blanks.tokens ++ post))
    (hreads : ReadsNested True stops room single t ts' node' after') :
    node' = node ∧ Gapped blanks post after after' := by
  rcases h with h | ⟨hends, hbare, rfl⟩
  · exact h
  · rcases huncut with hends' | huncut
    · exact absurd hends' hends
    · exact absurd ⟨stops, room, single, node', hbare, hreads⟩ huncut

mutual

-- Induction on the derivation without the blanks, which is followed rule by rule. Siblings end at a
-- token that is no blank, so both readings have it in front of them; any other reader may stop where
-- the blanks are and leave a gap.
/-- Siblings are read alike around inserted blanks. -/
theorem ReadsSiblings.spaced {stops room acc ts nodes after} :
    ReadsSiblings True stops room acc ts nodes after → ∀ ts', Spaced blanks post false ts ts' →
      ∃ after', ReadsSiblings True stops room acc ts' nodes after' ∧
        Spaced blanks post false after after'
  | .finish, ts', hs => by
      rw [hs.eq_nil]
      exact ⟨[], .finish, .same⟩
  | .stop hstop, ts', hs => by
      obtain ⟨us, rfl⟩ := hs.exists_tail
      exact ⟨_, .stop hstop, hs⟩
  | .blank (t := t) hstop hblank h, ts', hs => by
      have ih := h.spaced
      cases t with
      | command name => simp [Token.isBlank] at hblank
      | char c =>
        obtain ⟨us, rfl, hus⟩ := hs.char
        obtain ⟨after', h', hafter⟩ := ih us hus
        exact ⟨after', .blank hstop hblank h', hafter⟩
  | .strayBrace hstop h, ts', hs => by
      have ih := h.spaced
      obtain ⟨us, rfl, hus⟩ := hs.char
      obtain ⟨after', h', hafter⟩ := ih us hus
      exact ⟨after', .strayBrace hstop h', hafter⟩
  | .strayParen hstop h, ts', hs => by
      have ih := h.spaced
      obtain ⟨us, rfl, hus⟩ := hs.char
      obtain ⟨after', h', hafter⟩ := ih us hus
      exact ⟨after', .strayParen hstop h', hafter⟩
  | .strayBracket hstop h, ts', hs => by
      have ih := h.spaced
      obtain ⟨us, rfl, hus⟩ := hs.char
      obtain ⟨after', h', hafter⟩ := ih us hus
      exact ⟨after', .strayBracket hstop h', hafter⟩
  | .strayRight hstop h, ts', hs => by
      have ih := h.spaced
      obtain ⟨us, rfl⟩ := hs.exists_tail
      obtain ⟨after', h', hafter⟩ := (hs.gapped_delimiter rfl).2.siblings h ih
      exact ⟨after', .strayRight hstop h', hafter⟩
  | .power hexp h, ts', hs => by
      have ihexp := hexp.spaced
      have ih := h.spaced
      obtain ⟨us, rfl, hus⟩ := hs.char
      obtain ⟨middle', hexp', hmiddle⟩ := ihexp us (.inl hus)
      obtain ⟨after', h', hafter⟩ := hmiddle.siblings h ih
      exact ⟨after', .power hexp' h', hafter⟩
  | .script hscript h, ts', hs => by
      have ihscript := hscript.spaced
      have ih := h.spaced
      obtain ⟨us, rfl, hus⟩ := hs.char
      obtain ⟨middle', hscript', hmiddle⟩ := ihscript us (.inl hus)
      obtain ⟨after', h', hafter⟩ := hmiddle.siblings h ih
      exact ⟨after', .script hscript' h', hafter⟩
  | .operand hstop hblank hstart hnode h, ts', hs => by
      have ihnode := hnode.spaced
      have ih := h.spaced
      obtain ⟨us, rfl⟩ := hs.exists_tail
      obtain ⟨middle', hnode', hmiddle⟩ := ihnode _ (.inl hs)
      obtain ⟨after', h', hafter⟩ := hmiddle.siblings h ih
      exact ⟨after', .operand hstop hblank hstart hnode' h', hafter⟩

/-- An atom is read alike around inserted blanks. -/
theorem ReadsAtom.spaced {stops room single ts node after} :
    ReadsAtom True stops room single ts node after → ∀ ts', Gapped blanks post ts ts' →
      ∃ after', ReadsAtom True stops room single ts' node after' ∧ Gapped blanks post after after'
  | .missing hskip, ts', hg => by
      have hs := hg.skipBlanks
      rw [hskip] at hs
      exact ⟨[], .missing hs.eq_nil, .inl .same⟩
  | .ended hskip hend, ts', hg => by
      obtain ⟨us, hus, hs⟩ := hg.head hskip
      exact ⟨_, .ended hus hend, .inl hs⟩
  | .limit (t := t) hflat hskip hend, ts', hg => by
      obtain ⟨us, hus, hs⟩ := hg.head hskip
      obtain ⟨hnode, hafter⟩ := hs.flatAtom (not_right_of_endsOperand hend)
      rw [hnode]
      exact ⟨_, .limit hflat hus hend, hafter⟩
  | .nested hskip hend h, ts', hg => by
      have ih := h.spaced
      obtain ⟨us, hus, hs⟩ := hg.head hskip
      obtain ⟨after', h', hafter⟩ := ih (not_right_of_endsOperand hend) us hs
      exact ⟨after', .nested hus hend h', hafter⟩

/-- One construct. Only where a function is read can the blanks end an argument, and there they are
known not to. -/
theorem ReadsNested.spaced {stops room single t ts node after} :
    ReadsNested True stops room single t ts node after → t.closer? ≠ some .right →
      ∀ ts', Spaced blanks post false (t :: ts) (t :: ts') →
      ∃ after', ReadsNested True stops room single t ts' node after' ∧
        Gapped blanks post after after'
  | .group h, _, ts', hs => by
      have ih := h.spaced
      obtain ⟨after', h', hafter⟩ := ih ts' hs.of_char
      exact ⟨_, .group h', hafter.expect (by decide)⟩
  | .paren h, _, ts', hs => by
      have ih := h.spaced
      obtain ⟨after', h', hafter⟩ := ih ts' hs.of_char
      exact ⟨_, .paren h', hafter.expect (by decide)⟩
  | .bracket h, _, ts', hs => by
      have ih := h.spaced
      obtain ⟨after', h', hafter⟩ := ih ts' hs.of_char
      exact ⟨_, .bracket h', hafter.expect (by decide)⟩
  | .number hnum, _, ts', hs => by
      obtain ⟨hrun, hafter⟩ := hs.readRun single isNumberChar
      rw [hrun]
      exact ⟨_, .number hnum, .inl hafter⟩
  | .word hnum hletter, _, ts', hs => by
      obtain ⟨hrun, hafter⟩ := hs.readRun single Text.isLetter
      rw [hrun]
      exact ⟨_, .word hnum hletter, .inl hafter⟩
  | .text hopen hnum hletter, _, ts', hs => ⟨ts', .text hopen hnum hletter, .inl hs.of_char⟩
  | .delimited h, _, ts', hs => by
      have ih := h.spaced
      obtain ⟨hopener, hinside⟩ := hs.gapped_delimiter rfl
      obtain ⟨after', h', hafter⟩ := hinside.siblings h ih
      obtain ⟨hcloser, hrest⟩ := hafter.closeDelimited
      rw [hopener, hcloser]
      exact ⟨_, .delimited h', hrest⟩
  | .set h, _, ts', hs => by
      have ih := h.spaced
      obtain ⟨after', h', hafter⟩ := (hs.gapped_tail (by decide)).siblings h ih
      exact ⟨_, .set h', hafter.expect (by decide)⟩
  | .fraction hname hnum hden, hright, ts', hs => by
      have ihnum := hnum.spaced
      have ihden := hden.spaced
      have htaken := takesDelimiter_command (ne_of_isFractionCommand hname).1
        (ne_right_of_closer hright)
      obtain ⟨middle', hnum', hmiddle⟩ := ihnum ts' (hs.gapped_tail htaken)
      obtain ⟨after', hden', hafter⟩ := ihden middle' hmiddle
      exact ⟨after', .fraction hname hnum' hden', hafter⟩
  | .indexedRoot hskip hindex hrad, _, ts', hs => by
      have ihindex := hindex.spaced
      have ihrad := hrad.spaced
      obtain ⟨us, hus, hinside⟩ := (hs.gapped_tail (by decide)).head hskip
      obtain ⟨middle', hindex', hmiddle⟩ := ihindex us hinside.of_char
      obtain ⟨after', hrad', hafter⟩ := ihrad _ (hmiddle.expect (by decide))
      exact ⟨after', .indexedRoot hus hindex' hrad', hafter⟩
  | .root hskip hrad, _, ts', hs => by
      have ihrad := hrad.spaced
      have hbody := (hs.gapped_tail (by decide)).skipBlanks
      obtain ⟨after', hrad', hafter⟩ := ihrad _ (.inl hbody)
      exact ⟨after', .root (hbody.head?_eq ▸ hskip) hrad', hafter⟩
  | .namedFunction hinner hfn h, _, ts', hs => by
      have ihinner := hinner.spaced
      have ih := h.spaced
      obtain ⟨middle', hinner', hmiddle⟩ := ihinner ts' (hs.gapped_tail (by decide))
      obtain ⟨node', after', h', hgoes⟩ := ih middle' hmiddle
      -- the call would end at the blanks only with an argument that goes on behind them
      rcases hs.uncut with rfl | huncut
      · exact ⟨after, .namedFunction hinner hfn h, .inl .same⟩
      · have hnamed := @ReadsNested.namedFunction True stops room single _ _ _ _ _ _ hinner' hfn h'
        obtain ⟨rfl, hafter⟩ := hgoes.of_uncut huncut hnamed
        exact ⟨after', hnamed, hafter⟩
  | .named hinner hfn, _, ts', hs => by
      have ihinner := hinner.spaced
      obtain ⟨after', hinner', hafter⟩ := ihinner ts' (hs.gapped_tail (by decide))
      exact ⟨after', .named hinner' hfn, hafter⟩
  | .function hname hfn h, hright, ts', hs => by
      have ih := h.spaced
      have htaken := takesDelimiter_command (ne_left_of_not_structured hname)
        (ne_right_of_closer hright)
      obtain ⟨node', after', h', hgoes⟩ := ih ts' (hs.gapped_tail htaken)
      rcases hs.uncut with rfl | huncut
      · exact ⟨after, .function hname hfn h, .inl .same⟩
      · have hcall := @ReadsNested.function True stops room single _ _ _ _ _ hname hfn h'
        obtain ⟨rfl, hafter⟩ := hgoes.of_uncut huncut hcall
        exact ⟨after', hcall, hafter⟩
  | .command hname hfn, hright, ts', hs =>
    ⟨ts', .command hname hfn, hs.gapped_tail
      (takesDelimiter_command (ne_left_of_not_structured hname) (ne_right_of_closer hright))⟩

/-- A function goes on behind the blanks, or the blanks have cut its argument. -/
theorem ReadsFunction.spaced {stops room fn script power ts node after} :
    ReadsFunction True stops room fn script power ts node after →
      ∀ ts', Gapped blanks post ts ts' →
      ∃ node' after', ReadsFunction True stops room fn script power ts' node' after' ∧
        GoesOn blanks post HasBareArgument node after node' after'
  | .script hskip hnode h, ts', hg => by
      have ihnode := hnode.spaced
      have ih := h.spaced
      obtain ⟨us, hus, hs⟩ := hg.head hskip
      obtain ⟨middle', hnode', hmiddle⟩ := ihnode us (.inl hs.of_char)
      obtain ⟨node', after', h', hgoes⟩ := ih middle' hmiddle
      exact ⟨node', after', .script hus hnode' h', hgoes⟩
  | .power hskip hnode h, ts', hg => by
      have ihnode := hnode.spaced
      have ih := h.spaced
      obtain ⟨us, hus, hs⟩ := hg.head hskip
      obtain ⟨middle', hnode', hmiddle⟩ := ihnode us (.inl hs.of_char)
      obtain ⟨node', after', h', hgoes⟩ := ih middle' hmiddle
      exact ⟨node', after', .power hus hnode' h', hgoes⟩
  | .argument hscript hpower h, ts', hg => by
      have ih := h.spaced
      have hs := hg.skipBlanks
      obtain ⟨argument', after', h', hgoes⟩ := ih _ hs
      rw [hs.head?_eq] at hscript hpower
      refine ⟨_, after', .argument hscript hpower h', ?_⟩
      -- the call is the same, or its argument is the one that the blanks cut
      rcases hgoes with ⟨rfl, hafter⟩ | ⟨hends, ⟨nodes, rfl⟩, hafter⟩
      · exact .inl ⟨rfl, hafter⟩
      · exact .inr ⟨hends, ⟨_, _, _, _, rfl⟩, hafter⟩

/-- An argument is read alike around inserted blanks, unless they cut it short. -/
theorem ReadsArgument.spaced {stops room ts argument after} :
    ReadsArgument True stops room ts argument after → ∀ ts', Spaced blanks post false ts ts' →
      ∃ argument' after', ReadsArgument True stops room ts' argument' after' ∧
        GoesOn blanks post (fun argument => ∃ nodes, argument = some (.group nodes)) argument after
          argument' after'
  | .missing, ts', hs => by
      rw [hs.eq_nil]
      exact ⟨_, _, .missing, .inl ⟨rfl, .inl .same⟩⟩
  | .ended hstop, ts', hs => by
      obtain ⟨us, rfl⟩ := hs.exists_tail
      exact ⟨_, _, .ended hstop, .inl ⟨rfl, .inl hs⟩⟩
  | .other hstop hopen hfactor, ts', hs => by
      obtain ⟨us, rfl⟩ := hs.exists_tail
      exact ⟨_, _, .other hstop hopen hfactor, .inl ⟨rfl, .inl hs⟩⟩
  | .bracketed hstop hopen h, ts', hs => by
      have ih := h.spaced
      obtain ⟨us, rfl⟩ := hs.exists_tail
      obtain ⟨after', h', hafter⟩ := ih _ (.inl hs)
      exact ⟨_, _, .bracketed hstop hopen h', .inl ⟨rfl, hafter⟩⟩
  | .factors hstop hopen hfactor h, ts', hs => by
      have ih := h.spaced
      obtain ⟨us, rfl⟩ := hs.exists_tail
      obtain ⟨nodes', after', h', hgoes⟩ := ih _ (.inl hs)
      refine ⟨_, after', .factors hstop hopen hfactor h', ?_⟩
      rcases hgoes with ⟨rfl, hafter⟩ | ⟨hends, -, hafter⟩
      · exact .inl ⟨rfl, hafter⟩
      · exact .inr ⟨hends, ⟨_, rfl⟩, hafter⟩

/-- The factors of a bare argument are read alike around inserted blanks, unless they cut it
short. -/
theorem ReadsFactors.spaced {stops room acc ts nodes after} :
    ReadsFactors True stops room acc ts nodes after → ∀ ts', Gapped blanks post ts ts' →
      ∃ nodes' after', ReadsFactors True stops room acc ts' nodes' after' ∧
        GoesOn blanks post (fun _ => True) nodes after nodes' after'
  | .power hacc hexp h, ts', hg => by
      have ihexp := hexp.spaced
      have ih := h.spaced
      -- either the blanks are still to come, or they come next and end the argument
      rcases hg with hs | ⟨rfl, rfl⟩
      · obtain ⟨us, rfl, hus⟩ := hs.char
        obtain ⟨middle', hexp', hmiddle⟩ := ihexp us (.inl hus)
        obtain ⟨nodes', after', h', hgoes⟩ := ih middle' hmiddle
        exact ⟨nodes', after', .power hacc hexp' h', hgoes⟩
      · exact (ReadsFactors.power hacc hexp h).at_blanks
  | .factor hfactor hnode h, ts', hg => by
      have ihnode := hnode.spaced
      have ih := h.spaced
      rcases hg with hs | ⟨rfl, rfl⟩
      · obtain ⟨us, rfl, hus⟩ := hs.char
        obtain ⟨middle', hnode', hmiddle⟩ := ihnode _ (.inl hs)
        obtain ⟨nodes', after', h', hgoes⟩ := ih middle' hmiddle
        exact ⟨nodes', after', .factor hfactor hnode' h', hgoes⟩
      · exact (ReadsFactors.factor hfactor hnode h).at_blanks
  | .done hpower hfactor, ts', hg => by
      rcases hg with hs | ⟨rfl, rfl⟩
      · rw [hs.head?_eq] at hpower hfactor
        exact ⟨_, ts', .done hpower hfactor, .inl ⟨rfl, .inl hs⟩⟩
      · exact (ReadsFactors.done hpower hfactor).at_blanks

end

/-- A reading of all tokens gives the same nodes with the blanks. -/
theorem Spaced.ofTokens_eq (h : Spaced blanks post false ts ts') :
    Node.ofTokens ts' = Node.ofTokens ts := by
  obtain ⟨after', h', -⟩ := (ofTokens_reads_all ts).spaced ts' h
  exact ofTokens_eq_of_reads h'

end FormulaDesk.Markup
