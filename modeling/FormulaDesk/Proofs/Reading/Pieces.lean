import FormulaDesk.Proofs.Reading.Limit
import FormulaDesk.Proofs.Reading.Nesting
import FormulaDesk.Proofs.Reading.Scanning

/-! # Reading piece by piece

What a text is read as when it is put together from pieces:

* `Emits`: a reading of what follows a piece goes on after the siblings that the piece stands for;
* `IsOperand`, `IsScript`: pieces that are one operand among siblings or behind `^` and `_`;
* `IsBlock`: pieces that are one operand among siblings, whatever follows them;
* `IsBracketed`: pieces that are one wherever an operand is wanted;
* `Readable`: texts that are a piece where there is room enough.

A piece of depth `room` is read so with that much room or more, before any text that does not go on
with its last number, word or command.
-/

namespace FormulaDesk.Markup

variable {room : Nat} {stops : Stops} {s s' : String} {ns ns' : List Node} {node : Node}

/-! ## Where a piece may end -/

/-- Nothing, or a character that goes on with no number, word or command. -/
def EndsRun (cs : List Char) : Prop :=
  ∀ c, cs.head? = some c → isNumberChar c = false ∧ Text.isLetter c = false

theorem EndsRun.nil : EndsRun [] := by
  intro c h
  simp at h

/-- A character of neither kind ends every run of figures and of letters. -/
theorem EndsRun.cons {c : Char} (hnum : isNumberChar c = false) (hletter : Text.isLetter c = false)
    {cs : List Char} : EndsRun (c :: cs) := by
  intro d h
  simp only [List.head?_cons, Option.some.injEq] at h
  exact h ▸ ⟨hnum, hletter⟩

/-- What ends a run ends it too when more text follows. -/
theorem EndsRun.append {cs ds : List Char} (h : EndsRun cs) (h' : EndsRun ds) :
    EndsRun (cs ++ ds) := by
  cases cs with
  | nil => exact h'
  | cons c cs => exact h

/-- What ends a run of letters ends the name of a command. -/
theorem EndsRun.ends_command {cs : List Char} (h : EndsRun cs) :
    ∀ c, cs.head? = some c → Text.isAsciiLetter c = false := by
  intro c hc
  by_contra hletter
  have := Text.classes_of_isAsciiLetter (by simpa using hletter)
  rw [(h c hc).2] at this
  simp at this

/-- A run is taken whole, on the tokens as on the characters, when what follows ends it. -/
theorem takeRun_scan {accept : Char → Bool}
    (haccept : ∀ c, accept c = true → isNumberChar c = true ∨ Text.isLetter c = true)
    {run cs : List Char} (hrun : ∀ c ∈ run, accept c = true) (hcs : EndsRun cs) :
    takeRun accept (Token.scan none (run ++ cs)) = (run, Token.scan none cs) := by
  have hslash : accept '\\' = false := by
    by_contra h
    rcases haccept '\\' (by simpa using h) with h | h <;> exact absurd h (by decide)
  induction run with
  | nil =>
    rw [List.nil_append]
    cases cs with
    | nil => rfl
    | cons c cs =>
      by_cases hc : c = '\\'
      -- a backslash ends the run, since a command and no character comes of it
      · subst hc
        have hhead := scan_some_head cs []
        cases hscan : Token.scan (some []) cs with
        | nil => simp [Token.scan, hscan, takeRun]
        | cons t ts =>
          cases t with
          | command name => simp [Token.scan, hscan, takeRun]
          | char d => exact absurd (by rw [hscan]; rfl) (hhead d)
      · have hend : accept c = false := by
          by_contra h
          have := hcs c rfl
          rcases haccept c (by simpa using h) with h | h <;> simp [h] at this
        rw [scan_char hc]
        simp [takeRun, hend]
  | cons c run ih =>
    have hc : accept c = true := hrun c List.mem_cons_self
    have hne : c ≠ '\\' := by rintro rfl; rw [hslash] at hc; simp at hc
    rw [List.cons_append, scan_char hne]
    simp [takeRun, hc, ih fun d hd => hrun d (List.mem_cons_of_mem c hd)]

/-! ## Pieces -/

/-- A reading of what follows goes on after the siblings that the text stands for. -/
def Emits (room : Nat) (s : String) (ns : List Node) : Prop :=
  ∀ stops acc cs nodes after, EndsRun cs →
    ReadsSiblings False stops room (ns.reverse ++ acc) (Token.scan none cs) nodes after →
    ReadsSiblings False stops room acc (Token.scan none (s.toList ++ cs)) nodes after

/-- The text is one operand among siblings. -/
structure IsOperand (room : Nat) (s : String) (node : Node) : Prop where
  starts : ∀ cs, EndsRun cs → ∃ t ts, Token.scan none (s.toList ++ cs) = t :: ts ∧
    t.isBlank = false ∧ t.startsOperand = true ∧ t.closer? = none
  reads : ∀ stops cs, EndsRun cs →
    ReadsAtom False stops room false (Token.scan none (s.toList ++ cs)) node (Token.scan none cs)

/-- The tokens that open a bracket. -/
def openers : List Token :=
  [.char '{', .char '(', .char '[', .command "\x7b", .command "left"]

/-- What the reader asks of a token, answered once for all the opening ones. -/
theorem opener_facts {t : Token} (h : t ∈ openers) :
    t.isBlank = false ∧ t.startsOperand = true ∧ t.closer? = none ∧ t.startsBracketed = true ∧
      t ≠ .char '^' ∧ t ≠ .char '_' := by
  revert t
  decide

/-- An opening character belongs to no number and to no word. -/
theorem opener_char {c : Char} (h : .char c ∈ openers) :
    isNumberChar c = false ∧ Text.isLetter c = false := by
  simp only [openers, List.mem_cons, Token.char.injEq, reduceCtorEq, List.not_mem_nil, or_false]
    at h
  rcases h with rfl | rfl | rfl <;> decide

/-- The text is one operand wherever an operand is wanted, whatever follows it. -/
structure IsBracketed (room : Nat) (s : String) (node : Node) : Prop where
  starts : ∀ cs, ∃ t ts, Token.scan none (s.toList ++ cs) = t :: ts ∧ t ∈ openers
  reads : ∀ stops single cs,
    ReadsAtom False stops room single (Token.scan none (s.toList ++ cs)) node (Token.scan none cs)

/-- The text is one operand among siblings, whatever follows it. -/
structure IsBlock (room : Nat) (s : String) (node : Node) : Prop where
  starts : ∀ cs, ∃ t ts, Token.scan none (s.toList ++ cs) = t :: ts ∧ t.isBlank = false ∧
    t.startsOperand = true ∧ t.closer? = none ∧
    ∀ c, t = .char c → isNumberChar c = false ∧ Text.isLetter c = false
  reads : ∀ stops cs,
    ReadsAtom False stops room false (Token.scan none (s.toList ++ cs)) node (Token.scan none cs)

theorem IsBlock.isOperand (h : IsBlock room s node) : IsOperand room s node where
  starts cs _ := by
    obtain ⟨t, ts, hscan, hblank, hstart, hcloser, -⟩ := h.starts cs
    exact ⟨t, ts, hscan, hblank, hstart, hcloser⟩
  reads stops cs _ := h.reads stops cs

/-- The text is one script, whatever follows it. -/
def IsScript (room : Nat) (s : String) (node : Node) : Prop :=
  ∀ stops cs,
    ReadsAtom False stops room true (Token.scan none (s.toList ++ cs)) node (Token.scan none cs)

/-- A bracketed piece can stand as a script. -/
theorem IsBracketed.isScript (h : IsBracketed room s node) : IsScript room s node :=
  fun stops cs => h.reads stops true cs

/-- A bracketed piece can stand where a block is needed. -/
theorem IsBracketed.isBlock (h : IsBracketed room s node) : IsBlock room s node where
  starts cs := by
    obtain ⟨t, ts, hscan, hopen⟩ := h.starts cs
    obtain ⟨hblank, hstart, hcloser, -⟩ := opener_facts hopen
    exact ⟨t, ts, hscan, hblank, hstart, hcloser, fun c hc => opener_char (hc ▸ hopen)⟩
  reads stops cs := h.reads stops false cs

/-- A bracketed piece is an operand. -/
theorem IsBracketed.isOperand (h : IsBracketed room s node) : IsOperand room s node :=
  h.isBlock.isOperand

/-- An operand is read as the one node it stands for. -/
theorem IsOperand.emits (h : IsOperand room s node) : Emits room s [node] := by
  intro stops acc cs nodes after hcs hrest
  obtain ⟨t, ts, hscan, hblank, hstart, hcloser⟩ := h.starts cs hcs
  have hread := h.reads stops cs hcs
  rw [hscan] at hread ⊢
  exact .operand (stops_eq_false_of_closer hcloser) hblank hstart hread hrest

theorem Emits.nil : Emits room "" [] := fun _ _ _ _ _ _ h => h

/-- The siblings of a text alone. -/
theorem Emits.reads (h : Emits room s ns) :
    ReadsSiblings False [] room [] (Token.ofString s) ns [] := by
  -- behind the whole text nothing is left to read
  have hfinish := @ReadsSiblings.finish False [] room ns.reverse
  rw [List.reverse_reverse] at hfinish
  have := h [] [] [] ns [] .nil (by rw [List.append_nil]; exact hfinish)
  rwa [List.append_nil] at this

/-- The siblings of a text before the closer that ends it. -/
theorem Emits.before_closer (h : Emits room s ns) {t : Token} {ts : List Token} {cs : List Char}
    {closer : Closer} (hscan : Token.scan none cs = t :: ts) (hclose : t.closer? = some closer)
    (hcs : EndsRun cs) (stops : Stops) :
    ReadsSiblings False (closer :: stops) room [] (Token.scan none (s.toList ++ cs)) ns
      (t :: ts) := by
  have hstop := @ReadsSiblings.stop False (closer :: stops) room ns.reverse t ts
    (by simp [Token.stops, hclose])
  rw [List.reverse_reverse, ← hscan] at hstop
  rw [← hscan]
  exact h _ [] cs ns _ hcs (by rw [List.append_nil]; exact hstop)

/-- Two texts one after the other. -/
theorem Emits.append (h : Emits room s ns) (h' : Emits room s' ns')
    (hs' : ∀ cs, EndsRun cs → EndsRun (s'.toList ++ cs)) : Emits room (s ++ s') (ns ++ ns') := by
  intro stops acc cs nodes after hcs hrest
  -- the second text first: its reading is what follows the first
  have hrest' := h' stops (ns.reverse ++ acc) cs nodes after hcs (by simpa using hrest)
  have := h stops acc _ nodes after (hs' cs hcs) hrest'
  simpa using this

/-- A text whose first token belongs to no run ends every run. -/
theorem endsRun_of_scan {cs : List Char} {t : Token} {ts : List Token}
    (hscan : Token.scan none cs = t :: ts)
    (ht : ∀ c, t = .char c → isNumberChar c = false ∧ Text.isLetter c = false) : EndsRun cs := by
  cases cs with
  | nil => exact .nil
  | cons c cs =>
    by_cases hslash : c = '\\'
    · subst hslash
      exact .cons (by decide) (by decide)
    · rw [scan_char hslash, List.cons.injEq] at hscan
      obtain ⟨hnum, hletter⟩ := ht c hscan.1.symm
      exact .cons hnum hletter

/-- A block ends the number or the word in front of it. -/
theorem IsBlock.endsRun (h : IsBlock room s node) (cs : List Char) : EndsRun (s.toList ++ cs) := by
  obtain ⟨t, ts, hscan, -, -, -, ht⟩ := h.starts cs
  exact endsRun_of_scan hscan ht

/-- What follows a block goes on as it may. -/
theorem IsBlock.before (h : IsBlock room s node) (h' : Emits room s' ns') :
    Emits room (s ++ s') (node :: ns') := by
  intro stops acc cs nodes after hcs hrest
  obtain ⟨t, ts, hscan, hblank, hstart, hcloser, -⟩ := h.starts (s'.toList ++ cs)
  have hread := h.reads stops (s'.toList ++ cs)
  have hrest' := h' stops (node :: acc) cs nodes after hcs (by simpa using hrest)
  rw [String.toList_append, List.append_assoc]
  rw [hscan] at hread ⊢
  exact .operand (stops_eq_false_of_closer hcloser) hblank hstart hread hrest'

/-- A blank in front of a text, as characters. -/
theorem toList_blank (s : String) (cs : List Char) :
    (" " ++ s).toList ++ cs = ' ' :: (s.toList ++ cs) := by
  simp

/-- A blank in front of a piece is skipped. -/
theorem Emits.after_blank (h : Emits room s ns) : Emits room (" " ++ s) ns := by
  intro stops acc cs nodes after hcs hrest
  rw [toList_blank, scan_char (by decide)]
  exact .blank (stops_eq_false_of_closer rfl) (by decide) (h stops acc cs nodes after hcs hrest)

/-- Two texts with a blank between them. -/
theorem Emits.blank (h : Emits room s ns) (h' : Emits room s' ns') :
    Emits room (s ++ " " ++ s') (ns ++ ns') := by
  rw [String.append_assoc]
  refine h.append h'.after_blank fun cs _ => ?_
  rw [toList_blank]
  exact .cons (by decide) (by decide)

/-! ## Room enough -/

/-- The text is read as these siblings where there is room enough. -/
def Readable (s : String) (ns : List Node) : Prop :=
  ∃ least, ∀ room, least ≤ room → Emits room s ns

/-- A construct that spends some levels more than its part, which is read at every level from some
level on. -/
theorem Readable.map (h : Readable s ns) (levels : Nat)
    (hconstruct : ∀ room, (∀ r, room ≤ r → Emits r s ns) → Emits (room + levels) s' ns') :
    Readable s' ns' := by
  obtain ⟨least, hreads⟩ := h
  refine ⟨least + levels, fun room hroom => ?_⟩
  obtain ⟨r, rfl⟩ : ∃ r, room = r + levels := ⟨room - levels, by omega⟩
  exact hconstruct r fun r' hr' => hreads r' (by omega)

/-- A construct with two parts. -/
theorem Readable.map₂ {text : String} {nodes : List Node} (h : Readable s ns)
    (h' : Readable s' ns') (levels : Nat)
    (hconstruct : ∀ room, (∀ r, room ≤ r → Emits r s ns) → (∀ r, room ≤ r → Emits r s' ns') →
      Emits (room + levels) text nodes) : Readable text nodes := by
  obtain ⟨least, hreads⟩ := h
  obtain ⟨least', hreads'⟩ := h'
  refine ⟨max least least' + levels, fun room hroom => ?_⟩
  obtain ⟨r, rfl⟩ : ∃ r, room = r + levels := ⟨room - levels, by omega⟩
  exact hconstruct r (fun r' hr' => hreads r' (by omega)) (fun r' hr' => hreads' r' (by omega))

/-- An operand at every depth is readable on its own. -/
theorem readable_operand (h : ∀ room, IsOperand (room + 1) s node) : Readable s [node] := by
  refine ⟨1, fun room hroom => ?_⟩
  obtain ⟨r, rfl⟩ := Nat.exists_eq_add_of_le' hroom
  exact (h r).emits

/-- A readable text within the limit is read so. -/
theorem Readable.ofMarkup_eq (h : Readable s ns) (hlimit : WithinLimit s) :
    Node.ofMarkup s = ns := by
  obtain ⟨room, hreads⟩ := h
  exact hlimit.eq_of_reads (hreads room (Nat.le_refl room)).reads

end FormulaDesk.Markup
