import FormulaDesk.Proofs.Scripts.Implicit
import Mathlib.Data.List.TakeWhile

/-! # Brackets inside brackets

Any number of brackets of one kind around one number or word. The readers spend a level on each
opening bracket until the nesting limit is met. Below the limit brackets and characters are leaves,
and as many closing brackets as there are levels close those levels: the closing brackets of the
leaves are left over, and stand behind everything else.

`ofMarkup_nest` is the reading within the limit, and `ofMarkup_nest_beyond` the one past it.
-/

namespace FormulaDesk.Markup

variable {flat : Prop} {stops : Stops} {room m k : Nat} {single : Bool} {c : Char}
  {cs : List Char} {w : String} {inner inside u ts after : List Token} {acc nodes : List Node}
  {child : Node}

/-! ## Kinds of brackets -/

inductive Enclosure where
  | braces
  | parens
  | brackets
  /-- Braces that are typed. -/
  | set
  /-- Parentheses that grow with what stands inside. -/
  | sized
deriving DecidableEq

namespace Enclosure

def opening : Enclosure → String
  | braces => "\x7b"
  | parens => "("
  | brackets => "["
  | set => "\\\x7b"
  | sized => "\\left("

def closing : Enclosure → String
  | braces => "\x7d"
  | parens => ")"
  | brackets => "]"
  | set => "\\\x7d"
  | sized => "\\right)"

/-- A text with so many brackets around it. -/
def nest (b : Enclosure) (n : Nat) (w : String) : String :=
  String.join (List.replicate n b.opening) ++ w ++ String.join (List.replicate n b.closing)

def openTokens : Enclosure → List Token
  | braces => [.char '{']
  | parens => [.char '(']
  | brackets => [.char '[']
  | set => [.command "\x7b"]
  | sized => [.command "left", .char '(']

def closeTokens : Enclosure → List Token
  | braces => [.char '}']
  | parens => [.char ')']
  | brackets => [.char ']']
  | set => [.command "\x7d"]
  | sized => [.command "right", .char ')']

def opened (b : Enclosure) (n : Nat) : List Token := (List.replicate n b.openTokens).flatten

def closed (b : Enclosure) (n : Nat) : List Token := (List.replicate n b.closeTokens).flatten

variable (b : Enclosure)

/-- One more opening in front. -/
theorem opened_succ (n : Nat) : b.opened (n + 1) = b.openTokens ++ b.opened n := by
  rw [opened, List.replicate_succ, List.flatten_cons, opened]

/-- One more closing in front. -/
theorem closed_succ (n : Nat) : b.closed (n + 1) = b.closeTokens ++ b.closed n := by
  rw [closed, List.replicate_succ, List.flatten_cons, closed]

theorem opened_add (m n : Nat) : b.opened (m + n) = b.opened m ++ b.opened n := by
  rw [opened, ← List.replicate_append_replicate, List.flatten_append, opened, opened]

theorem closed_add (m n : Nat) : b.closed (m + n) = b.closed m ++ b.closed n := by
  rw [closed, ← List.replicate_append_replicate, List.flatten_append, closed, closed]

theorem closed_one : b.closed 1 = b.closeTokens := by simp [closed]

/-- The opening text of an enclosure is scanned as its tokens, whatever follows. -/
theorem scan_opening (cs : List Char) :
    Token.scan none (b.opening.toList ++ cs) = b.openTokens ++ Token.scan none cs := by
  cases b <;> simp [opening, openTokens, Token.scan, Text.isAsciiLetter]

theorem scan_closing (cs : List Char) :
    Token.scan none (b.closing.toList ++ cs) = b.closeTokens ++ Token.scan none cs := by
  cases b <;> simp [closing, closeTokens, Token.scan, Text.isAsciiLetter]

/-- So are any number of openings one behind the other. -/
theorem scan_openings (n : Nat) (cs : List Char) :
    Token.scan none ((String.join (List.replicate n b.opening)).toList ++ cs)
      = b.opened n ++ Token.scan none cs := by
  induction n with
  | zero => simp [opened]
  | succ n ih =>
    rw [List.replicate_succ, String.join_cons, String.toList_append, List.append_assoc,
      scan_opening, ih, opened_succ, List.append_assoc]

theorem scan_closings (n : Nat) :
    Token.scan none (String.join (List.replicate n b.closing)).toList = b.closed n := by
  induction n with
  | zero => simp [closed, Token.scan]
  | succ n ih =>
    rw [List.replicate_succ, String.join_cons, String.toList_append, scan_closing, ih, closed_succ]

/-- The tokens of a text inside so many enclosures. -/
theorem ofString_nest (n : Nat) (hw : ∀ c ∈ w.toList, c ≠ '\\') :
    Token.ofString (b.nest n w) = b.opened n ++ (charTokens w.toList ++ b.closed n) := by
  rw [Token.ofString, nest, String.toList_append, String.toList_append, List.append_assoc,
    scan_openings, scan_chars hw, scan_closings]

/-! ## Levels -/

def closer : Enclosure → Closer
  | braces => .brace
  | parens => .paren
  | brackets => .bracket
  | set => .set
  | sized => .right

def node (nodes : List Node) : Enclosure → Node
  | braces => .group nodes
  | brackets => .delimited "[" "]" nodes
  | set => .delimited "\x7b" "\x7d" nodes
  | parens | sized => .delimited "(" ")" nodes

/-- So many levels around some siblings. -/
def tower (b : Enclosure) (nodes : List Node) : Nat → List Node
  | 0 => nodes
  | m + 1 => [b.node (b.tower nodes m)]

/-- A closing is a stop for what stands inside. -/
theorem atStop_closing : AtStop (b.closer :: stops) (b.closeTokens ++ u) := by
  cases b <;> exact .cons rfl List.mem_cons_self

/-- Where a level is left, brackets are read to the closing one, whatever follows. -/
theorem reads_level (h : ReadsSiblings flat (b.closer :: stops) room []
      (inside ++ (b.closeTokens ++ u)) nodes (b.closeTokens ++ u)) :
    ReadsAtom flat stops (room + 1) single (b.openTokens ++ (inside ++ (b.closeTokens ++ u)))
      (b.node nodes) u := by
  cases b with
  | braces => exact .nested (skipBlanks_cons rfl) (endsOperand_eq_false_of_closer rfl) (.group h)
  | parens => exact .nested (skipBlanks_cons rfl) (endsOperand_eq_false_of_closer rfl) (.paren h)
  | brackets =>
    exact .nested (skipBlanks_cons rfl) (endsOperand_eq_false_of_closer rfl) (.bracket h)
  | set => exact .nested (skipBlanks_cons rfl) (endsOperand_eq_false_of_closer rfl) (.set h)
  | sized =>
    have hnested := @ReadsNested.delimited flat stops room single
      (.char '(' :: (inside ++ (sized.closeTokens ++ u))) nodes _ h
    exact .nested (skipBlanks_cons rfl) (endsOperand_eq_false_of_closer rfl) hnested

/-- An enclosure is one operand among siblings. -/
theorem reads_operand (hchild : ReadsAtom flat stops room false (b.openTokens ++ ts) child u)
    (h : ReadsSiblings flat stops room (child :: acc) u nodes after) :
    ReadsSiblings flat stops room acc (b.openTokens ++ ts) nodes after := by
  cases b <;> exact .operand (stops_eq_false_of_closer rfl) (by decide) (by decide) hchild h

/-- Levels around siblings that end before the closing bracket. -/
theorem reads_levels (h : ∀ stops u, AtStop stops u →
      ReadsSiblings flat stops room [] (inner ++ u) nodes u) (m : Nat) :
    ∀ stops single u, ReadsAtom flat stops (room + m + 1) single
      (b.opened (m + 1) ++ (inner ++ (b.closed (m + 1) ++ u))) (b.node (b.tower nodes m)) u := by
  induction m with
  | zero =>
    intro stops single u
    have hinside := h (b.closer :: stops) (b.closeTokens ++ u) b.atStop_closing
    have hlevel : ReadsAtom flat stops (room + 1) single
        (b.openTokens ++ (inner ++ (b.closeTokens ++ u))) (b.node nodes) u := b.reads_level hinside
    simpa [opened, closed, tower] using hlevel
  | succ m ih =>
    intro stops single u
    -- inside stands one operand, with the last closing bracket behind it
    have hatom := ih (b.closer :: stops) false (b.closeTokens ++ u)
    rw [opened_succ, List.append_assoc] at hatom
    have hinside : ReadsSiblings flat (b.closer :: stops) (room + m + 1) []
        (b.openTokens ++ (b.opened m ++ (inner ++ (b.closed (m + 1) ++ (b.closeTokens ++ u)))))
        [b.node (b.tower nodes m)] (b.closeTokens ++ u) :=
      b.reads_operand hatom b.atStop_closing.siblings
    have hlevel : ReadsAtom flat stops (room + m + 1 + 1) single (b.openTokens
        ++ ((b.openTokens ++ (b.opened m ++ (inner ++ b.closed (m + 1)))) ++ (b.closeTokens ++ u)))
        (b.node [b.node (b.tower nodes m)]) u :=
      b.reads_level (by simpa only [List.append_assoc] using hinside)
    rw [opened_succ, opened_succ, closed_add b (m + 1) 1, closed_one]
    simp only [List.append_assoc] at hlevel ⊢
    exact hlevel

/-! ## Below the limit -/

/-- What an opening bracket is read as below the limit. -/
def flatOpening : Enclosure → Node
  | braces => .group []
  | _ => .text "("

/-- What a closing bracket is read as where none is open. -/
def stray : Enclosure → List Node
  | braces => []
  | set => [.command "\x7d"]
  | _ => [.text ")"]

/-- At the limit an opening is a leaf of its own and spends no level. -/
theorem reads_flatOpening (h : ReadsSiblings True stops 0 (b.flatOpening :: acc) ts nodes after) :
    ReadsSiblings True stops 0 acc (b.openTokens ++ ts) nodes after := by
  cases b <;> exact .operand (stops_eq_false_of_closer rfl) (by decide) (by decide)
    (.limit trivial (skipBlanks_cons (by decide)) (endsOperand_eq_false_of_closer rfl)) h

/-- All openings below the limit become leaves. -/
theorem reads_flatOpenings (k : Nat)
    (h : ReadsSiblings True stops 0 (List.replicate k b.flatOpening ++ acc) ts nodes after) :
    ReadsSiblings True stops 0 acc (b.opened k ++ ts) nodes after := by
  induction k generalizing acc with
  | zero => exact h
  | succ k ih =>
    rw [opened_succ, List.append_assoc]
    refine b.reads_flatOpening (ih ?_)
    rwa [List.replicate_succ', List.append_assoc] at h

/-- A closing that nothing waits for is left over: a brace as nothing, the others as a
parenthesis. -/
theorem reads_stray (h : ReadsSiblings flat [] (room + 1) (b.stray ++ acc) u nodes after) :
    ReadsSiblings flat [] (room + 1) acc (b.closeTokens ++ u) nodes after := by
  cases b with
  | braces => exact .strayBrace rfl h
  | parens => exact .strayParen rfl h
  | brackets => exact .strayBracket rfl h
  | set =>
    exact .operand rfl rfl rfl (.nested (skipBlanks_cons rfl) rfl (.command rfl rfl)) h
  | sized => exact .strayRight rfl h

/-- Closing brackets that close nothing. -/
theorem reads_strays (flat : Prop) (room k : Nat) (acc : List Node) :
    ReadsSiblings flat [] (room + 1) acc (b.closed k)
      (acc.reverse ++ (List.replicate k b.stray).flatten) [] := by
  induction k generalizing acc with
  | zero => simpa [closed] using .finish
  | succ k ih =>
    rw [closed_succ]
    refine b.reads_stray ?_
    have hone : b.stray.reverse = b.stray := by cases b <;> rfl
    simpa [List.replicate_succ, hone] using ih (b.stray ++ acc)

end Enclosure

/-! ## Numbers and words -/

/-- The characters of one number or of one word. -/
inductive IsCore : List Char → Prop
  | number {cs : List Char} (hne : cs ≠ []) (h : ∀ c ∈ cs, Dialect.isFigure c = true) : IsCore cs
  | word {cs : List Char} (hne : cs ≠ []) (h : ∀ c ∈ cs, Text.isAsciiLetter c = true) : IsCore cs

/-- The leaf of a number or word. -/
def runNode (cs : List Char) : Node :=
  if cs.head?.any isNumberChar then .number (String.ofList cs) else .word (String.ofList cs)

/-- A core is made of digits and points or of letters. -/
theorem IsCore.mem (h : IsCore cs) (hc : c ∈ cs) :
    Dialect.isFigure c = true ∨ Text.isAsciiLetter c = true := by
  cases h with
  | number _ h => exact Or.inl (h c hc)
  | word _ h => exact Or.inr (h c hc)

theorem IsCore.mem_run (h : IsCore cs) (hc : c ∈ cs) :
    isNumberChar c = true ∨ Text.isLetter c = true :=
  (h.mem hc).imp Dialect.isNumberChar_of_isFigure fun hletter => (Text.classes_of_isAsciiLetter hletter).1

/-- No command starts in a core. -/
theorem IsCore.ne_backslash (h : IsCore cs) : ∀ c ∈ cs, c ≠ '\\' :=
  fun _ hc => (run_char (h.mem_run hc)).1

/-- A closer ends an argument without brackets. -/
theorem AtStop.endsFactors (h : AtStop stops u) : EndsFactors u := by
  intro c hc
  obtain ⟨rest, rfl⟩ := List.head?_eq_some_iff.mp hc
  have hcloser := h.head_closer?
  by_contra hgoes
  refine hcloser (closer?_char_eq_none ⟨?_, ?_, ?_⟩) <;> rintro rfl <;> exact hgoes (by decide)

/-- A core is read to its end as one number or word. -/
theorem readRun_whole {accept : Char → Bool} (haccept : ∀ c, accept c = true →
      isFactorChar c = true) (hcs : ∀ d ∈ cs, accept d = true) (hu : EndsFactors u) (c : Char) :
    readRun false accept c (charTokens cs ++ u) = (String.ofList (c :: cs), u) := by
  have htake : cs.takeWhile accept = cs := List.takeWhile_eq_self_iff.mpr hcs
  have hdrop : cs.dropWhile accept = [] := List.dropWhile_eq_nil_iff.mpr hcs
  simp [readRun, takeRun_charTokens haccept hu.startsNoFactor, htake, hdrop]

/-- Within the limit a number or word is one leaf. -/
theorem IsCore.reads (h : IsCore cs) (hu : AtStop stops u) :
    ReadsSiblings flat stops (room + 1) [] (charTokens cs ++ u) [runNode cs] u := by
  -- numbers and words are read alike but for the class of their characters
  have hoperand : ∀ c cs, IsCore (c :: cs) → ReadsNested flat stops room false (.char c)
      (charTokens cs ++ u) (runNode (c :: cs)) u →
      ReadsSiblings flat stops (room + 1) [] (charTokens (c :: cs) ++ u) [runNode (c :: cs)] u := by
    intro c cs h hnested
    obtain ⟨-, hblank, hstart, hcloser⟩ := run_char (h.mem_run List.mem_cons_self)
    exact .operand (stops_eq_false_of_closer hcloser) hblank hstart
      (.nested (skipBlanks_cons hblank) (endsOperand_eq_false_of_closer hcloser) hnested)
      hu.siblings
  cases cs with
  | nil => cases h <;> contradiction
  | cons c cs =>
    refine hoperand c cs h ?_
    cases h with
    | number _ h =>
      have hnum := fun d hd => Dialect.isNumberChar_of_isFigure (h d hd)
      have hc : isNumberChar c = true := hnum c List.mem_cons_self
      have hread := @ReadsNested.number flat stops room false c (charTokens cs ++ u) hc
      rw [readRun_whole (fun c hc => isFactorChar_of_run (Or.inl hc))
        (fun d hd => hnum d (List.mem_cons_of_mem c hd)) hu.endsFactors] at hread
      simpa [runNode, hc] using hread
    | word _ h =>
      have hletter := fun d hd => (Text.classes_of_isAsciiLetter (h d hd)).1
      have hc : isNumberChar c = false := isNumberChar_of_isAsciiLetter (h c List.mem_cons_self)
      have hread := @ReadsNested.word flat stops room false c (charTokens cs ++ u) hc
        (hletter c List.mem_cons_self)
      rw [readRun_whole (fun c hc => isFactorChar_of_run (Or.inr hc))
        (fun d hd => hletter d (List.mem_cons_of_mem c hd)) hu.endsFactors] at hread
      simpa [runNode, hc] using hread

/-- Below the limit every character is a leaf of its own. -/
theorem flatAtom_char (hc : isNumberChar c = true ∨ Text.isLetter c = true) (ts : List Token) :
    flatAtom (.char c) ts = (runNode [c], ts) := by
  have hopen : c ≠ '{' ∧ c ≠ '(' ∧ c ≠ '[' := hc.elim ne_of_isNumberChar ne_of_isLetter
  by_cases hnum : isNumberChar c = true
  · simp [flatAtom, runNode, hopen, hnum]
  · have hletter : Text.isLetter c = true := hc.resolve_left hnum
    simp [flatAtom, runNode, hopen, hnum, hletter]

/-- Below the limit every character of the core is a leaf of its own. -/
theorem reads_flatChars (hcs : ∀ c ∈ cs, isNumberChar c = true ∨ Text.isLetter c = true)
    (h : ReadsSiblings True stops 0 ((cs.map fun c => runNode [c]).reverse ++ acc) u nodes after) :
    ReadsSiblings True stops 0 acc (charTokens cs ++ u) nodes after := by
  induction cs generalizing acc with
  | nil => exact h
  | cons c cs ih =>
    have hc := hcs c List.mem_cons_self
    obtain ⟨-, hblank, hstart, hcloser⟩ := run_char hc
    have hatom := @ReadsAtom.limit True stops false (.char c :: (charTokens cs ++ u)) (.char c)
      (charTokens cs ++ u) trivial (skipBlanks_cons hblank)
      (endsOperand_eq_false_of_closer hcloser)
    rw [flatAtom_char hc] at hatom
    refine .operand (stops_eq_false_of_closer hcloser) hblank hstart hatom
      (ih (fun d hd => hcs d (List.mem_cons_of_mem c hd)) ?_)
    simpa using h

/-! ## The nodes of a nest -/

namespace Enclosure

variable (b : Enclosure)

/-- The siblings at the limit, with some brackets more before a number or word. -/
def flatNodes (b : Enclosure) (k : Nat) (cs : List Char) : List Node :=
  List.replicate k b.flatOpening ++ cs.map fun c => runNode [c]

/-- Below the limit a nest is read as its openings and the characters of its core. -/
theorem reads_flatNodes (hcs : IsCore cs) (k : Nat) (hu : AtStop stops u) :
    ReadsSiblings True stops 0 [] ((b.opened k ++ charTokens cs) ++ u) (b.flatNodes k cs) u := by
  have hend : ReadsSiblings True stops 0 (b.flatNodes k cs).reverse u (b.flatNodes k cs) u := by
    simpa using @AtStop.siblings stops 0 u (b.flatNodes k cs).reverse True hu
  -- no token here is a closing one, so the siblings go on to where the innermost level ends
  rw [List.append_assoc]
  refine b.reads_flatOpenings k (reads_flatChars (fun c hc => hcs.mem_run hc) ?_)
  simpa [flatNodes] using hend

/-- Within the limit every bracket is a level. -/
theorem ofMarkup_nest (hw : IsCore w.toList) {n : Nat} (hn : n < maxNesting) :
    Node.ofMarkup (b.nest n w) = b.tower [runNode w.toList] n := by
  have hcore : ∀ room stops u, AtStop stops u → ReadsSiblings True stops (room + 1) []
      (charTokens w.toList ++ u) [runNode w.toList] u := fun _ _ _ hu => hw.reads hu
  have hend : AtStop [] ([] : List Token) := Or.inl rfl
  rw [Node.ofMarkup, b.ofString_nest n hw.ne_backslash]
  cases n with
  | zero => simpa [opened, closed, tower] using ofTokens_eq_of_reads (hcore 99 [] [] hend)
  | succ m =>
    obtain ⟨room, hroom⟩ : ∃ room, maxNesting = room + 1 + m + 1 := ⟨maxNesting - m - 2, by omega⟩
    have hatom := b.reads_levels (hcore room) m [] false []
    rw [← hroom, opened_succ, List.append_assoc, List.append_nil] at hatom
    rw [opened_succ, List.append_assoc]
    exact ofTokens_eq_of_reads (b.reads_operand hatom hend.siblings)

/-- Past the limit the brackets beyond it stand among the siblings at the limit, where they open,
and behind all levels, where they close. -/
theorem ofMarkup_nest_beyond (hw : IsCore w.toList) (k : Nat) :
    Node.ofMarkup (b.nest (maxNesting + k) w) = b.tower (b.flatNodes k w.toList) maxNesting
      ++ (List.replicate k b.stray).flatten := by
  obtain ⟨m, hm⟩ : ∃ m, maxNesting = m + 1 := ⟨maxNesting - 1, rfl⟩
  have hopened : b.opened maxNesting = b.openTokens ++ b.opened m := by rw [hm, opened_succ]
  have htower : b.tower (b.flatNodes k w.toList) maxNesting
      = [b.node (b.tower (b.flatNodes k w.toList) m)] := by rw [hm, tower]
  -- the levels take the first of the closing brackets, though the last opening ones were leaves
  have hatom := b.reads_levels (fun _ _ hu => b.reads_flatNodes hw k hu) m [] false (b.closed k)
  have hstrays := b.reads_strays True m k (b.tower (b.flatNodes k w.toList) maxNesting)
  rw [opened_succ, List.append_assoc, Nat.zero_add] at hatom
  rw [htower, List.reverse_singleton] at hstrays
  have hreads := b.reads_operand hatom hstrays
  rw [← hm] at hreads
  rw [Node.ofMarkup, b.ofString_nest _ hw.ne_backslash, opened_add, closed_add, hopened,
    htower]
  exact ofTokens_eq_of_reads (by simpa only [List.append_assoc] using hreads)

end Enclosure

end FormulaDesk.Markup
