import FormulaDesk.Proofs.Spacing.Context
import Mathlib.Data.List.DropRight

/-! # Places where operands are wanted

Behind `^`, `_`, `\frac` and `\sqrt` the reader wants operands, and takes whatever comes next for
them. So a spacing command there is an operand itself, and each operand behind it moves on by one:
the last of them is left over as a sibling. A blank there is skipped.

* `Slot`: such a place, with what stands before it;
* `Supplies`: what a text is read as behind it, its operands first;
* `Slot.readable`: both together.
-/

namespace FormulaDesk.Markup

variable {stops : Stops} {room level n : Nat} {s s' name : String} {ns : List Node} {node : Node}

/-! ## Operands -/

/-- Markup that is one operand, among siblings and where one is wanted. It does not look like the
index of a root. -/
structure Operand where
  text : String
  node : Node
  isOperand : ∃ least, ∀ room, least ≤ room → IsOperand room text node
  isScript : ∃ least, ∀ room, least ≤ room → IsScript room text node
  noIndex : ∀ cs, (skipBlanks (Token.scan none (text.toList ++ cs))).head? ≠ some (.char '[')

namespace Operand

/-- One character of a number or word. -/
def single (c : Char) (node : Node) (hc : isNumberChar c = true ∨ Text.isLetter c = true)
    (hoperand : ∀ room, IsOperand (room + 1) (String.singleton c) node)
    (hscript : ∀ room, IsScript (room + 1) (String.singleton c) node) : Operand where
  text := String.singleton c
  node := node
  isOperand := by
    refine ⟨1, fun room hroom => ?_⟩
    obtain ⟨r, rfl⟩ := Nat.exists_eq_add_of_le' hroom
    exact hoperand r
  isScript := by
    refine ⟨1, fun room hroom => ?_⟩
    obtain ⟨r, rfl⟩ := Nat.exists_eq_add_of_le' hroom
    exact hscript r
  noIndex cs := by
    obtain ⟨hslash, hblank, -⟩ := run_char hc
    rw [String.toList_singleton, List.singleton_append, scan_char hslash, skipBlanks_cons hblank]
    rintro ⟨⟩
    exact absurd hc (by decide)

def numberChar (c : Char) (hc : isNumberChar c = true) : Operand :=
  single c (.number (String.singleton c)) (.inl hc)
    (fun _ => isOperand_number (by simp) (by simpa using hc)) fun _ => isScript_numberChar hc

def letter (c : Char) (hc : Text.isAsciiLetter c = true) : Operand :=
  single c (.word (String.singleton c)) (.inr (Text.classes_of_isAsciiLetter hc).1)
    (fun _ => isOperand_letter hc) fun _ => isScript_letter hc

/-- Braces around markup are read as a bracketed piece, given room for what is inside. -/
theorem isBracketed_braced (inside : Piece) : ∃ least, ∀ room, least ≤ room →
    IsBracketed room (Markup.braced inside.text) (.group inside.nodes) := by
  obtain ⟨least, hreads⟩ := inside.readable
  refine ⟨least + 1, fun room hroom => ?_⟩
  obtain ⟨r, rfl⟩ : ∃ r, room = r + 1 := ⟨room - 1, by omega⟩
  exact (hreads r (by omega)).braced

theorem noIndex_braced (m : String) (cs : List Char) :
    (skipBlanks (Token.scan none ((Markup.braced m).toList ++ cs))).head? ≠ some (.char '[') := by
  rw [scan_braced, skipBlanks_cons (by decide)]
  simp

/-- Braces around markup. -/
def braced (inside : Piece) : Operand where
  text := Markup.braced inside.text
  node := .group inside.nodes
  isOperand := (isBracketed_braced inside).imp fun _ hreads room hroom =>
    (hreads room hroom).isOperand
  isScript := (isBracketed_braced inside).imp fun _ hreads room hroom =>
    (hreads room hroom).isScript
  noIndex := noIndex_braced inside.text

end Operand

/-- The texts of operands one after the other, with what follows them. -/
def textOf (operands : List Operand) (rest : String) : String :=
  operands.foldr (·.text ++ ·) rest

def nodesOf (operands : List Operand) (rest : List Node) : List Node :=
  operands.map (·.node) ++ rest

/-! ## What is read behind the place -/

/-- The tokens are read as `n` operands, and behind them as siblings before `rest`. The operands are
read with `level` levels left. -/
inductive Takes (stops : Stops) (room level : Nat) (rest : List Token) :
    Nat → List Token → List Node → Prop
  | siblings {ts ns} (h : ∀ acc nodes after,
      ReadsSiblings False stops room (ns.reverse ++ acc) rest nodes after →
      ReadsSiblings False stops room acc ts nodes after) : Takes stops room level rest 0 ts ns
  | operand {n ts node middle ns} (hnode : ReadsAtom False stops level true ts node middle)
      (h : Takes stops room level rest n middle ns) :
      Takes stops room level rest (n + 1) ts (node :: ns)

/-- The text is read as these nodes, the first `n` of them as operands that are wanted. -/
def Supplies (n room level : Nat) (s : String) (ns : List Node) : Prop :=
  ∀ stops cs, EndsRun cs →
    Takes stops room level (Token.scan none cs) n (Token.scan none (s.toList ++ cs)) ns

theorem Emits.supplies (h : Emits room s ns) : Supplies 0 room level s ns :=
  fun stops cs hcs => .siblings fun acc nodes after hrest => h stops acc cs nodes after hcs hrest

theorem IsScript.supplies (h : IsScript level s node) (h' : Supplies n room level s' ns) :
    Supplies (n + 1) room level (s ++ s') (node :: ns) := by
  intro stops cs hcs
  rw [String.toList_append, List.append_assoc]
  exact .operand (h stops _) (h' stops cs hcs)

/-- An operand is read from the first token that is no blank. -/
theorem ReadsAtom.of_skipBlanks {flat : Prop} {single : Bool} {ts ts' after : List Token}
    (h : ReadsAtom flat stops room single ts node after) (hskip : skipBlanks ts' = skipBlanks ts) :
    ReadsAtom flat stops room single ts' node after := by
  cases h with
  | missing h => exact .missing (hskip.trans h)
  | ended h hend => exact .ended (hskip.trans h) hend
  | limit hflat h hend => exact .limit hflat (hskip.trans h) hend
  | nested h hend hnode => exact .nested (hskip.trans h) hend hnode

theorem skipBlanks_blank {c : Char} (hc : Text.isBlank c = true) (ts : List Token) :
    skipBlanks (.char c :: ts) = skipBlanks ts :=
  List.dropWhile_cons_of_pos hc

/-- A blank before operands and siblings is skipped. -/
theorem Supplies.after_blank (h : Supplies n room level s ns) :
    Supplies n room level (" " ++ s) ns := by
  intro stops cs hcs
  rw [toList_blank, scan_char (by decide)]
  cases h stops cs hcs with
  | siblings hsiblings =>
    exact .siblings fun acc nodes after hrest =>
      .blank (stops_eq_false_of_closer rfl) (by decide) (hsiblings acc nodes after hrest)
  | operand hnode htakes =>
    exact .operand (hnode.of_skipBlanks (skipBlanks_blank (by decide) _)) htakes

theorem Supplies.behindCommand (h : Supplies n room level s ns) (name : String) (gap : Bool) :
    Supplies n room level (behindCommand name gap s) ns := by
  unfold Markup.behindCommand
  split
  · exact h.after_blank
  · exact h

/-- A command without structure is itself an operand that is wanted. -/
theorem Supplies.after_plain_command (gap : Bool) (hcloser : (Token.command name).closer? = none)
    (hplain : isStructured name = false) (hfn : Fn.ofCommand? name = none)
    (hscan : ScansAlone name) (h : Supplies n room (level + 1) s ns) :
    Supplies (n + 1) room (level + 1) (commandBefore name gap s) (.command name :: ns) := by
  intro stops cs hcs
  rw [hscan.commandBefore gap s hcs]
  exact .operand (.nested (skipBlanks_cons rfl) (endsOperand_eq_false_of_closer hcloser)
    (.command hplain hfn)) (h.behindCommand name gap stops cs hcs)

/-- The text supplies the operands and siblings wherever there is room enough. -/
def Suppliable (n : Nat) (s : String) (ns : List Node) : Prop :=
  ∃ least, ∀ room level, least ≤ room → least ≤ level → Supplies n room level s ns

/-- Where one operand fewer is wanted than there are, the last is the first sibling. -/
theorem suppliable_operands (operands : List Operand) (rest : Piece)
    (hends : EndsRun rest.text.toList) (hn : n = operands.length ∨ n + 1 = operands.length) :
    Suppliable n (textOf operands rest.text) (nodesOf operands rest.nodes) := by
  induction operands generalizing n with
  | nil =>
    obtain rfl : n = 0 := by simpa using hn
    obtain ⟨least, hrest⟩ := rest.readable
    exact ⟨least, fun room level hroom _ => (hrest room hroom).supplies⟩
  | cons o operands ih =>
    cases n with
    | zero =>
      -- only the last operand can be left over
      obtain rfl : operands = [] := by simpa using hn
      obtain ⟨least, hoperand⟩ := o.isOperand
      obtain ⟨least', hrest⟩ := rest.readable
      refine ⟨max least least', fun room level hroom _ => ?_⟩
      have hbefore := (hoperand room (by omega)).emits
      exact (hbefore.append (hrest room (by omega)) fun _ hcs => hends.append hcs).supplies
    | succ n =>
      obtain ⟨least, hscript⟩ := o.isScript
      obtain ⟨least', hsupplies⟩ := ih (by simpa using hn)
      refine ⟨max least least', fun room level hroom hlevel => ?_⟩
      exact (hscript level (by omega)).supplies (hsupplies room level (by omega) (by omega))

/-! ## The places -/

/-- A place where operands are wanted, with what stands before it. -/
inductive Slot where
  /-- Behind `^`, with the last sibling before as the base. -/
  | power (before : String) (init : List Node) (base : Node) (h : Readable before (init ++ [base]))
  /-- Behind `_`. -/
  | index (before : String) (init : List Node) (base : Node) (h : Readable before (init ++ [base]))
  /-- Behind `\frac`, where two operands are wanted. -/
  | fraction (before : Piece)
  /-- Behind `\frac` and its numerator. -/
  | denominator (before above : Piece)
  /-- Behind `\sqrt`. -/
  | radicand (before : Piece)

namespace Slot

def front : Slot → String
  | .power before _ _ _ => before ++ "^"
  | .index before _ _ _ => before ++ "_"
  | .fraction before => before.text ++ commandOf "frac"
  | .denominator before above => before.text ++ (commandOf "frac" ++ braced above.text)
  | .radicand before => before.text ++ commandOf "sqrt"

def wanted : Slot → Nat
  | .fraction _ => 2
  | _ => 1

/-- The siblings, when these nodes are read behind the place. A missing operand is an empty
group. -/
def nodes (ns : List Node) : Slot → List Node
  | .power _ init base _ => init ++ .superscript (some base) (ns.headD (.group [])) :: ns.tail
  | .index _ init base _ => init ++ .subscript (some base) (ns.headD (.group [])) :: ns.tail
  | .fraction before =>
    before.nodes ++ .fraction (ns.headD (.group [])) (ns.tail.headD (.group [])) :: ns.tail.tail
  | .denominator before above =>
    before.nodes ++ .fraction (.group above.nodes) (ns.headD (.group [])) :: ns.tail
  | .radicand before => before.nodes ++ .root (ns.headD (.group [])) none :: ns.tail

end Slot

/-- A script that the last sibling before it is the base of. -/
theorem Suppliable.script {before : String} {init : List Node} {base : Node}
    (h : Suppliable 1 s ns) (hbefore : Readable before (init ++ [base])) {c : Char}
    (hslash : c ≠ '\\') (hc : isNumberChar c = false ∧ Text.isLetter c = false)
    (make : Node → Node)
    (hrule : ∀ stops room acc ts node middle nodes after,
      ReadsAtom False stops room true ts node middle →
      ReadsSiblings False stops room (make node :: acc) middle nodes after →
      ReadsSiblings False stops room (base :: acc) (.char c :: ts) nodes after) :
    Readable (before ++ String.singleton c ++ s)
      (init ++ make (ns.headD (.group [])) :: ns.tail) := by
  obtain ⟨least, hsupplies⟩ := h
  obtain ⟨least', hbefore⟩ := hbefore
  refine ⟨max least least', fun room hroom stops acc cs nodes after hcs hrest => ?_⟩
  cases hsupplies room room (by omega) (by omega) stops cs hcs with
  | operand hnode htakes =>
    cases htakes with
    | siblings hsiblings =>
      have hbehind := hsiblings _ nodes after (by simpa using hrest)
      have hscript := hrule stops room (init.reverse ++ acc) _ _ _ nodes after hnode hbehind
      have := hbefore room (by omega) stops acc (c :: (s.toList ++ cs)) nodes after
        (.cons hc.1 hc.2) (by rw [scan_char hslash]; simpa using hscript)
      simpa using this

/-- A command with structure, behind siblings. -/
theorem Emits.before_nested {before text : String} {bs : List Node}
    (h : Emits (room + 1) before bs) (hright : name ≠ "right")
    (hname : name.toList.all Text.isAsciiLetter = true) {acc nodes : List Node}
    {ts middle after : List Token} {cs : List Char}
    (hscan : Token.scan none (text.toList ++ cs) = .command name :: ts)
    (hnode : ReadsNested False stops room false (.command name) ts node middle)
    (hrest : ReadsSiblings False stops (room + 1) (node :: (bs.reverse ++ acc)) middle nodes
      after) :
    ReadsSiblings False stops (room + 1) acc (Token.scan none ((before ++ text).toList ++ cs)) nodes
      after := by
  have hcloser := closer?_command hname hright
  have hends : EndsRun (text.toList ++ cs) := endsRun_of_scan hscan (by simp)
  rw [String.toList_append, List.append_assoc]
  refine h stops acc _ nodes after hends ?_
  rw [hscan]
  exact .operand (stops_eq_false_of_closer hcloser) rfl (startsOperand_command hright)
    (.nested (skipBlanks_cons rfl) (endsOperand_eq_false_of_closer hcloser) hnode) hrest

/-- The text goes on with no command, and is not the index of a root. -/
structure StartsApart (s : String) : Prop where
  noLetter : ∀ cs c, (s.toList ++ cs).head? = some c → Text.isAsciiLetter c = false
  noIndex : ∀ cs, EndsRun cs →
    (skipBlanks (Token.scan none (s.toList ++ cs))).head? ≠ some (.char '[')

/-- The name of a command ends before such a text. -/
theorem StartsApart.scan (h : StartsApart s) (hne : name ≠ "")
    (hname : name.toList.all Text.isAsciiLetter = true) (cs : List Char) :
    Token.scan none ((commandOf name ++ s).toList ++ cs)
      = .command name :: Token.scan none (s.toList ++ cs) := by
  simpa [commandOf] using scan_command hne hname (h.noLetter cs)

/-- A fraction takes two operands, whatever they are. -/
theorem Suppliable.fraction (h : Suppliable 2 s ns) (before : Piece) (hstart : StartsApart s) :
    Readable (before.text ++ (commandOf "frac" ++ s)) (before.nodes
      ++ .fraction (ns.headD (.group [])) (ns.tail.headD (.group [])) :: ns.tail.tail) := by
  obtain ⟨least, hsupplies⟩ := h
  obtain ⟨least', hbefore⟩ := before.readable
  refine ⟨max least least' + 1, fun room hroom stops acc cs nodes after hcs hrest => ?_⟩
  obtain ⟨r, rfl⟩ : ∃ r, room = r + 1 := ⟨room - 1, by omega⟩
  cases hsupplies (r + 1) r (by omega) (by omega) stops cs hcs with
  | operand habove htakes =>
    cases htakes with
    | operand hbelow htakes =>
      cases htakes with
      | siblings hsiblings =>
        refine (hbefore _ (by omega)).before_nested (by decide) (by decide)
          (hstart.scan (by decide) (by decide) cs) (.fraction rfl habove hbelow) ?_
        exact hsiblings _ nodes after (by simpa using hrest)

/-- Behind its numerator in braces a fraction takes one more. -/
theorem Suppliable.denominator (h : Suppliable 1 s ns) (before above : Piece) :
    Readable (before.text ++ (commandOf "frac" ++ braced above.text ++ s)) (before.nodes
      ++ .fraction (.group above.nodes) (ns.headD (.group [])) :: ns.tail) := by
  obtain ⟨least, hsupplies⟩ := h
  obtain ⟨least', hbefore⟩ := before.readable
  obtain ⟨inside, habove⟩ := above.readable
  refine ⟨max least (max least' inside) + 2, ?_⟩
  intro room hroom stops acc cs nodes after hcs hrest
  obtain ⟨r, rfl⟩ : ∃ r, room = r + 2 := ⟨room - 2, by omega⟩
  have hscan : Token.scan none ((commandOf "frac" ++ braced above.text ++ s).toList ++ cs)
      = .command "frac" :: Token.scan none ((braced above.text).toList ++ (s.toList ++ cs)) := by
    simp [commandOf, braced, Token.scan, Text.isAsciiLetter]
  have hnumerator := (habove r (by omega)).braced.isScript stops (s.toList ++ cs)
  cases hsupplies (r + 2) (r + 1) (by omega) (by omega) stops cs hcs with
  | operand hbelow htakes =>
    cases htakes with
    | siblings hsiblings =>
      refine (hbefore _ (by omega)).before_nested (by decide) (by decide) hscan
        (.fraction rfl hnumerator hbelow) ?_
      exact hsiblings _ nodes after (by simpa using hrest)

/-- A root takes one operand, unless an index stands before it. -/
theorem Suppliable.radicand (h : Suppliable 1 s ns) (before : Piece) (hstart : StartsApart s) :
    Readable (before.text ++ (commandOf "sqrt" ++ s))
      (before.nodes ++ .root (ns.headD (.group [])) none :: ns.tail) := by
  obtain ⟨least, hsupplies⟩ := h
  obtain ⟨least', hbefore⟩ := before.readable
  refine ⟨max least least' + 1, fun room hroom stops acc cs nodes after hcs hrest => ?_⟩
  obtain ⟨r, rfl⟩ : ∃ r, room = r + 1 := ⟨room - 1, by omega⟩
  cases hsupplies (r + 1) r (by omega) (by omega) stops cs hcs with
  | operand hnode htakes =>
    cases htakes with
    | siblings hsiblings =>
      have hradicand := hnode.of_skipBlanks (List.dropWhile_idempotent _ _)
      refine (hbefore _ (by omega)).before_nested (by decide) (by decide)
        (hstart.scan (by decide) (by decide) cs) (.root (hstart.noIndex cs hcs) hradicand) ?_
      exact hsiblings _ nodes after (by simpa using hrest)

/-- A place is read with the operands behind it. -/
theorem Slot.readable (slot : Slot) (h : Suppliable slot.wanted s ns) (hstart : StartsApart s) :
    Readable (slot.front ++ s) (slot.nodes ns) := by
  cases slot with
  | power before init base hbefore =>
    have hmark : "^" = String.singleton '^' := by decide
    rw [Slot.front, hmark]
    exact h.script hbefore (by decide) (by decide) (.superscript (some base))
      fun stops room acc _ _ _ _ _ => @ReadsSiblings.power False stops room (base :: acc) _ _ _ _ _
  | index before init base hbefore =>
    have hmark : "_" = String.singleton '_' := by decide
    rw [Slot.front, hmark]
    exact h.script hbefore (by decide) (by decide) (.subscript (some base))
      fun stops room acc _ _ _ _ _ => @ReadsSiblings.script False stops room (base :: acc) _ _ _ _ _
  | fraction before =>
    rw [Slot.front, String.append_assoc]
    exact h.fraction before hstart
  | denominator before above =>
    rw [Slot.front, String.append_assoc]
    exact h.denominator before above
  | radicand before =>
    rw [Slot.front, String.append_assoc]
    exact h.radicand before hstart

/-! ## A blank or a command there -/

theorem Slot.wanted_pos (slot : Slot) : 0 < slot.wanted := by
  cases slot <;> simp [Slot.wanted]

theorem skipBlanks_behindCommand (name : String) (gap : Bool) (s : String) (cs : List Char) :
    skipBlanks (Token.scan none ((behindCommand name gap s).toList ++ cs))
      = skipBlanks (Token.scan none (s.toList ++ cs)) := by
  unfold behindCommand
  split
  · rw [toList_blank, scan_char (by decide), skipBlanks_blank (by decide)]
  · rfl

/-- Behind a blank the operands are read as they stand. -/
theorem Slot.readable_blank (slot : Slot) (operands : List Operand) (rest : Piece)
    (hlength : operands.length = slot.wanted) (hends : EndsRun rest.text.toList) (name : String)
    (gap : Bool) :
    Readable (slot.front ++ (" " ++ behindCommand name gap (textOf operands rest.text)))
      (slot.nodes (nodesOf operands rest.nodes)) := by
  obtain ⟨least, hsupplies⟩ := suppliable_operands operands rest hends (.inl hlength.symm)
  have hsupplied : Suppliable slot.wanted
      (" " ++ behindCommand name gap (textOf operands rest.text)) (nodesOf operands rest.nodes) :=
    ⟨least, fun room level hroom hlevel =>
      ((hsupplies room level hroom hlevel).behindCommand name gap).after_blank⟩
  refine slot.readable hsupplied ⟨fun cs c hc => ?_, fun cs _ => ?_⟩
  · rw [toList_blank, List.head?_cons, Option.some.injEq] at hc
    exact hc ▸ by decide
  · rw [toList_blank, scan_char (by decide), skipBlanks_blank (by decide), skipBlanks_behindCommand]
    obtain ⟨o, others, rfl⟩ := List.exists_cons_of_length_pos (hlength ▸ slot.wanted_pos)
    simpa [textOf] using o.noIndex _

/-- A command there is the first of the operands, and the others move on by one. -/
theorem Slot.readable_command (slot : Slot) (operands : List Operand) (rest : Piece)
    (hlength : operands.length = slot.wanted) (hends : EndsRun rest.text.toList) (gap : Bool)
    (hcloser : (Token.command name).closer? = none) (hplain : isStructured name = false)
    (hfn : Fn.ofCommand? name = none) (hscan : ScansAlone name) :
    Readable (slot.front ++ commandBefore name gap (textOf operands rest.text))
      (slot.nodes (.command name :: nodesOf operands rest.nodes)) := by
  -- the command takes the place of one operand, so one fewer is wanted behind it
  obtain ⟨n, hn⟩ := Nat.exists_eq_succ_of_ne_zero slot.wanted_pos.ne'
  obtain ⟨least, hsupplies⟩ := suppliable_operands operands rest hends
    (.inr ((hlength.trans hn).symm : n + 1 = operands.length))
  have hsupplied : Suppliable slot.wanted (commandBefore name gap (textOf operands rest.text))
      (.command name :: nodesOf operands rest.nodes) := by
    refine ⟨least + 1, fun room level hroom hlevel => ?_⟩
    obtain ⟨r, rfl⟩ : ∃ r, level = r + 1 := ⟨level - 1, by omega⟩
    rw [hn]
    exact (hsupplies room (r + 1) (by omega) (by omega)).after_plain_command gap hcloser hplain hfn
      hscan
  refine slot.readable hsupplied ⟨fun cs c hc => ?_, fun cs hcs => ?_⟩
  · rw [commandBefore_toList, List.cons_append, List.head?_cons, Option.some.injEq] at hc
    exact hc ▸ by decide
  · rw [hscan.commandBefore gap _ hcs, skipBlanks_cons rfl]
    simp

end FormulaDesk.Markup
