import FormulaDesk.Proofs.Spacing.Operands

/-! # Spacing commands

A spacing command is read as a sibling of its own. Nothing is printed of it, but its neighbours are
no longer next to each other: they mean no product, and a function takes no argument from behind it.
A blank in its place leaves no node. So the two are printed alike just where the neighbours mean no
product, and everywhere else the text of the one is the text of the other without the star. Where an
operand is wanted the command is that operand, and what was meant for it is left over
(`evaluableOf_spacing`).
-/

namespace FormulaDesk

open Markup Dialect

variable {s m : String} {ns : List Node}

/-! ## Reading -/

theorem spacing_facts (hs : isSpacing s = true) : (Token.command s).closer? = none ∧
    (Token.command s).startsOperand = true ∧ isStructured s = false ∧ Fn.ofCommand? s = none ∧
    (Token.command s).startsBracketed = false ∧ isOperand (.command s) = false ∧
    commandText evaluable s = "" := by
  have hall : ∀ s ∈ spacingCommands, (Token.command s).closer? = none ∧
      (Token.command s).startsOperand = true ∧ isStructured s = false ∧ Fn.ofCommand? s = none ∧
      (Token.command s).startsBracketed = false ∧ isOperand (.command s) = false ∧
      commandText evaluable s = "" := by decide
  exact hall s (by simpa [isSpacing] using hs)

/-- A spacing command is one character behind its backslash, or a name of letters. -/
theorem scansAlone_spacing (hs : isSpacing s = true) : ScansAlone s := by
  intro cs hcs
  have hmem : s ∈ spacingCommands := by simpa [isSpacing] using hs
  simp only [spacingCommands, List.mem_cons, List.not_mem_nil, or_false] at hmem
  rcases hmem with rfl | rfl | rfl | rfl | rfl | rfl | rfl
  · rfl
  · rfl
  · rfl
  · rfl
  · rfl
  · exact scan_command (by decide) (by decide) (hcs (by decide))
  · exact scan_command (by decide) (by decide) (hcs (by decide))

theorem readable_spaced (hs : isSpacing s = true) (gap : Bool) (h : Readable m ns) :
    Readable (commandBefore s gap m) (.command s :: ns) := by
  obtain ⟨hcloser, hstart, hplain, hfn, -⟩ := spacing_facts hs
  refine h.map 1 fun room hreads => ?_
  exact Emits.after_plain_command gap hcloser hstart hplain hfn (hreads _ (Nat.le_succ room))
    (scansAlone_spacing hs)

/-- Two pieces with a spacing command between them. -/
theorem readable_around_spacing (A B : Piece) (hs : isSpacing s = true) (gap : Bool) :
    Readable (A.text ++ commandBefore s gap B.text) (A.nodes ++ .command s :: B.nodes) := by
  refine A.readable.map₂ (readable_spaced hs gap B.readable) 0 fun room hA hB => ?_
  exact (hA _ (Nat.le_refl room)).append (hB _ (Nat.le_refl room)) fun cs _ =>
    endsRun_commandBefore s gap B.text cs

/-- The same pieces with a blank in its place. -/
theorem readable_around_blank (A B : Piece) (s : String) (gap : Bool) :
    Readable (A.text ++ " " ++ behindCommand s gap B.text) (A.nodes ++ B.nodes) := by
  refine A.readable.map₂ B.readable 0 fun room hA hB => ?_
  exact (hA _ (Nat.le_refl room)).blank ((hB _ (Nat.le_refl room)).behindCommand s gap)

/-- A function right before a spacing command has no argument. -/
theorem readable_function_spaced (fn : Fn) (B : Piece) (hs : isSpacing s = true) (gap : Bool) :
    Readable (commandOf fn.command ++ commandBefore s gap B.text)
      (.function fn none none none :: .command s :: B.nodes) := by
  obtain ⟨hcloser, -, -, -, hbracketed, -⟩ := spacing_facts hs
  obtain ⟨hne, hletters, hright, hplain, hfn⟩ := fn_command_facts fn
  have hfncloser : (Token.command fn.command).closer? = none := closer?_command hletters hright
  refine (readable_spaced hs gap B.readable).map 1 fun room hreads => ?_
  intro stops acc cs nodes after hcs hrest
  have hrest' := hreads (room + 1) (Nat.le_succ room) stops (.function fn none none none :: acc) cs
    nodes after hcs (by simpa using hrest)
  -- the scanner stops at the backslash, and the reader of arguments at the command
  obtain ⟨ts, hts⟩ : ∃ ts, Token.scan none ((commandBefore s gap B.text).toList ++ cs)
      = .command s :: ts := ⟨_, (scansAlone_spacing hs).commandBefore gap B.text hcs⟩
  have hscan : Token.scan none ((commandOf fn.command ++ commandBefore s gap B.text).toList ++ cs)
      = .command fn.command :: .command s :: ts := by
    have hends := (endsRun_commandBefore s gap B.text cs).ends_command
    rw [← hts]
    simpa [commandOf] using scan_command hne hletters hends
  rw [hts] at hrest'
  rw [hscan]
  have hskip : skipBlanks (.command s :: ts) = .command s :: ts := skipBlanks_cons rfl
  have hbare : ReadsFunction False stops room fn none none (.command s :: ts)
      (.function fn none none none) (.command s :: ts) := by
    refine .argument ?_ ?_ ?_
    · rw [hskip]
      simp
    · rw [hskip]
      simp
    · rw [hskip]
      exact .other (stops_eq_false_of_closer hcloser) hbracketed rfl
  exact .operand (stops_eq_false_of_closer hfncloser) rfl (startsOperand_command hright)
    (.nested (skipBlanks_cons rfl) (endsOperand_eq_false_of_closer hfncloser)
      (.function hplain hfn hbare)) hrest'

/-- A spacing command where operands are wanted is the first of them. -/
theorem readable_slot_spaced (slot : Slot) (operands : List Operand) (rest : Piece)
    (hlength : operands.length = slot.wanted) (hends : EndsRun rest.text.toList)
    (hs : isSpacing s = true) (gap : Bool) :
    Readable (slot.front ++ commandBefore s gap (textOf operands rest.text))
      (slot.nodes (.command s :: nodesOf operands rest.nodes)) := by
  obtain ⟨hcloser, -, hplain, hfn, -⟩ := spacing_facts hs
  exact slot.readable_command operands rest hlength hends gap hcloser hplain hfn
    (scansAlone_spacing hs)

/-! ## Printing -/

/-- What is printed between two rows of siblings. -/
def betweenRows (ns : List Node) : List Node → String
  | [] => ""
  | node :: _ => between ns.getLast? node

theorem printSiblings_rows (d : Dialect) (ns ns' : List Node) :
    printSiblings d none (ns ++ ns')
      = printSiblings d none ns ++ (betweenRows ns ns' ++ printSiblings d none ns') := by
  cases ns' with
  | nil => simp [betweenRows, printSiblings]
  | cons node ns' => rw [printSiblings_append, Option.or_none, betweenRows]

theorem printSiblings_spaced (hs : isSpacing s = true) (ns ns' : List Node) :
    printSiblings evaluable none (ns ++ .command s :: ns')
      = printSiblings evaluable none ns ++ printSiblings evaluable none ns' := by
  obtain ⟨-, -, -, -, -, hoperand, htext⟩ := spacing_facts hs
  rw [printSiblings_around hoperand, printNode, htext, String.empty_append]

theorem printSiblings_bare (fn : Fn) :
    printSiblings evaluable none [.function fn none none none] = calledName fn none := by
  cases fn <;> decide

/-! ## Conversion -/

/-- Inside all layers, a spacing command leaves the text of its two neighbours side by side. A blank
in its place leaves the same text, with a star where the neighbours mean a product. A function
before a spacing command is printed without an argument. Behind `^`, `_`, `\frac` and `\sqrt` the
command is the operand, and each operand behind it moves on by one; a blank there moves none. -/
theorem evaluableOf_spacing (layers : List Layer) (A B : Piece) {s : String}
    (hs : isSpacing s = true) (gap : Bool) (hne : A.nodes ++ B.nodes ≠ [])
    (hlimit : WithinLimit (within layers (A.text ++ commandBefore s gap B.text)))
    (hlimit' : WithinLimit (within layers (A.text ++ " " ++ behindCommand s gap B.text))) :
    (Conversion.evaluableOf (within layers (A.text ++ commandBefore s gap B.text))).value
        = evaluable.finish (printedWithin evaluable layers (A.nodes ++ B.nodes)
          (evaluable.print A.nodes ++ evaluable.print B.nodes)) ∧
      (Conversion.evaluableOf (within layers (A.text ++ " " ++ behindCommand s gap B.text))).value
        = evaluable.finish (printedWithin evaluable layers (A.nodes ++ B.nodes)
          (evaluable.print A.nodes ++ (betweenRows A.nodes B.nodes ++ evaluable.print B.nodes))) ∧
      (∀ fn, WithinLimit (within layers (commandOf fn.command ++ commandBefore s gap B.text)) →
        (Conversion.evaluableOf
            (within layers (commandOf fn.command ++ commandBefore s gap B.text))).value
          = evaluable.finish (printedWithin evaluable layers
            (.function fn none none none :: B.nodes)
            (calledName fn none ++ evaluable.print B.nodes))) ∧
      ∀ (slot : Slot) (operands : List Operand) (rest : Piece), operands.length = slot.wanted →
        EndsRun rest.text.toList →
        WithinLimit
          (within layers (slot.front ++ commandBefore s gap (textOf operands rest.text))) →
        WithinLimit (within layers
          (slot.front ++ (" " ++ behindCommand s gap (textOf operands rest.text)))) →
        (Conversion.evaluableOf
            (within layers (slot.front ++ commandBefore s gap (textOf operands rest.text)))).value
          = evaluable.finish (printedWithin evaluable layers
            (slot.nodes (.command s :: nodesOf operands rest.nodes))
            (evaluable.print (slot.nodes (.command s :: nodesOf operands rest.nodes)))) ∧
        (Conversion.evaluableOf (within layers
            (slot.front ++ (" " ++ behindCommand s gap (textOf operands rest.text))))).value
          = evaluable.finish (printedWithin evaluable layers
            (slot.nodes (nodesOf operands rest.nodes))
            (evaluable.print (slot.nodes (nodesOf operands rest.nodes)))) := by
  refine ⟨?_, ?_, fun fn hfn => ?_, ?_⟩
  · have hsame : A.nodes ++ .command s :: B.nodes = [] ↔ A.nodes ++ B.nodes = [] := by
      simpa using hne
    have hread := readable_around_spacing A B hs gap
    rw [evaluableOf_value, convert_within evaluable layers hread hlimit, printSiblings_spaced hs,
      printedWithin_congr evaluable layers hsame]
    rfl
  · have hread := readable_around_blank A B s gap
    rw [evaluableOf_value, convert_within evaluable layers hread hlimit', printSiblings_rows]
    rfl
  · have hsame : ∀ ns : List Node, .function fn none none none :: .command s :: ns = []
        ↔ .function fn none none none :: ns = [] := by simp
    have hprint := printSiblings_spaced hs [.function fn none none none] B.nodes
    rw [printSiblings_bare, List.singleton_append] at hprint
    have hread := readable_function_spaced fn B hs gap
    rw [evaluableOf_value, convert_within evaluable layers hread hfn, hprint,
      printedWithin_congr evaluable layers (hsame B.nodes)]
    rfl
  · intro slot operands rest hlength hends hspaced hblank
    have hcommand := readable_slot_spaced slot operands rest hlength hends hs gap
    have hoperands := slot.readable_blank operands rest hlength hends s gap
    rw [evaluableOf_value, evaluableOf_value, convert_within evaluable layers hcommand hspaced,
      convert_within evaluable layers hoperands hblank]
    exact ⟨rfl, rfl⟩

/-- A numerator, alone over its denominator. -/
def overZ : List Layer := [.bracket .empty (.numerator (.letter 'z' rfl)) .empty]

theorem readable_x : Readable "x" [.word "x"] := (Piece.letter 'x' rfl).readable

/-- The exponent of `x`. -/
def powerOfX : Slot := .power "x" [] (.word "x") readable_x

/-- A spacing command between two letters, behind a function and behind the sign of a power, each
inside a fraction, beside the same markup with a blank. -/
theorem evaluableOf_spacing_overZ :
    (Conversion.evaluableOf "\\frac\x7bx\\,y\x7d\x7bz\x7d").value = "(xy)/(z)" ∧
      (Conversion.evaluableOf "\\frac\x7bx y\x7d\x7bz\x7d").value = "(x*y)/(z)" ∧
      (Conversion.evaluableOf "\\frac\x7b\\sin\\,y\x7d\x7bz\x7d").value = "(siny)/(z)" ∧
      (Conversion.evaluableOf "\\frac\x7bx^\\,2\x7d\x7bz\x7d").value = "(x***2)/(z)" ∧
      (Conversion.evaluableOf "\\frac\x7bx^ 2\x7d\x7bz\x7d").value = "(x**2)/(z)" ∧
      (Conversion.evaluableOf "\\frac\x7b\\frac\\,\x7by\x7dx\x7d\x7bz\x7d").value
        = "(()/(y)*x)/(z)" ∧
      (Conversion.evaluableOf "\\frac\x7b\\frac \x7by\x7dx\x7d\x7bz\x7d").value
        = "((y)/(x))/(z)" := by
  have hlimit : ∀ m ∈ ["x\\,y", "x y", "\\sin\\,y", "x^\\,2", "x^ 2", "\\frac\\,\x7by\x7dx",
      "\\frac \x7by\x7dx"], WithinLimit (fracOf m "z") := by
    intro m hm
    refine withinLimit_of_length ?_
    revert m
    decide
  simp only [List.forall_mem_cons] at hlimit
  obtain ⟨hlimit₁, hlimit₂, hlimit₃, hlimit₄, hlimit₅, hlimit₆, hlimit₇, -⟩ := hlimit
  obtain ⟨hspaced, hblank, hfunction, hslot⟩ := evaluableOf_spacing overZ (.letter 'x' rfl)
    (.letter 'y' rfl) (s := ",") (by decide) false (by simp [Piece.letter]) hlimit₁ hlimit₂
  obtain ⟨hpower, hpower'⟩ := hslot powerOfX [.numberChar '2' (by decide)] .empty rfl .nil hlimit₄
    hlimit₅
  obtain ⟨hfrac, hfrac'⟩ := hslot (.fraction .empty)
    [.braced (.letter 'y' rfl), .letter 'x' (by decide)] .empty rfl .nil hlimit₆ hlimit₇
  exact ⟨hspaced.trans (by decide +kernel), hblank.trans (by decide +kernel),
    (hfunction .sin hlimit₃).trans (by decide +kernel), hpower.trans (by decide +kernel),
    hpower'.trans (by decide +kernel), hfrac.trans (by decide +kernel),
    hfrac'.trans (by decide +kernel)⟩

end FormulaDesk
