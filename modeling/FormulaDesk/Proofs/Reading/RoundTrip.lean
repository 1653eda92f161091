import FormulaDesk.Proofs.Reading.Constructs

/-! # Reading undoes rendering

* `Node.render`: a tree as markup, with one blank between siblings;
* `Canonical`: the trees that reading can give back;
* `ofMarkup_renderAll`: canonical trees, rendered and read again, are the same trees, as long as
  they are nested no deeper than the limit.
-/

namespace FormulaDesk.Markup

/-! ## Rendering -/

/-- Markup between delimiters, given the opening one. -/
def enclosedIn (opener m : String) : String :=
  match opener with
  | "(" => parenthesized m
  | "[" => bracketed m
  | "\x7b" => setBraced m
  | _ => barred m

namespace Node

mutual

def render : Node → String
  | .text value => value
  | .number value => value
  | .word value => value
  | .command name => commandOf name
  | .group children => braced (renderAll children)
  | .delimited opener _ children => enclosedIn opener (renderAll children)
  | .fraction numerator denominator => "\\frac" ++ numerator.render ++ denominator.render
  | .root radicand none => "\\sqrt" ++ radicand.render
  | .root radicand (some (.group index)) =>
    "\\sqrt" ++ bracketed (renderAll index) ++ radicand.render
  | .root radicand (some index) => "\\sqrt" ++ bracketed index.render ++ radicand.render
  | .superscript base exponent => renderAfter "" base ++ "^" ++ exponent.render
  | .subscript base script => renderAfter "" base ++ "_" ++ script.render
  | .function fn argument script power =>
    commandOf fn.command
      ++ (renderAfter "_" script ++ (renderAfter "^" power ++ renderAfter "" argument))

/-- Siblings with a blank between any two. -/
def renderAll : List Node → String
  | [] => ""
  | [node] => node.render
  | node :: rest => node.render ++ " " ++ renderAll rest

/-- An optional node with a mark before it. -/
def renderAfter (mark : String) : Option Node → String
  | none => ""
  | some node => mark ++ node.render

end

example : renderAll [.superscript (some (.word "a")) (.group [.number "2"]), .command "pi"]
    = "a^\x7b2\x7d \\pi" := by decide

/-! ## Nesting -/

mutual

/-- The levels of grouping that it takes to read a node. The index of a root is no operand of its
own, and a script stands on the level of its base. -/
def nesting : Node → Nat
  | .group children => nestingAll children + 1
  | .delimited _ _ children => nestingAll children + 1
  | .fraction numerator denominator => max numerator.nesting denominator.nesting + 1
  | .root radicand none => radicand.nesting + 1
  | .root radicand (some (.group index)) => max radicand.nesting (nestingAll index) + 1
  | .root radicand (some index) => max radicand.nesting index.nesting + 1
  | .superscript base exponent => max (nestingOption base) exponent.nesting
  | .subscript base script => max (nestingOption base) script.nesting
  | .function _ argument script power =>
    max (nestingOption argument) (max (nestingOption script) (nestingOption power)) + 1
  | _ => 1

def nestingAll : List Node → Nat
  | [] => 0
  | node :: rest => max node.nesting (nestingAll rest)

def nestingOption : Option Node → Nat
  | none => 0
  | some node => node.nesting

end

end Node

open Node

/-! ## Canonical trees -/

/-- The pairs of delimiters. -/
def delimiterPairs : List (String × String) :=
  [("(", ")"), ("[", "]"), ("\x7b", "\x7d"), ("|", "|")]

mutual

/-- The trees that a text can be read as. Numbers and words are not empty, a group is where markup
has braces, and every script has a base. -/
inductive Canonical : Node → Prop
  | number {value} (hne : value ≠ "")
      (hvalue : ∀ c ∈ value.toList, Text.isAsciiDigit c = true ∨ c = '.') :
      Canonical (.number value)
  | word {value} (hne : value ≠ "") (hvalue : ∀ c ∈ value.toList, Text.isAsciiLetter c = true) :
      Canonical (.word value)
  | text {c} (hc : c ∈ symbols) : Canonical (.text (String.singleton c))
  | command {name} (hne : name ≠ "") (hname : name.toList.all Text.isAsciiLetter = true)
      (hplain : name ∉ ["left", "right", "operatorname", "sqrt", "frac", "dfrac", "tfrac"])
      (hfn : ∀ fn : Fn, name ≠ fn.command) : Canonical (.command name)
  | group {children} (h : CanonicalAll children) : Canonical (.group children)
  | delimited {opener closer children} (hpair : (opener, closer) ∈ delimiterPairs)
      (h : CanonicalAll children) : Canonical (.delimited opener closer children)
  | fraction {numerator denominator} (hnum : CanonicalAll numerator)
      (hden : CanonicalAll denominator) :
      Canonical (.fraction (.group numerator) (.group denominator))
  | root {radicand} (hrad : CanonicalAll radicand) : Canonical (.root (.group radicand) none)
  | indexedRoot {radicand index} (hrad : CanonicalAll radicand) (hindex : CanonicalAll index) :
      Canonical (.root (.group radicand) (some (.group index)))
  | superscript {base exponent} (hbase : Canonical base) (hexp : CanonicalAll exponent) :
      Canonical (.superscript (some base) (.group exponent))
  | subscript {base script} (hbase : Canonical base) (hscript : CanonicalAll script) :
      Canonical (.subscript (some base) (.group script))
  | function {fn opener closer children script power} (hpair : (opener, closer) ∈ delimiterPairs)
      (h : CanonicalAll children) (hscript : CanonicalScript script)
      (hpower : CanonicalScript power) :
      Canonical (.function fn (some (.delimited opener closer children)) script power)

/-- The optional script of a function: a group. -/
inductive CanonicalScript : Option Node → Prop
  | none : CanonicalScript none
  | group {children} (h : CanonicalAll children) : CanonicalScript (some (.group children))

inductive CanonicalAll : List Node → Prop
  | nil : CanonicalAll []
  | cons {node rest} (hnode : Canonical node) (hrest : CanonicalAll rest) :
      CanonicalAll (node :: rest)

end

/-! ## Canonical trees are read back -/

variable {room : Nat} {s : String} {ns : List Node}

theorem Emits.enclosedIn {opener closer : String} (h : Emits room s ns)
    (hpair : (opener, closer) ∈ delimiterPairs) :
    IsBracketed (room + 1) (enclosedIn opener s) (.delimited opener closer ns) := by
  simp only [delimiterPairs, List.mem_cons, Prod.mk.injEq, List.not_mem_nil, or_false] at hpair
  rcases hpair with ⟨rfl, rfl⟩ | ⟨rfl, rfl⟩ | ⟨rfl, rfl⟩ | ⟨rfl, rfl⟩
  · exact h.parenthesized
  · exact h.bracketed
  · exact h.setBraced
  · exact h.barred

theorem isOperand_canonical_command {name : String} (hne : name ≠ "")
    (hname : name.toList.all Text.isAsciiLetter = true)
    (hplain : name ∉ ["left", "right", "operatorname", "sqrt", "frac", "dfrac", "tfrac"])
    (hfn : ∀ fn : Fn, name ≠ fn.command) :
    IsOperand (room + 1) (commandOf name) (.command name) := by
  simp only [List.mem_cons, List.not_mem_nil, or_false, not_or] at hplain
  obtain ⟨hleft, hright, hoperator, hsqrt, hfrac, hdfrac, htfrac⟩ := hplain
  have hset : name ≠ "\x7b" := by
    rintro rfl
    exact absurd hname (by decide)
  refine isOperand_command hne hname hright ?_ ?_
  · simp [isStructured, isFractionCommand, hleft, hset, hfrac, hdfrac, htfrac, hsqrt, hoperator]
  · rw [Fn.ofCommand?, List.find?_eq_none]
    intro fn _
    simpa using (hfn fn).symm

/-- The script of a function is not there, or is read as a group. -/
def ScriptReads (room : Nat) (script : Option Node) : Prop :=
  script = none ∨ ∃ s node, script = some node ∧ IsScript room s node ∧
    ∀ mark, renderAfter mark script = mark ++ s

theorem isOperand_function {node : Node} {script power : Option Node} (fn : Fn)
    (h : IsBracketed room s node) (hscript : ScriptReads room script)
    (hpower : ScriptReads room power) :
    IsOperand (room + 1)
      (commandOf fn.command ++ (renderAfter "_" script ++ (renderAfter "^" power ++ s)))
      (.function fn (some node) script power) := by
  have happlied : IsApplied room fn script none (renderAfter "^" power ++ s)
      (.function fn (some node) script power) := by
    rcases hpower with rfl | ⟨p, power, rfl, hp, hmark⟩
    · simpa [renderAfter] using h.isApplied
    · rw [hmark]
      exact h.isApplied.after_power hp
  rcases hscript with rfl | ⟨b, script, rfl, hb, hmark⟩
  · simpa [renderAfter] using happlied.isOperand
  · rw [hmark]
    exact (happlied.after_script hb).isOperand

mutual

theorem Canonical.emits {node room} :
    Canonical node → node.nesting ≤ room → Emits room node.render [node]
  | .number hne hvalue, hroom => by
      obtain ⟨room, rfl⟩ := Nat.exists_eq_add_of_le' hroom
      refine (isOperand_number hne fun c hc => ?_).emits
      rcases hvalue c hc with hdigit | rfl
      · simp [isNumberChar, Text.isDigit, (Text.classes_of_isAsciiDigit hdigit).1]
      · rfl
  | .word hne hvalue, hroom => by
      obtain ⟨room, rfl⟩ := Nat.exists_eq_add_of_le' hroom
      exact (isOperand_word hne hvalue).emits
  | .text hc, hroom => by
      obtain ⟨room, rfl⟩ := Nat.exists_eq_add_of_le' hroom
      exact (isOperand_symbol hc).emits
  | .command hne hname hplain hfn, hroom => by
      obtain ⟨room, rfl⟩ := Nat.exists_eq_add_of_le' hroom
      exact (isOperand_canonical_command hne hname hplain hfn).emits
  | .group h, hroom => by
      obtain ⟨room, rfl⟩ := Nat.exists_eq_add_of_lt hroom
      exact (h.emits (Nat.le_add_right _ _)).braced.isOperand.emits
  | .delimited hpair h, hroom => by
      obtain ⟨room, rfl⟩ := Nat.exists_eq_add_of_lt hroom
      exact ((h.emits (Nat.le_add_right _ _)).enclosedIn hpair).isOperand.emits
  | .fraction hnum hden, hroom => by
      simp only [nesting] at hroom
      obtain ⟨room, rfl⟩ : ∃ r, room = r + 2 := ⟨room - 2, by omega⟩
      exact (isOperand_frac (hnum.emits (by omega)) (hden.emits (by omega))).emits
  | .root hrad, hroom => by
      simp only [nesting] at hroom
      obtain ⟨room, rfl⟩ : ∃ r, room = r + 2 := ⟨room - 2, by omega⟩
      exact (isOperand_sqrt (hrad.emits (by omega))).emits
  | .indexedRoot hrad hindex, hroom => by
      simp only [nesting] at hroom
      obtain ⟨room, rfl⟩ : ∃ r, room = r + 2 := ⟨room - 2, by omega⟩
      exact (isOperand_root (hrad.emits (by omega)) (hindex.emits (by omega))).emits
  | .superscript hbase hexp, hroom => by
      simp only [nesting, nestingOption] at hroom
      obtain ⟨room, rfl⟩ : ∃ r, room = r + 1 := ⟨room - 1, by omega⟩
      have hexponent : IsScript (room + 1) _ _ := (hexp.emits (by omega)).braced.isScript
      have := (hbase.emits (by omega)).superscript hexponent
      simpa [render, renderAfter] using this
  | .subscript hbase hscript, hroom => by
      simp only [nesting, nestingOption] at hroom
      obtain ⟨room, rfl⟩ : ∃ r, room = r + 1 := ⟨room - 1, by omega⟩
      have hscript : IsScript (room + 1) _ _ := (hscript.emits (by omega)).braced.isScript
      have := (hbase.emits (by omega)).subscript hscript
      simpa [render, renderAfter] using this
  | @Canonical.function fn _ _ _ _ _ hpair h hscript hpower, hroom => by
      simp only [nesting, nestingOption] at hroom
      obtain ⟨room, rfl⟩ : ∃ r, room = r + 2 := ⟨room - 2, by omega⟩
      have hargument : IsBracketed (room + 1) _ _ := (h.emits (by omega)).enclosedIn hpair
      have := isOperand_function fn hargument (hscript.emits (by omega)) (hpower.emits (by omega))
      simpa [render, renderAfter] using this.emits

theorem CanonicalScript.emits {script room} :
    CanonicalScript script → nestingOption script ≤ room → ScriptReads room script
  | .none, _ => Or.inl rfl
  | .group h, hroom => by
      obtain ⟨room, rfl⟩ := Nat.exists_eq_add_of_lt hroom
      exact Or.inr ⟨_, _, rfl, (h.emits (Nat.le_add_right _ _)).braced.isScript, fun _ => rfl⟩

theorem CanonicalAll.emits {nodes room} :
    CanonicalAll nodes → nestingAll nodes ≤ room → Emits room (renderAll nodes) nodes
  | .nil, _ => .nil
  | @CanonicalAll.cons _ rest hnode hrest, hroom => by
      have hnode' := hnode.emits (Nat.le_trans (Nat.le_max_left _ _) hroom)
      have hrest' := hrest.emits (Nat.le_trans (Nat.le_max_right _ _) hroom)
      cases rest with
      | nil => exact hnode'
      | cons next rest => exact hnode'.blank hrest'

end

/-- Canonical trees are what their rendering is read as, in every order and at every depth that the
limit allows. -/
theorem ofMarkup_renderAll {nodes : List Node} (h : CanonicalAll nodes)
    (hnesting : nestingAll nodes ≤ maxNesting) : Node.ofMarkup (renderAll nodes) = nodes :=
  ofMarkup_eq_of_reads (h.emits hnesting).reads

/-- A power of a word, and a logarithm of its absolute value. -/
theorem ofMarkup_renderAll_logarithm :
    Node.ofMarkup (renderAll [.superscript (some (.word "ab")) (.group [.number "1.5"]),
      .function .log (some (.delimited "|" "|" [.word "ab"])) (some (.group [.number "2"])) none])
      = [.superscript (some (.word "ab")) (.group [.number "1.5"]),
        .function .log (some (.delimited "|" "|" [.word "ab"])) (some (.group [.number "2"]))
          none] := by
  have hword : Canonical (.word "ab") := .word (by decide) (List.all_eq_true.mp (by decide))
  have hscript : CanonicalAll [.number "2"] :=
    .cons (.number (by decide) (by simp [Text.isAsciiDigit])) .nil
  have hexponent : CanonicalAll [.number "1.5"] :=
    .cons (.number (by decide) (by simp [Text.isAsciiDigit])) .nil
  have hlog : Canonical (.function .log (some (.delimited "|" "|" [.word "ab"]))
      (some (.group [.number "2"])) none) :=
    .function (by decide) (.cons hword .nil) (.group hscript) .none
  exact ofMarkup_renderAll (.cons (.superscript hword hexponent) (.cons hlog .nil)) (by decide)

end FormulaDesk.Markup
