import FormulaDesk.Proofs.Dialect.Settled
import FormulaDesk.Proofs.Spacing.Cuts

/-! # Blanks behind a command

Blanks behind a command are nothing, with two exceptions. The token behind `\left` or `\right` is
the delimiter whatever it is, so the first blank is taken and what was the delimiter is left over.
And an argument without brackets ends at a blank, so a command that is its last exponent is the end
of it. Away from these two the markup converts as without the blanks, however broken it is, and
behind `\left` and `\right` all blanks but the first are nothing too (`evaluableOf_blanks`).
-/

namespace FormulaDesk.Markup

variable {blanks : Blanks} {post before ts ts' : List Token} {t : Token} {delimiting : Bool}

/-! ## Where the blanks stand -/

/-- Whether the token behind these is taken as a delimiter. `delimiting` says whether the first one
is. -/
def awaits : (delimiting : Bool) → List Token → Bool
  | delimiting, [] => delimiting
  | delimiting, t :: ts => awaits (!delimiting && t.takesDelimiter) ts

/-- No argument without brackets goes on behind the blanks: there is none that ends at them, or none
that could go on. A token that is a delimiter starts no function. -/
def Uncut (front : List Token) (blanks : Blanks) (post : List Token) : Prop :=
  EndsFactors post ∨ ∀ before t inside, front = before ++ t :: inside →
    awaits false before = false →
    ¬ EndsArgument t (inside ++ (blanks.tokens ++ post)) (blanks.tokens ++ post)

/-- The commands that are read with an argument. -/
def Token.callsFunction : Token → Bool
  | .command name => (Fn.ofCommand? name).isSome || name == "operatorname"
  | .char _ => false

/-- Where no function is called, no argument ends. -/
theorem uncut_of_no_function {front : List Token} (h : ∀ t ∈ front, t.callsFunction = false) :
    Uncut front blanks post := by
  refine .inr fun before t inside hfront _ ⟨stops, room, single, node, hbare, hreads⟩ => ?_
  obtain ⟨fn, nodes, script, power, rfl⟩ := hbare
  have ht := h t (hfront ▸ List.mem_append_right before List.mem_cons_self)
  cases hreads with
  | namedFunction => simp [Token.callsFunction] at ht
  | function _ hfn => simp [Token.callsFunction, hfn] at ht

theorem awaits_append (delimiting : Bool) (before : List Token) (t : Token) :
    awaits delimiting (before ++ [t]) = (!awaits delimiting before && t.takesDelimiter) := by
  induction before generalizing delimiting with
  | nil => rfl
  | cons u before ih => exact ih _

/-- Tokens before the same tokens without and with the blanks. -/
theorem Spaced.append (before : List Token)
    (huncut : ∀ first t inside, before = first ++ t :: inside → awaits delimiting first = false →
      EndsFactors post ∨ ¬ EndsArgument t (inside ++ ts') (blanks.tokens ++ post))
    (h : Spaced blanks post (awaits delimiting before) ts ts') :
    Spaced blanks post delimiting (before ++ ts) (before ++ ts') := by
  induction before generalizing delimiting with
  | nil => exact h
  | cons t before ih =>
    refine .cons (huncut [] t before rfl) (ih (fun first u inside hbefore hawaits => ?_) h)
    exact huncut (t :: first) u inside (by rw [hbefore, List.cons_append]) hawaits

/-- The last token before the blanks is a delimiter, or a command that takes none. -/
theorem spaced_behind (huncut : Uncut (before ++ [t]) blanks post)
    (hplace : awaits false before = true ∨
      awaits false before = false ∧ t.takesDelimiter = false ∧ ∃ name, t = .command name) :
    Spaced blanks post false (before ++ t :: post) (before ++ t :: (blanks.tokens ++ post)) := by
  refine Spaced.append before (fun first u inside hbefore hawaits => ?_) ?_
  · exact huncut.imp_right fun hnot => by
      simpa using hnot first u (inside ++ [t]) (by simp [hbefore]) hawaits
  · rcases hplace with hdelimiter | ⟨hdelimiter, htaken, name, rfl⟩
    · rw [hdelimiter]
      exact .behindDelimiter
    · rw [hdelimiter]
      exact .behindCommand htaken (huncut.imp_right fun hnot => hnot before _ [] rfl hdelimiter)

/-! ## Texts -/

/-- A complete command ends right before `post`. -/
structure BehindCommand (front post : String) : Prop where
  command : ∃ before name, Token.ofString front = before ++ [.command name]
  complete : dangles false front.toList = false
  splits : Token.ofString (front ++ post) = Token.ofString front ++ Token.ofString post

/-- Both dialects give the same text. -/
def ConvertsAs (markup markup' : String) : Prop :=
  (Conversion.evaluableOf markup).value = (Conversion.evaluableOf markup').value ∧
    Conversion.directGraphing markup = Conversion.directGraphing markup'

theorem convertsAs_of_nodes {markup markup' : String}
    (h : Node.ofMarkup markup = Node.ofMarkup markup') : ConvertsAs markup markup' := by
  rw [ConvertsAs, Dialect.evaluableOf_value, Dialect.evaluableOf_value,
    Dialect.directGraphing_eq_convert, Dialect.directGraphing_eq_convert]
  simp only [Dialect.convert, h, and_self]

/-- Blanks behind a complete text are read on their own. -/
theorem ofString_blanks {front ws : String} (hcomplete : dangles false front.toList = false)
    (hne : ws ≠ "") (hws : ∀ c ∈ ws.toList, Text.isBlank c = true) (post : String) :
    Token.ofString (front ++ ws ++ post)
      = Token.ofString front ++ (charTokens ws.toList ++ Token.ofString post) := by
  -- a blank neither continues the name of the command nor starts another
  have hplain : ∀ c ∈ ws.toList, Text.isAsciiLetter c = false ∧ c ≠ '\\' := by
    refine fun c hc => ⟨?_, ?_⟩
    · by_contra hletter
      rw [Bool.not_eq_false] at hletter
      have hblank := hws c hc
      rw [(Text.classes_of_isAsciiLetter hletter).2.2] at hblank
      simp at hblank
    · rintro rfl
      exact absurd (hws _ hc) (by decide)
  have hblanks := scan_chars (fun c hc => (hplain c hc).2) post.toList
  obtain ⟨b, bs, hbs⟩ : ∃ b bs, ws.toList = b :: bs :=
    List.exists_cons_of_ne_nil (by simpa using hne)
  rw [Token.ofString, String.toList_append, String.toList_append, List.append_assoc,
    Token.ofString, Token.ofString, ← hblanks, hbs]
  exact scan_append (hplain b (hbs ▸ List.mem_cons_self)).1 (bs ++ post.toList) front.toList none
    hcomplete

/-- Blanks behind a command change nothing, unless an argument without brackets ends there that
would go on. Behind `\left` and `\right` this holds of all blanks but the first, which is the
delimiter. -/
theorem evaluableOf_blanks {front post : String} (h : BehindCommand front post) (blanks : Blanks) :
    (awaits false (Token.ofString front) = false →
      Uncut (Token.ofString front) blanks (Token.ofString post) →
      ConvertsAs (front ++ blanks.text ++ post) (front ++ post)) ∧
    (awaits false (Token.ofString front) = true → ∀ w, Text.isBlank w = true →
      Uncut (Token.ofString front ++ [.char w]) blanks (Token.ofString post) →
      ConvertsAs (front ++ String.singleton w ++ blanks.text ++ post)
        (front ++ String.singleton w ++ post)) ∧
    ∀ (a : RaisedArgument) (layers : List Layer),
      WithinLimit (within layers (a.markup blanks.text)) →
      WithinLimit (within layers (a.markup "")) →
      (Conversion.evaluableOf (within layers (a.markup blanks.text))).value
          ≠ (Conversion.evaluableOf (within layers (a.markup ""))).value ∧
        Conversion.directGraphing (within layers (a.markup blanks.text))
          ≠ Conversion.directGraphing (within layers (a.markup "")) := by
  obtain ⟨⟨before, name, hfront⟩, hcomplete, hsplits⟩ := h
  refine ⟨fun hawaits huncut => convertsAs_of_nodes ?_,
    fun hawaits w hw huncut => convertsAs_of_nodes ?_, fun a layers hlimit hlimit' => ⟨?_, ?_⟩⟩
  · rw [hfront] at hawaits huncut
    rw [awaits_append] at hawaits
    -- a command that is itself a delimiter takes none
    have hspaced := spaced_behind huncut <| by
      cases hdelimiter : awaits false before with
      | true => exact .inl rfl
      | false => exact .inr ⟨rfl, by simpa [hdelimiter] using hawaits, name, rfl⟩
    rw [Node.ofMarkup, Node.ofMarkup, ofString_blanks hcomplete blanks.nonempty blanks.blank,
      hsplits, hfront]
    simpa using hspaced.ofTokens_eq
  · have hspaced := spaced_behind huncut (.inl hawaits)
    -- `w` is the delimiter, and the other blanks stand behind it
    have hblanks : front ++ String.singleton w ++ blanks.text
        = front ++ (String.singleton w ++ blanks.text) := String.append_assoc
    rw [Node.ofMarkup, Node.ofMarkup, hblanks,
      ofString_blanks hcomplete (by simp) (by simpa using ⟨hw, blanks.blank⟩),
      ofString_blanks hcomplete (by simp) (by simpa using hw)]
    simpa using hspaced.ofTokens_eq
  · rw [Dialect.evaluableOf_value, Dialect.evaluableOf_value]
    exact a.cut layers blanks Dialect.evaluable hlimit hlimit'
  · rw [Dialect.directGraphing_eq_convert, Dialect.directGraphing_eq_convert]
    exact a.cut layers blanks Dialect.graphing hlimit hlimit'

/-- One blank. -/
def Blanks.one : Blanks where
  text := " "
  nonempty := by decide
  blank c hc := by
    obtain rfl : c = ' ' := by simpa using hc
    decide

/-- A sine of a power of two that is multiplied by three. -/
def sineOfProduct : RaisedArgument where
  before := .empty
  fn := .sin
  base := "2"
  bare := by decide
  exponent := "pi"
  named := by decide
  plain := by decide
  number := "3"
  nonempty := by decide
  digits := List.all_eq_true.mp (by decide)
  rest := .symbol '!' (by simp [symbols])
  ends := by decide

/-- A blank behind a constant, a second one behind `\right`, and one that cuts an argument. -/
theorem evaluableOf_blanks_one : BehindCommand "2\\pi" "3" ∧ ConvertsAs "2\\pi 3" "2\\pi3" ∧
    BehindCommand "\\left(x\\right" ")" ∧
    ConvertsAs "\\left(x\\right  )" "\\left(x\\right )" ∧
    (Conversion.evaluableOf "\\sin 2^\\pi 3!").value
      ≠ (Conversion.evaluableOf "\\sin 2^\\pi3!").value := by
  have hpi : BehindCommand "2\\pi" "3" :=
    ⟨⟨[.char '2'], "pi", by decide⟩, by decide, by decide⟩
  have hright : BehindCommand "\\left(x\\right" ")" :=
    ⟨⟨[.command "left", .char '(', .char 'x'], "right", by decide⟩, by decide, by decide⟩
  have hlimit : WithinLimit "\\sin 2^\\pi 3!" ∧ WithinLimit "\\sin 2^\\pi3!" :=
    ⟨withinLimit_of_length (by decide), withinLimit_of_length (by decide)⟩
  obtain ⟨hbehind, -, hcut⟩ := evaluableOf_blanks hpi Blanks.one
  have hfirst := hbehind (by decide) (uncut_of_no_function (by decide))
  have hsecond := (evaluableOf_blanks hright Blanks.one).2.1 (by decide) ' ' (by decide)
    (uncut_of_no_function (by decide))
  have htexts : "2\\pi" ++ Blanks.one.text ++ "3" = "2\\pi 3" ∧ "2\\pi" ++ "3" = "2\\pi3" ∧
      "\\left(x\\right" ++ String.singleton ' ' ++ Blanks.one.text ++ ")"
        = "\\left(x\\right  )" ∧
      "\\left(x\\right" ++ String.singleton ' ' ++ ")" = "\\left(x\\right )" := by decide
  have hmarkup : sineOfProduct.markup Blanks.one.text = "\\sin 2^\\pi 3!" ∧
      sineOfProduct.markup "" = "\\sin 2^\\pi3!" := by decide
  have hsine := (hcut sineOfProduct [] (by rw [within, hmarkup.1]; exact hlimit.1)
    (by rw [within, hmarkup.2]; exact hlimit.2)).1
  rw [htexts.1, htexts.2.1] at hfirst
  rw [htexts.2.2.1, htexts.2.2.2] at hsecond
  rw [within, within, hmarkup.1, hmarkup.2] at hsine
  exact ⟨hpi, hfirst, hright, hsecond, hsine⟩

/-- The first blank is the delimiter, so the parenthesis behind it is a second one. -/
example : Conversion.directGraphing "\\left(x\\right )" = "(x))" := by decide +kernel

/-- The exponent is the end of the argument, unless something stands directly behind it. -/
example : Conversion.directGraphing "\\sin 2^\\pi3" = "sin(2^π*3)" ∧
    Conversion.directGraphing "\\sin 2^\\pi 3" = "sin(2^π)*3" := by decide +kernel

end FormulaDesk.Markup
