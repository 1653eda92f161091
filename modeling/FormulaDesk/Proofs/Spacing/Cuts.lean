import FormulaDesk.Proofs.Spacing.Context
import FormulaDesk.Proofs.Spacing.Readers

/-! # Arguments that blanks cut

The last exponent of an argument without brackets may be a command, and the argument may go on
behind it. Blanks behind the command end the argument there, and what it would have gone on with is
a factor beside the function. The two texts differ, whatever stands around (`RaisedArgument.cut`):
the clean-up drops and inserts blanks and stars only, so the parenthesis that ends the call stands
before the factor in the one and behind it in the other.
-/

namespace FormulaDesk

open Markup Dialect

/-! ## What the clean-up keeps -/

/-- The characters that no pass drops or inserts. -/
def ink (cs : List Char) : List Char := cs.filter fun c => !Text.isBlank c && c != '*'

/-- The ink of a text is the ink of its parts. -/
theorem ink_append (cs ds : List Char) : ink (cs ++ ds) = ink cs ++ ink ds := List.filter_append ..

theorem ink_cons_of_inked {c : Char} (hblank : Text.isBlank c = false) (hstar : c ≠ '*')
    (cs : List Char) : ink (c :: cs) = c :: ink cs := by
  simp [ink, hblank, hstar]

/-- Each pass keeps the ink, by the recursion that it is defined by. -/
theorem ink_dropBlanks (cs : List Char) : ink (dropBlanks cs) = ink cs := by
  rw [ink, dropBlanks, List.filter_filter, ink]
  congr 1
  funext c
  cases Text.isBlank c <;> simp

/-- Texts with the same ink have it behind one more character too. -/
theorem ink_cons_congr {cs ds : List Char} (h : ink cs = ink ds) (c : Char) :
    ink (c :: cs) = ink (c :: ds) := by
  simp only [ink] at h
  simp only [ink, List.filter_cons, h]

/-- A star is no ink. -/
theorem ink_star (cs : List Char) : ink ('*' :: cs) = ink cs := by
  simp [ink]

/-- Dropping the star between a name and its parenthesis keeps the ink. -/
theorem ink_joinCalls (run cs : List Char) : ink (joinCalls run cs) = ink cs := by
  induction cs generalizing run with
  | nil => rfl
  | cons c cs ih =>
    unfold joinCalls
    split_ifs with hword hstar
    · exact ink_cons_congr (ih _) c
    · simp only [Bool.and_eq_true, beq_iff_eq] at hstar
      rw [hstar.1.1, ink_star, ih]
    · exact ink_cons_congr (ih _) c

/-- Putting stars between factors keeps the ink. -/
theorem ink_splitFactors (cs : List Char) : ink (splitFactors cs) = ink cs := by
  induction cs with
  | nil => rfl
  | cons c cs ih =>
    unfold splitFactors
    split_ifs
    · exact ink_cons_congr ((ink_star _).trans ih) c
    · exact ink_cons_congr ih c

/-- Dropping stars keeps the ink. -/
theorem ink_dropStars (cs : List Char) : ink (dropStars cs) = ink cs := by
  induction cs with
  | nil => rfl
  | cons c cs ih =>
    unfold dropStars
    split_ifs with hstar
    · simp only [Bool.and_eq_true, beq_iff_eq] at hstar
      rw [hstar.1, ink_star, ih]
    · exact ink_cons_congr ih c

/-- The clean-up as a whole keeps it, whichever passes the dialect needs. -/
theorem ink_finish (d : Dialect) (s : String) : ink (d.finish s).toList = ink s.toList := by
  have htidy : ink (tidy s.toList) = ink s.toList := by
    rw [tidy, ink_splitFactors, ink_joinCalls, ink_dropBlanks]
  rw [finish, String.toList_ofList]
  split_ifs
  · rw [ink_dropStars, htidy]
  · exact htidy

/-- Texts that part with different characters stay apart. -/
theorem finish_ne (d : Dialect) (front : String) {s s' : String}
    (h : (ink s.toList).head? ≠ (ink s'.toList).head?) :
    d.finish (front ++ s) ≠ d.finish (front ++ s') := by
  intro heq
  have hink := congrArg (fun t => ink t.toList) heq
  simp only [ink_finish, String.toList_append, ink_append, List.append_cancel_left_eq] at hink
  exact h (congrArg List.head? hink)

/-! ## What is printed around a place -/

/-- What is printed around a text does not depend on the text. -/
def Frames (f : String → String) : Prop := ∃ pre post, ∀ s, f s = pre ++ (s ++ post)

namespace Frames

variable {f g : String → String}

theorem self : Frames fun s => s := ⟨"", "", fun s => by simp⟩

/-- Text put in front stays in front. -/
theorem before (h : Frames f) (t : String) : Frames fun s => t ++ f s := by
  obtain ⟨pre, post, hf⟩ := h
  exact ⟨t ++ pre, post, fun s => by simp only [hf, String.append_assoc]⟩

/-- Text put behind stays behind. -/
theorem behind (h : Frames f) (t : String) : Frames fun s => f s ++ t := by
  obtain ⟨pre, post, hf⟩ := h
  exact ⟨pre, post ++ t, fun s => by simp only [hf, String.append_assoc]⟩

/-- Parentheses around what is framed frame it. -/
theorem inParens (h : Frames f) : Frames fun s => inParens (f s) := (h.before "(").behind ")"

/-- Frames can be put inside one another. -/
theorem comp (h : Frames f) (h' : Frames g) : Frames fun s => f (g s) := by
  obtain ⟨pre, post, hf⟩ := h
  have hg := (h'.before pre).behind post
  simpa only [hf, String.append_assoc] using hg

end Frames

/-- A call ends with the parenthesis of its argument, or with two of them. -/
theorem callOf_eq (fn : Fn) :
    ∃ pre post, ∀ s, Formula.callOf fn s = pre ++ (s ++ (")" ++ post)) := by
  cases hreciprocal : fn.isReciprocal with
  | true =>
    refine ⟨"(" ++ ("1/" ++ (fn.callName ++ "(")), ")", fun s => ?_⟩
    simp [Formula.callOf, hreciprocal, inParens, String.append_assoc]
  | false =>
    refine ⟨fn.callName ++ "(", "", fun s => ?_⟩
    simp [Formula.callOf, hreciprocal, inParens, String.append_assoc]

/-- Every construct prints its inside once and as it is. -/
theorem Bracket.frames (d : Dialect) (b : Bracket) : Frames fun inner => b.printed d inner := by
  cases b with
  | braces => exact .self
  | bars => exact (Frames.self.before "abs(").behind ")"
  | numerator below => exact (Frames.self.inParens.behind "/").behind _
  | denominator above => exact Frames.self.inParens.before _
  | radicand => exact Frames.self.inParens.before "sqrt"
  | argument fn =>
    obtain ⟨pre, post, hcall⟩ := callOf_eq fn
    exact ⟨pre, ")" ++ post, hcall⟩
  | _ => exact Frames.self.inParens

/-- What a power prints stands between two texts that do not depend on its exponent. -/
theorem frames_powerText (d : Dialect) (base : Option (Node × String)) :
    Frames fun inner => d.powerText base (.group []) inner := by
  unfold powerText
  split
  · exact Frames.self.inParens.before "exp"
  · exact Frames.self.inParens.before _
  · exact Frames.self.inParens.before _
  · exact Frames.self.inParens.before _

/-- So do all layers, from the innermost outwards. -/
theorem frames_within (d : Dialect) (layers : List Layer) (ns : List Node) :
    Frames fun inner => printedWithin d layers ns inner := by
  induction layers generalizing ns with
  | nil => exact .self
  | cons l layers ih =>
    have hconstruct : Frames fun inner => l.construct d inner := by
      cases l with
      | bracket before b after => exact b.frames d
      | exponent before init base h after => exact frames_powerText d _
    have hlayer : Frames fun inner => l.printed d ns inner :=
      ((hconstruct.behind _).before _).before _
    exact (ih (l.nodes ns)).comp hlayer

/-! ## An argument that goes on behind a command -/

/-- A function among siblings. Its argument without brackets has a command as an exponent, and a
number behind it. -/
structure RaisedArgument where
  before : Piece
  fn : Fn
  base : String
  bare : IsBareArgument base.toList
  /-- The name of the command. -/
  exponent : String
  named : exponent ≠ "" ∧ exponent.toList.all Text.isAsciiLetter = true ∧ exponent ≠ "right"
  plain : isStructured exponent = false ∧ Fn.ofCommand? exponent = none
  number : String
  nonempty : number ≠ ""
  digits : ∀ c ∈ number.toList, isNumberChar c = true
  rest : Piece
  /-- The argument does not go on with what follows the number. -/
  ends : rest.text.toList.head?.any (fun c => !isFactorChar c && c != '^') = true

namespace RaisedArgument

variable {room : Nat} (a : RaisedArgument)

/-- The markup from the function on, with a text between the command and the number. -/
def call (between : String) : String :=
  commandOf a.fn.command ++ " " ++ a.base ++ "^" ++ commandOf a.exponent ++ between ++ a.number
    ++ a.rest.text

/-- The same markup behind what stands before the function. -/
def markup (between : String) : String :=
  a.before.text ++ a.call between

/-- The function with these factors as its argument. -/
def callNode (inside : List Node) : Node := .function a.fn (some (.group inside)) none none

/-- The siblings, with these factors in the argument and those behind the function. -/
def nodes (inside behind : List Node) : List Node :=
  a.before.nodes ++ a.callNode inside :: (behind ++ a.rest.nodes)

/-- There is a character behind the number, and it ends the argument. -/
theorem ends_factors (cs : List Char) :
    ∃ c ds, a.rest.text.toList ++ cs = c :: ds ∧ isFactorChar c = false ∧ c ≠ '^' := by
  have hends := a.ends
  cases hrest : a.rest.text.toList with
  | nil => simp [hrest] at hends
  | cons c ds => exact ⟨c, ds ++ cs, rfl, by simpa [hrest] using hends⟩

/-- Blanks end the name of the command, and so does the number. -/
theorem no_letter {between : String} (hbetween : ∀ c ∈ between.toList, Text.isBlank c = true)
    (cs : List Char) : ∀ c, (between.toList ++ (a.number.toList
      ++ (a.rest.text.toList ++ cs))).head? = some c → Text.isAsciiLetter c = false := by
  intro c hc
  by_contra hletter
  rw [Bool.not_eq_false] at hletter
  cases hlist : between.toList with
  | cons b bs =>
    have hblank := hbetween b (by simp [hlist])
    obtain rfl : b = c := by simpa [hlist] using hc
    rw [(Text.classes_of_isAsciiLetter hletter).2.2] at hblank
    simp at hblank
  | nil =>
    obtain ⟨d, ds, hnumber⟩ :=
      List.exists_cons_of_ne_nil (mt String.toList_eq_nil_iff.mp a.nonempty)
    have hdigit := a.digits d (by simp [hnumber])
    obtain rfl : d = c := by simpa [hlist, hnumber] using hc
    rw [isNumberChar_of_isAsciiLetter hletter] at hdigit
    simp at hdigit

/-- The tokens up to the command, and what is scanned behind it. -/
theorem scan_call {between : String} (hbetween : ∀ c ∈ between.toList, Text.isBlank c = true)
    (cs : List Char) :
    Token.scan none ((a.call between).toList ++ cs)
      = .command a.fn.command :: .char ' ' :: (charTokens a.base.toList ++ .char '^'
        :: .command a.exponent :: Token.scan none (between.toList ++ (a.number.toList
          ++ (a.rest.text.toList ++ cs)))) := by
  have hlist : (a.call between).toList ++ cs
      = '\\' :: (a.fn.command.toList ++ ' ' :: (a.base.toList ++ '^' :: '\\'
        :: (a.exponent.toList ++ (between.toList ++ (a.number.toList
          ++ (a.rest.text.toList ++ cs)))))) := by
    simp [call, commandOf]
  rw [hlist, scan_fn a.fn (by simp [Text.isAsciiLetter]), scan_char (by decide),
    scan_chars a.bare.ne_backslash, scan_char (by decide),
    scan_command a.named.1 a.named.2.1 (a.no_letter hbetween cs)]

/-- The number ends with its last digit. -/
theorem endsRun_rest (cs : List Char) : EndsRun (a.rest.text.toList ++ cs) := by
  obtain ⟨c, ds, hrest, hfactor, -⟩ := a.ends_factors cs
  rw [hrest]
  refine .cons ?_ ?_ <;> by_contra hrun
  · rw [isFactorChar_of_run (.inl (by simpa using hrun))] at hfactor
    simp at hfactor
  · rw [isFactorChar_of_run (.inr (by simpa using hrun))] at hfactor
    simp at hfactor

/-- The argument ends behind the number. -/
theorem endsFactors_rest (cs : List Char) :
    EndsFactors (Token.scan none (a.rest.text.toList ++ cs)) := by
  obtain ⟨c, ds, hrest, hends⟩ := a.ends_factors cs
  rw [hrest]
  refine endsFactors_scan fun d hd => ?_
  obtain rfl : c = d := by simpa using hd
  exact hends

/-- The number as a factor of the argument. -/
theorem number_reads (stops : Stops) (acc : List Node) (cs : List Char) :
    ReadsFactors False stops (room + 1) acc
      (Token.scan none (a.number.toList ++ (a.rest.text.toList ++ cs)))
      (acc.reverse ++ [.number a.number]) (Token.scan none (a.rest.text.toList ++ cs)) := by
  have hnumber : IsOperand (room + 1) a.number (.number a.number) :=
    isOperand_number a.nonempty a.digits
  have hread := hnumber.reads stops _ (a.endsRun_rest cs)
  have hdone : ReadsFactors False stops (room + 1) (.number a.number :: acc) _ _ _ :=
    (a.endsFactors_rest cs).done _
  obtain ⟨d, ds, hlist⟩ := List.exists_cons_of_ne_nil (mt String.toList_eq_nil_iff.mp a.nonempty)
  have hdigit := a.digits d (by simp [hlist])
  rw [hlist, List.cons_append, scan_char (run_char (.inl hdigit)).1] at hread ⊢
  rw [List.reverse_cons] at hdone
  exact .factor (isFactorChar_of_run (.inl hdigit)) hread hdone

/-- The function is read with its argument, however far that goes behind the command. -/
theorem call_reads : ∃ raised : List Node,
    ∀ (between : String) (_ : ∀ c ∈ between.toList, Text.isBlank c = true) (stops : Stops)
      (room : Nat) (cs : List Char) (inside : List Node) (middle : List Token) (acc out : List Node)
      (after : List Token),
      ReadsFactors False stops (room + 1) raised
        (Token.scan none (between.toList ++ (a.number.toList ++ (a.rest.text.toList ++ cs)))) inside
        middle →
      ReadsSiblings False stops (room + 2)
        (a.callNode inside :: acc) middle out after →
      ReadsSiblings False stops (room + 2) acc (Token.scan none ((a.call between).toList ++ cs)) out
        after := by
  have hbase : ([] : List Node).isEmpty = false ∨ a.base.toList.head? ≠ some '^' :=
    Or.inr a.bare.head_ne_caret
  obtain ⟨acc', hfilled, hreads⟩ := factorRun_reads False a.bare.toIsFactorRun hbase
  have hne : acc'.isEmpty = false := by
    by_contra hempty
    have hfirst := a.bare.first
    rw [(hfilled (by simpa using hempty)).2] at hfirst
    simp at hfirst
  refine ⟨.superscript acc'.head? (.command a.exponent) :: acc'.tail, ?_⟩
  intro between hbetween stops room cs inside middle acc out after hfactors hrest
  have hcloser := closer?_command a.named.2.1 a.named.2.2
  have hpower := ReadsFactors.power hne (.nested (skipBlanks_cons rfl)
    (endsOperand_eq_false_of_closer hcloser) (.command a.plain.1 a.plain.2)) hfactors
  have hargument := (hreads stops room _ (fun c hc => ?_) _ _).1 hpower
  · rw [a.scan_call hbetween]
    exact ReadsFactors.call a.bare hargument hrest
  · obtain rfl : '^' = c := by simpa using hc
    decide

/-- The whole markup is readable when the function can be read in front of what follows it. -/
theorem readable_of_emits {between : String} {inside behind : List Node}
    (h : ∀ room, Emits (room + 2) a.rest.text a.rest.nodes →
      Emits (room + 2) (a.call between) (a.callNode inside :: (behind ++ a.rest.nodes))) :
    Readable (a.markup between) (a.nodes inside behind) := by
  have hends : ∀ cs, EndsRun ((a.call between).toList ++ cs) := fun cs => by
    have hlist : (a.call between).toList ++ cs = '\\' :: ((a.call between).toList ++ cs).tail := by
      simp [call, commandOf]
    rw [hlist]
    exact .cons (by decide) (by decide)
  refine a.before.readable.map₂ a.rest.readable 2 fun room hbefore hrest => ?_
  exact (hbefore _ (by omega)).append (h room (hrest _ (by omega))) fun cs _ => hends cs

/-- Behind the command the argument goes on with the number, and blanks end it there. -/
theorem readable : ∃ raised : List Node,
    (∀ blanks : Blanks,
      Readable (a.markup blanks.text) (a.nodes raised [.number a.number])) ∧
    Readable (a.markup "") (a.nodes (raised ++ [.number a.number]) []) := by
  obtain ⟨raised, hcall⟩ := a.call_reads
  refine ⟨raised.reverse, fun blanks => a.readable_of_emits ?_, a.readable_of_emits ?_⟩
  · intro room hrest stops acc cs out after hcs hout
    have hbehind := hrest stops (.number a.number :: a.callNode raised.reverse :: acc) cs out after
      hcs (by simpa using hout)
    have hnumber : IsOperand (room + 2) a.number (.number a.number) :=
      isOperand_number a.nonempty a.digits
    have hsiblings := hnumber.emits stops _ _ out after (a.endsRun_rest cs) hbehind
    refine hcall blanks.text blanks.blank stops room cs _ _ acc out after
      (EndsFactors.done ?_ raised) ?_
    · rw [blanks.scan]
      exact blanks.endsFactors _
    · rw [blanks.scan]
      exact blanks.readsSiblings hsiblings
  · intro room hrest stops acc cs out after hcs hout
    have hbehind := hrest stops (a.callNode (raised.reverse ++ [.number a.number]) :: acc) cs out
      after hcs (by simpa using hout)
    exact hcall "" (by simp) stops room cs _ _ acc out after (a.number_reads stops raised cs)
      hbehind

/-- It does not matter to a neighbour what the argument of the function is. -/
theorem between_callNode (previous : Option Node) (inside : List Node) :
    between previous (a.callNode inside) = between previous (a.callNode []) := by
  cases previous with
  | none => rfl
  | some p => simp [callNode, between, juxtaposed, isOperand]

/-- Up to the last factor of the argument the same is printed, however the argument ends. -/
theorem printSiblings_nodes (d : Dialect) : ∃ front, ∀ inside behind, ∃ post,
    printSiblings d none (a.nodes inside behind)
      = front ++ (printSiblings d none inside ++ (")" ++ post)) := by
  obtain ⟨pre, post, hcall⟩ := callOf_eq a.fn
  have hprint : ∀ inside, printNode d (a.callNode inside)
      = pre ++ (printSiblings d none inside ++ (")" ++ post)) := fun inside => by
    rw [← hcall]
    simp [callNode, printNode, printArgument, printOption, Formula.callText_apply]
  refine ⟨printSiblings d none a.before.nodes
      ++ (between a.before.nodes.getLast? (a.callNode []) ++ pre), fun inside behind =>
    ⟨post ++ printSiblings d (some (a.callNode inside)) (behind ++ a.rest.nodes), ?_⟩⟩
  rw [nodes, printSiblings_append, Option.or_none, printSiblings_step, between_none,
    String.empty_append, between_callNode, hprint]
  simp only [String.append_assoc]

/-- A star may come before the number, and then comes its first digit. -/
theorem ink_number (previous : Option Node) (t : String) :
    (ink (between previous (.number a.number) ++ (a.number ++ t)).toList).head? ≠ some ')' := by
  have hbetween : ink (between previous (.number a.number)).toList = [] := by
    unfold between
    split <;> decide
  obtain ⟨c, cs, hlist⟩ := List.exists_cons_of_ne_nil (mt String.toList_eq_nil_iff.mp a.nonempty)
  have hdigit := a.digits c (by simp [hlist])
  have hstar : c ≠ '*' := by
    rintro rfl
    exact absurd hdigit (by decide)
  rw [String.toList_append, ink_append, hbetween, List.nil_append, String.toList_append, hlist,
    List.cons_append, ink_cons_of_inked (isBlank_of_isNumberChar hdigit) hstar]
  rintro ⟨⟩
  exact absurd hdigit (by decide)

/-- Blanks that cut the argument change the text, in both dialects and inside any layers. -/
theorem cut (layers : List Layer) (blanks : Blanks) (d : Dialect)
    (hlimit : WithinLimit (within layers (a.markup blanks.text)))
    (hlimit' : WithinLimit (within layers (a.markup ""))) :
    d.convert (within layers (a.markup blanks.text)) ≠ d.convert (within layers (a.markup "")) := by
  obtain ⟨inside, hcut, hwhole⟩ := a.readable
  obtain ⟨front, hprint⟩ := a.printSiblings_nodes d
  obtain ⟨post, hcutText⟩ := hprint inside [.number a.number]
  obtain ⟨post', hwholeText⟩ := hprint (inside ++ [.number a.number]) []
  have hsame : a.nodes inside [.number a.number] = []
      ↔ a.nodes (inside ++ [.number a.number]) [] = [] := by
    simp [nodes]
  obtain ⟨outer, outer', hframes⟩ :=
    frames_within d layers (a.nodes (inside ++ [.number a.number]) [])
  have hnumber : printSiblings d none (inside ++ [.number a.number])
      = printSiblings d none inside ++ (between inside.getLast? (.number a.number) ++ a.number) := by
    rw [printSiblings_append, Option.or_none]
    simp [printSiblings, printNode]
  rw [convert_within d layers (hcut blanks) hlimit, convert_within d layers hwhole hlimit',
    printedWithin_congr d layers hsame, hcutText, hwholeText, hnumber]
  simp only [hframes]
  -- both begin with the call up to the last factor that they have in common
  have hparen : (ink (")" ++ (post ++ outer')).toList).head? = some ')' := by
    simp [ink, show Text.isBlank ')' = false by decide]
  have hfactor := a.ink_number inside.getLast? (")" ++ (post' ++ outer'))
  rw [← hparen] at hfactor
  simpa only [String.append_assoc] using
    finish_ne d (outer ++ (front ++ printSiblings d none inside)) hfactor.symm

end RaisedArgument

end FormulaDesk
