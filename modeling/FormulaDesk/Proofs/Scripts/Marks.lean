import FormulaDesk.Proofs.Formula.Printing
import FormulaDesk.Proofs.Scripts.Bare
import FormulaDesk.Proofs.Scripts.Calls
import FormulaDesk.Proofs.Scripts.Plain

/-! # What the scripts of a function mark

A power may mark the inverse of a function and the base of a logarithm may be ten. Both are told by
the plain text of the script, and a script with structure may have less of it than was typed. So
`-1` behind a fraction is taken for the mark, and a base that is a root for none.
-/

namespace FormulaDesk

open Markup Dialect

namespace Dialect

/-! ## Clean calls -/

/-- The name of a call stays one word in the clean-up. -/
structure CleanName (name : String) : Prop where
  word : ∀ c ∈ name.toList, Text.isWord c = true
  unsplit : Unsplit name.toList
  unspaced : ∀ c ∈ name.toList, Text.isBlank c = false

/-- A name of word characters without blanks or gluing is clean. -/
theorem CleanName.of_all {name : String}
    (h : name.toList.all (fun c => Text.isWord c && !Text.isBlank c) = true)
    (hunsplit : Unsplit name.toList) : CleanName name := by
  simp only [List.all_eq_true, Bool.and_eq_true, Bool.not_eq_true'] at h
  exact ⟨fun c hc => (h c hc).1, hunsplit, fun c hc => (h c hc).2⟩

/-- The evaluable text of a markup, as the clean-up of its printed characters. -/
theorem toList_convert (m : String) : (evaluable.convert m).toList
    = tidy (evaluable.print (Node.ofMarkup m)).toList := by
  simp [convert, finish, evaluable]

variable {name : String} {m : String}

/-- A call is cleaned up argument by argument. -/
theorem CleanName.tidy_call (hname : CleanName name) (s t : List Char) :
    tidy (name.toList ++ '(' :: (s ++ ')' :: t)) = name.toList ++ '(' :: (tidy s ++ ')' :: tidy t) :=
  Dialect.tidy_call hname.word hname.unsplit hname.unspaced s t

end Dialect

/-! ## The mark of the inverse -/

variable {fn : Fn} {inverse e a b : String}

/-- What printing uses of a function that has an inverse: clean names, and no rule of its own. -/
theorem invertible_facts (h : fn.inverseName? = some inverse) : CleanName inverse ∧
    CleanName fn.command ∧ fn.callName = fn.command ∧ fn.isReciprocal = false ∧
      (fn == .log) = false := by
  cases fn <;> simp only [Fn.inverseName?, Option.some.injEq, reduceCtorEq] at h <;> subst h <;>
    exact ⟨.of_all (by decide) (by decide), .of_all (by decide) (by decide), rfl, rfl, rfl⟩

/-- A power on a function with an inverse is the inverse's call when it is `-1`, and a power of the
call otherwise. -/
theorem callText_power (h : fn.inverseName? = some inverse) (argument printed : String)
    (power : List Node) :
    evaluable.callText fn (some argument) none (some (.group power)) "" printed
      = if Node.plainTexts power = "-1" then inverse ++ inParens argument
        else fn.command ++ inParens argument ++ "**" ++ inParens printed := by
  obtain ⟨-, -, hcall, hreciprocal, hlog⟩ := invertible_facts h
  by_cases hmark : Node.plainTexts power = "-1"
  · simp [callText, hasLogBase, calledName, marksInverse, Node.plainText?, Node.plainText, h,
      hreciprocal, hlog, hmark]
  · simp [callText, hasLogBase, calledName, marksInverse, Node.plainText?, Node.plainText, h,
      hcall, hreciprocal, hlog, hmark, scriptText, evaluable, String.append_assoc]

/-- What a function with a power prints as, over the nodes of power and argument. -/
theorem print_power (h : fn.inverseName? = some inverse) (power argument : List Node) :
    evaluable.print [scriptedNode fn .upper power argument]
      = if Node.plainTexts power = "-1" then inverse ++ inParens (evaluable.print argument)
        else fn.command ++ inParens (evaluable.print argument) ++ "**"
          ++ inParens (evaluable.print power) := by
  rw [← callText_power h]
  simp [print, printSiblings, printNode, scriptedNode, printArgument, printOption, argumentText]

/-- A power converts to the inverse function exactly if the plain text of the exponent is `-1`. -/
theorem convert_power (hfn : fn.inverseName? = some inverse) (he : NestedMarkup e)
    (ha : NestedMarkup a) (hlimit : WithinLimit (scripted fn .upper e a)) :
    evaluable.convert (scripted fn .upper e a)
      = if Node.plainTexts (Node.ofMarkup e) = "-1" then
          inverse ++ inParens (evaluable.convert a)
        else fn.command ++ inParens (evaluable.convert a) ++ "**"
          ++ inParens (evaluable.convert e) := by
  obtain ⟨hinverse, hcommand, -⟩ := invertible_facts hfn
  apply convert_eq_of_tidy
  rw [ofMarkup_scripted he ha hlimit, print_power hfn]
  have hnil : tidy [] = [] := rfl
  split
  · simpa [inParens, hnil, toList_convert] using hinverse.tidy_call _ []
  · have hcall := hcommand.tidy_call (evaluable.print (Node.ofMarkup a)).toList
      ('*' :: '*' :: '(' :: ((evaluable.print (Node.ofMarkup e)).toList ++ [')']))
    rw [tidy_power, tidy_append (c := ')') rfl (evaluable.print (Node.ofMarkup e)).toList []]
      at hcall
    simpa [inParens, hnil, toList_convert] using hcall

/-- A power of an invertible function converts to the inverse function exactly if the plain text of
the exponent is `-1`. Among formulas that is minus one itself, and every difference of a fraction, a
power, a root or a call and one; in markup with no structure but braces it is what was typed. -/
theorem evaluableOf_power (hfn : fn.inverseName? = some inverse) (he : NestedMarkup e)
    (ha : NestedMarkup a) (hlimit : WithinLimit (scripted fn .upper e a)) :
    (Conversion.evaluableOf (scripted fn .upper e a)).value
        = (if Node.plainTexts (Node.ofMarkup e) = "-1" then
            inverse ++ inParens (Conversion.evaluableOf a).value
          else fn.command ++ inParens (Conversion.evaluableOf a).value ++ "**"
            ++ inParens (Conversion.evaluableOf e).value) ∧
      (isBareMarkup e = true →
        (Node.plainTexts (Node.ofMarkup e) = "-1" ↔ typedOf e = ['-', '1'])) ∧
      ∀ f : Formula, f.markup = e → (Node.plainTexts (Node.ofMarkup e) = "-1" ↔
        f.isMinusOne = true ∨ f.endsInMinusOne = true) := by
  have hminus : ∀ s : String, s = "-1" ↔ s.toList = ['-', '1'] := fun s => String.toList_inj.symm
  refine ⟨?_, fun hbare => ?_, ?_⟩
  · rw [evaluableOf_value, evaluableOf_value, evaluableOf_value]
    exact convert_power hfn he ha hlimit
  · rw [hminus, plainTexts_bare hbare]
  · rintro f rfl
    rw [hminus, Formula.ofMarkup_markup (hlimit.of_scripted he ha)]
    exact f.plain_eq_minusOne_iff

/-- A numeral of one digit. -/
def Numeral.digit (d : Char) (hd : Text.isAsciiDigit d = true) : Numeral where
  whole := [d]
  places := []
  isWhole := ⟨List.cons_ne_nil _ _, by simpa using hd, fun h => by simpa using h⟩
  digits := by simp

def half : Formula := .fraction (.numeral (.digit '1' rfl)) (.numeral (.digit '2' rfl))

/-- A negative exponent, and no mark. -/
def halfLessOne : Formula := .difference half (.numeral (.digit '1' rfl))

/-- The exponent of the example is well nested. -/
theorem nestedMarkup_halfLessOne : NestedMarkup halfLessOne.markup :=
  ⟨.token rfl (.braces (.token rfl .nil) (.braces (.token rfl .nil) (.token rfl (.token rfl .nil)))),
    rfl⟩

theorem nestedMarkup_x : NestedMarkup "x" := ⟨.token rfl .nil, rfl⟩

/-- An exponent of one half less one prints as `-1`, since a fraction leaves no plain text, and is
taken for the mark of the inverse. -/
theorem evaluableOf_power_halfLessOne :
    (Conversion.evaluableOf
      "\\sin^\x7b\\frac\x7b1\x7d\x7b2\x7d-1\x7d\\left(x\\right)").value = "asin(x)" ∧
      halfLessOne.markup = "\\frac\x7b1\x7d\x7b2\x7d-1" ∧
      halfLessOne.isMinusOne = false := by
  have hlimit : WithinLimit (scripted .sin .upper halfLessOne.markup "x") :=
    withinLimit_of_length (by decide)
  have hsin : Fn.sin.inverseName? = some "asin" := rfl
  obtain ⟨hvalue, -, hformula⟩ :=
    evaluableOf_power hsin nestedMarkup_halfLessOne nestedMarkup_x hlimit
  have hx : (Conversion.evaluableOf "x").value = "x" := by decide
  rw [if_pos ((hformula halfLessOne rfl).mpr (Or.inr (by decide))), hx] at hvalue
  exact ⟨hvalue, by decide, rfl⟩

/-! ## The base of a logarithm -/

/-- The text by which the base of a logarithm is told. -/
def baseText (base : List Node) : String :=
  String.ofList (Text.stripBlank (Node.plainTexts base).toList)

/-- A base is written unless it leaves nothing or `10`. -/
theorem hasLogBase_iff (base : List Node) : hasLogBase .log (some (.group base)) = true
    ↔ ¬ (baseText base = "" ∨ baseText base = "10") := by
  have hempty : (baseText base).isEmpty = (baseText base == "") := by
    rw [Bool.eq_iff_iff, String.isEmpty_iff, beq_iff_eq]
  have hlog : hasLogBase .log (some (.group base))
      = (!(baseText base).isEmpty && baseText base != "10") := by
    simp only [hasLogBase, baseText, Node.plainText?, Node.plainText, beq_self_eq_true,
      Option.isSome_some, Bool.true_and]
  rw [hlog, hempty]
  simp

/-- A logarithm is the common one when its base is left out, and has the base as a second argument
otherwise. -/
theorem callText_log (argument printed : String) (base : List Node) :
    evaluable.callText .log (some argument) (some (.group base)) none printed ""
      = if baseText base = "" ∨ baseText base = "10" then "log10" ++ inParens argument
        else "log" ++ inParens (argument ++ "," ++ printed) := by
  have hname : calledName .log none = "log10" := rfl
  have hreciprocal : Fn.log.isReciprocal = false := rfl
  split
  · next htext =>
    have hbase : hasLogBase .log (some (.group base)) = false := by
      rw [← Bool.not_eq_true, hasLogBase_iff]
      exact not_not_intro htext
    simp [callText, hbase, hname, hreciprocal]
  · next htext =>
    have hbase := (hasLogBase_iff base).mpr htext
    simp [callText, hbase, hreciprocal]

/-- What a logarithm with a base prints as, over the nodes of base and argument. -/
theorem print_log (base argument : List Node) :
    evaluable.print [scriptedNode .log .lower base argument]
      = if baseText base = "" ∨ baseText base = "10" then
          "log10" ++ inParens (evaluable.print argument)
        else "log" ++ inParens (evaluable.print argument ++ "," ++ evaluable.print base) := by
  rw [← callText_log]
  simp [print, printSiblings, printNode, scriptedNode, printArgument, printOption, argumentText]

/-- What a logarithm with a base converts to. -/
theorem convert_log (hb : NestedMarkup b) (ha : NestedMarkup a)
    (hlimit : WithinLimit (scripted .log .lower b a)) :
    evaluable.convert (scripted .log .lower b a)
      = if baseText (Node.ofMarkup b) = "" ∨ baseText (Node.ofMarkup b) = "10" then
          "log10" ++ inParens (evaluable.convert a)
        else "log" ++ inParens (evaluable.convert a ++ "," ++ evaluable.convert b) := by
  have hlog : CleanName "log" := .of_all (by decide) (by decide)
  have hlog10 : CleanName "log10" := .of_all (by decide) (by decide)
  have hnil : tidy [] = [] := rfl
  apply convert_eq_of_tidy
  rw [ofMarkup_scripted hb ha hlimit, print_log]
  split
  · simpa [inParens, hnil, toList_convert] using
      hlog10.tidy_call (evaluable.print (Node.ofMarkup a)).toList []
  · have hcall := hlog.tidy_call ((evaluable.print (Node.ofMarkup a)).toList
      ++ ',' :: (evaluable.print (Node.ofMarkup b)).toList) []
    rw [tidy_append (c := ',') rfl] at hcall
    simpa [inParens, hnil, toList_convert] using hcall

/-- A logarithm without a base is the common one. -/
theorem convert_applied_log (ha : NestedMarkup a) (hlimit : WithinLimit (applied .log a)) :
    evaluable.convert (applied .log a) = "log10" ++ inParens (evaluable.convert a) := by
  have hlog10 : CleanName "log10" := .of_all (by decide) (by decide)
  have hname : calledName .log none = "log10" := rfl
  have hreciprocal : Fn.log.isReciprocal = false := rfl
  have hprint : evaluable.print (Node.ofMarkup (applied .log a))
      = "log10" ++ inParens (evaluable.print (Node.ofMarkup a)) := by
    rw [ofMarkup_applied ha hlimit]
    simp [print, printSiblings, printNode, printArgument, argumentText, callText, hasLogBase, hname,
      hreciprocal]
  have hnil : tidy [] = [] := rfl
  apply convert_eq_of_tidy
  rw [hprint]
  simpa [inParens, hnil, toList_convert] using
    hlog10.tidy_call (evaluable.print (Node.ofMarkup a)).toList []

/-- A logarithm without a base is that to the base ten, and one with a base keeps it unless the plain
text of the base is empty or ten. Among formulas that text is empty for every fraction, power, root
and call, and for two of them side by side; in markup with no structure but braces it is what was
typed. -/
theorem evaluableOf_log (hb : NestedMarkup b) (ha : NestedMarkup a)
    (hlimit : WithinLimit (scripted .log .lower b a)) :
    (WithinLimit (applied .log a) → (Conversion.evaluableOf (applied .log a)).value
      = "log10" ++ inParens (Conversion.evaluableOf a).value) ∧
    (Conversion.evaluableOf (scripted .log .lower b a)).value
      = (if baseText (Node.ofMarkup b) = "" ∨ baseText (Node.ofMarkup b) = "10" then
          "log10" ++ inParens (Conversion.evaluableOf a).value
        else "log" ++ inParens ((Conversion.evaluableOf a).value ++ ","
          ++ (Conversion.evaluableOf b).value)) ∧
    (isBareMarkup b = true → (baseText (Node.ofMarkup b) = "" ↔ typedOf b = []) ∧
      (baseText (Node.ofMarkup b) = "10" ↔ typedOf b = ['1', '0'])) ∧
    ∀ f : Formula, f.markup = b →
      (baseText (Node.ofMarkup b) = "" ↔ f.leavesNothing = true) ∧
      (baseText (Node.ofMarkup b) = "10" ↔ f.leavesTen = true) := by
  have hofList : ∀ (cs : List Char) (s : String), String.ofList cs = s ↔ cs = s.toList := by
    intro cs s
    rw [← String.toList_inj, String.toList_ofList]
  refine ⟨fun happlied => ?_, ?_, fun hbare => ?_, ?_⟩
  · rw [evaluableOf_value, evaluableOf_value]
    exact convert_applied_log ha happlied
  · rw [evaluableOf_value, evaluableOf_value, evaluableOf_value]
    exact convert_log hb ha hlimit
  · have hblanks : ∀ c ∈ typedOf b, Text.isBlank c = false := by
      intro c hc
      simp only [typedOf, List.mem_filter, Bool.not_eq_true', Bool.or_eq_false_iff] at hc
      exact hc.2.1.1
    rw [baseText, plainTexts_bare hbare, Text.stripBlank_eq_self hblanks, hofList, hofList]
    exact ⟨Iff.rfl, Iff.rfl⟩
  · rintro f rfl
    have hplain : (Node.plainTexts (Node.ofMarkup f.markup)).toList = f.plain := by
      rw [Formula.ofMarkup_markup (hlimit.of_scripted hb ha), Formula.plain]
    rw [baseText, hplain, f.stripBlank_plain, hofList, hofList]
    exact ⟨f.plain_eq_nil_iff, f.plain_eq_ten_iff⟩

/-- The base of the example is well nested. -/
theorem nestedMarkup_half : NestedMarkup half.markup :=
  ⟨.token rfl (.braces (.token rfl .nil) (.braces (.token rfl .nil) .nil)), rfl⟩

/-- A base of one half leaves no plain text, and the logarithm becomes the common one. -/
theorem evaluableOf_log_half :
    (Conversion.evaluableOf
      "\\log_\x7b\\frac\x7b1\x7d\x7b2\x7d\x7d\\left(x\\right)").value = "log10(x)" ∧
      half.markup = "\\frac\x7b1\x7d\x7b2\x7d" := by
  have hlimit : WithinLimit (scripted .log .lower half.markup "x") :=
    withinLimit_of_length (by decide)
  obtain ⟨-, hvalue, -, hformula⟩ := evaluableOf_log nestedMarkup_half nestedMarkup_x hlimit
  have hx : (Conversion.evaluableOf "x").value = "x" := by decide
  rw [if_pos (Or.inl ((hformula half rfl).1.mpr (by decide))), hx] at hvalue
  exact ⟨hvalue, by decide⟩

end FormulaDesk
