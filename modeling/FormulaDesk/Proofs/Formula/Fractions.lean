import FormulaDesk.Proofs.Formula.Preservation
import Mathlib.Tactic.LinearCombination

/-! # Where a fraction is one operand

A fraction is printed as a quotient without parentheses around it. They are put in where it is the
base of a power, and the call of the exponential has its own; everywhere else the quotient is taken
apart by what stands beside it.
-/

namespace FormulaDesk

open Markup Dialect Arithmetic

/-- A place for a fraction as an operand of its own. -/
inductive FractionPlace where
  /-- Behind a slash or a division sign. -/
  | divisor (slash : Bool) (c : Formula)
  /-- The exponent of a power, without braces. -/
  | exponent (c : Formula)
  /-- The exponent of a function that is applied, without braces. -/
  | appliedExponent (fn : Fn) (x : Formula)
  | base (c : Formula)
  /-- The base of a power, in braces. -/
  | bracedBase (c : Formula)

namespace FractionPlace

variable (a b : Formula)

/-- The formula whose one operand is the fraction. -/
def formula : FractionPlace → Formula
  | .divisor _ c => .quotient c (.fraction a b)
  | .exponent c => .power c (.fraction a b)
  | .appliedExponent fn x => .power (.apply fn x) (.fraction a b)
  | .base c => .power (.fraction a b) c
  | .bracedBase c => .power (.fraction a b) c

/-- The markup with the fraction in its place. -/
def markup : FractionPlace → String
  | .divisor slash c =>
    Formula.wrapped c.isCompound c.markup ++ (if slash then "/" else "\\div")
      ++ fracOf a.markup b.markup
  | .exponent c =>
    Formula.wrapped (c.isCompound || c.isPower) c.markup ++ "^" ++ fracOf a.markup b.markup
  | .appliedExponent fn x =>
    commandOf fn.command ++ ("^" ++ fracOf a.markup b.markup ++ leftRight x.markup)
  | .base c => fracOf a.markup b.markup ++ "^" ++ braced c.markup
  | .bracedBase c => braced (fracOf a.markup b.markup) ++ "^" ++ braced c.markup

/-! ## Reading -/

def fractionNode : Node := .fraction (.group a.nodes) (.group b.nodes)

/-- The nodes that the markup is read as. -/
def nodes : FractionPlace → List Node
  | .divisor slash c =>
    [Formula.wrappedNode c.isCompound c.nodes, if slash then .text "/" else .command "div",
      fractionNode a b]
  | .exponent c =>
    [.superscript (some (Formula.wrappedNode (c.isCompound || c.isPower) c.nodes))
      (fractionNode a b)]
  | .appliedExponent fn x =>
    [.function fn (some (.delimited "(" ")" x.nodes)) none (some (fractionNode a b))]
  | .base c => [.superscript (some (fractionNode a b)) (.group c.nodes)]
  | .bracedBase c => [.superscript (some (.group [fractionNode a b])) (.group c.nodes)]

/-- A fraction behind a division sign is read as the third of three nodes. -/
theorem emits_divisor {room : Nat} {s s' : String} {node node' : Node} (slash : Bool)
    (h : Emits (room + 1) s [node]) (h' : Emits (room + 1) ("\\" ++ s') [node']) :
    Emits (room + 1) (s ++ (if slash then "/" else "\\div") ++ ("\\" ++ s'))
      [node, if slash then .text "/" else .command "div", node'] := by
  have hends : ∀ t : String, ∀ cs, EndsRun (("\\" ++ t).toList ++ cs) := fun t cs => by
    simpa using EndsRun.cons (by decide) (by decide)
  cases slash with
  | true => exact h.around_symbol (c := '/') (by decide) h'
  | false =>
    have hdiv : Emits (room + 1) (commandOf "div") [.command "div"] :=
      (Formula.isOperand_plain_command (by decide)).emits
    have hrest := hdiv.append h' fun cs _ => hends s' cs
    rw [String.append_assoc]
    exact h.append hrest fun cs _ => hends ("div" ++ ("\\" ++ s')) cs

/-- Room for a fraction and for what stands beside it. -/
theorem reads_together (c : Formula) : ∃ room, Emits room a.markup a.nodes ∧
    Emits room b.markup b.nodes ∧ c.ReadsFrom room := by
  refine ⟨max a.depth (max b.depth c.depth), a.readsFrom _ (by omega), b.readsFrom _ (by omega), ?_⟩
  intro room hroom
  exact c.readsFrom room (by omega)

/-- Each place of a fraction is read as the nodes it was written for. -/
theorem emits (place : FractionPlace) :
    ∃ room, Emits room (place.markup a b) (place.nodes a b) := by
  cases place with
  | divisor slash c =>
    obtain ⟨room, ha, hb, hc⟩ := reads_together a b c
    refine ⟨room + 2, ?_⟩
    have hfrac : Emits (room + 2) (fracOf a.markup b.markup) [fractionNode a b] :=
      (isOperand_frac ha hb).emits
    -- the fraction starts with a backslash, which ends whatever stands before it
    have hslash : fracOf a.markup b.markup
        = "\\" ++ ("frac" ++ braced a.markup ++ braced b.markup) := by
      simp [fracOf, ← String.append_assoc]
    rw [markup, hslash]
    rw [hslash] at hfrac
    exact emits_divisor slash (hc.wrapped id (by omega)) hfrac
  | exponent c =>
    obtain ⟨room, ha, hb, hc⟩ := reads_together a b c
    refine ⟨room + 2, ?_⟩
    -- a power as the base is wrapped too, or the exponents would make a tower
    have hbase : Emits (room + 2) (Formula.wrapped (c.isCompound || c.isPower) c.markup) _ :=
      hc.wrapped (by simp_all) (by omega)
    exact hbase.superscript (isScript_frac ha hb)
  | appliedExponent fn x =>
    obtain ⟨room, ha, hb, hx⟩ := reads_together a b x
    refine ⟨room + 3, ?_⟩
    have hargument : IsBracketed (room + 2) (leftRight x.markup) _ :=
      (hx (room + 1) (by omega)).leftRight
    exact (hargument.isApplied.after_power (isScript_frac ha hb)).isOperand.emits
  | base c =>
    obtain ⟨room, ha, hb, hc⟩ := reads_together a b c
    refine ⟨room + 2, ?_⟩
    have hexponent : IsBracketed (room + 2) (braced c.markup) _ := (hc (room + 1) (by omega)).braced
    exact (isOperand_frac ha hb).emits.superscript hexponent.isScript
  | bracedBase c =>
    obtain ⟨room, ha, hb, hc⟩ := reads_together a b c
    refine ⟨room + 3, ?_⟩
    have hexponent : IsBracketed (room + 3) (braced c.markup) _ := (hc (room + 2) (by omega)).braced
    have hbase := (isOperand_frac ha hb).emits.braced
    exact hbase.isOperand.emits.superscript hexponent.isScript

/-! ## Text -/

/-- The evaluable text, with a gap between the arguments of a call. -/
def text (gap : String) : FractionPlace → String
  | .divisor _ c =>
    Formula.inParensIf c.isCompound (c.text gap) ++ "/" ++ (Formula.fraction a b).text gap
  | .exponent c =>
    if c.isEuler then "exp" ++ inParens ((Formula.fraction a b).text gap)
    else
      Formula.inParensIf (c.isCompound || c.isPower || c.isFraction) (c.text gap) ++ "**"
        ++ (Formula.fraction a b).text gap
  | .appliedExponent fn x =>
    Formula.callOf fn (x.text gap) ++ "**" ++ (Formula.fraction a b).text gap
  | .base c => inParens ((Formula.fraction a b).text gap) ++ "**" ++ inParens (c.text gap)
  | .bracedBase c => (Formula.fraction a b).text gap ++ "**" ++ inParens (c.text gap)

/-- A fraction as an operand prints as the formula's text. -/
theorem printNode_fractionNode :
    printNode evaluable (fractionNode a b) = (Formula.fraction a b).text " " := by
  have ha := a.prints
  have hb := b.prints
  unfold Formula.PrintsAs at ha hb
  simp [fractionNode, printNode, Formula.text, fractionText, ha, hb]

/-- A fraction as the power of a function prints behind the call. -/
theorem callText_power (fn : Fn) (argument printed : String) :
    evaluable.callText fn (some argument) none (some (fractionNode a b)) "" printed
      = Formula.callOf fn argument ++ "**" ++ printed := by
  -- a fraction has no plain text, so it is never taken for the mark of the inverse
  have hplain : (Node.plainText? (some (fractionNode a b)) == "-1") = false := rfl
  unfold callText Formula.callOf marksInverse
  rw [Formula.hasLogBase_none, Formula.calledName_of_unmarked fn hplain, hplain, Bool.and_false]
  cases fn.isReciprocal <;> rfl

/-- Each place of a fraction prints as its text. -/
theorem prints (place : FractionPlace) :
    evaluable.print (place.nodes a b) = place.text a b " " := by
  have hfraction := printNode_fractionNode a b
  cases place with
  | divisor slash c =>
    have hdiv : printNode evaluable (.command "div") = "/" := by decide
    have hc : printNode evaluable (Formula.wrappedNode c.isCompound c.nodes) = _ :=
      c.prints.wrapped id
    cases slash with
    | true =>
      simp [print, nodes, printSiblings, printNode, text, juxtaposed, isOperand, hc, hfraction,
        String.append_assoc]
    | false =>
      simp [print, nodes, printSiblings, hdiv, text, juxtaposed, isOperand, isOperandCommand,
        operator?, hc, hfraction, String.append_assoc]
  | exponent c =>
    simp [print, nodes, printSiblings, c.prints.raised, hfraction, text]
    rfl
  | appliedExponent fn x =>
    have hx := x.prints
    unfold Formula.PrintsAs at hx
    simp [print, nodes, printSiblings, printNode, printArgument, printOption, argumentText,
      callText_power, text, hx, hfraction]
  | base c =>
    have hc := c.prints
    unfold Formula.PrintsAs at hc
    -- a fraction is the base itself and gets parentheses
    have hpower : ∀ base printed : String,
        evaluable.powerText (some (fractionNode a b, base)) (.group c.nodes) printed
          = inParens base ++ "**" ++ inParens printed := fun _ _ => rfl
    simp [print, nodes, printSiblings, printNode, hpower, hfraction, hc, text]
  | bracedBase c =>
    have hc := c.prints
    unfold Formula.PrintsAs at hc
    -- a group is the base, so the fraction in it gets none
    have hpower : ∀ base printed : String,
        evaluable.powerText (some (.group [fractionNode a b], base)) (.group c.nodes) printed
          = base ++ "**" ++ inParens printed := fun _ _ => rfl
    simp [print, nodes, printSiblings, printNode, hpower, hfraction, hc, text]

/-! ## Clean-up -/

/-- The text of a fraction's place leaves nothing to rewrite. -/
theorem settled (place : FractionPlace) : Settled (place.text a b "").toList := by
  have hfraction := (Formula.fraction a b).settled
  have hpower : ∀ s t : String, Settled s.toList → Settled t.toList →
      Settled (s ++ "**" ++ t).toList := by
    intro s t hs ht
    simpa using hs.around_mark (c := '*') rfl (ht.after_mark (c := '*') rfl)
  cases place with
  | divisor slash c =>
    have hc := Formula.settled_inParensIf c.isCompound c.settled
    simpa [text] using hc.around_mark (c := '/') rfl hfraction
  | exponent c =>
    rw [text]
    split
    · exact Formula.settled_call (by decide) (by decide) hfraction
    · exact hpower _ _ (Formula.settled_inParensIf _ c.settled) hfraction
  | appliedExponent fn x => exact hpower _ _ (Formula.settled_callOf fn x.settled) hfraction
  | base c =>
    exact hpower _ _ (Formula.settled_inParens hfraction) (Formula.settled_inParens c.settled)
  | bracedBase c => exact hpower _ _ hfraction (Formula.settled_inParens c.settled)

/-- The text of a fraction's place differs from its tidy form in blanks alone. -/
theorem squeezes_text (place : FractionPlace) :
    Squeezes (place.text a b " ") (place.text a b "") := by
  have hfraction := (Formula.fraction a b).squeezes_text
  cases place with
  | divisor slash c =>
    have hc := Formula.squeezes_inParensIf c.squeezes_text c.isCompound
    exact (hc.append (squeezes_self (by decide))).append hfraction
  | exponent c =>
    rw [text, text]
    split
    · exact (squeezes_self (by decide)).append hfraction.inParens
    · exact ((Formula.squeezes_inParensIf c.squeezes_text _).append
        (squeezes_self (by decide))).append hfraction
  | appliedExponent fn x =>
    exact ((Formula.squeezes_callOf x.squeezes_text fn).append
      (squeezes_self (by decide))).append hfraction
  | base c =>
    exact (hfraction.inParens.append (squeezes_self (by decide))).append c.squeezes_text.inParens
  | bracedBase c =>
    exact (hfraction.append (squeezes_self (by decide))).append c.squeezes_text.inParens

/-- Each place of a fraction converts to its text. -/
theorem convert_markup {place : FractionPlace} (h : WithinLimit (place.markup a b)) :
    evaluable.convert (place.markup a b) = place.text a b "" := by
  obtain ⟨room, hread⟩ := place.emits a b
  apply convert_eq_of_tidy
  rw [h.eq_of_reads hread.reads, place.prints,
    (place.squeezes_text a b).tidy_eq (place.settled a b)]

/-! ## Parsing -/

/-- The expression that the text is parsed as. -/
def expr : FractionPlace → Expr
  | .divisor _ c => .div (.div c.expr a.expr) b.expr
  | .exponent c =>
    if c.isEuler then .call "exp" (.div a.expr b.expr)
    else .div (.pow c.expr a.expr) b.expr
  | .appliedExponent fn x => .div (.pow (Formula.callExpr fn x.expr) a.expr) b.expr
  | .base c => .pow (.div a.expr b.expr) c.expr
  | .bracedBase c => .div a.expr (.pow b.expr c.expr)

/-- The text of a fraction's place is read as its expression. -/
theorem isSum_text (place : FractionPlace) :
    IsSum (place.text a b "").toList (place.expr a b) := by
  have ha := Formula.isOperand_inParens a.parses.sum
  have hb := Formula.isOperand_inParens b.parses.sum
  have hfraction := (Formula.fraction a b).parses.sum
  cases place with
  | divisor slash c =>
    have hquotient := (c.parses.wrapped_product.over ha.isFactor).over hb.isFactor
    simpa [text, expr, Formula.text] using hquotient.isSum
  | exponent c =>
    rw [text, expr]
    split
    · have hexp : IsName "exp".toList := Formula.isName_of (by decide) (by decide)
      exact (Formula.isOperand_call hexp hfraction).isFactor.isProduct.isSum
    · have hpower := c.parses.wrapped_operand.raised a.parses.sum
      simpa [Formula.text, inParens] using (hpower.isProduct.over hb.isFactor).isSum
  | appliedExponent fn x =>
    have hpower := (Formula.isOperand_callOf fn x.parses.sum).raised a.parses.sum
    simpa [text, expr, Formula.text, inParens] using (hpower.isProduct.over hb.isFactor).isSum
  | base c =>
    -- the parentheses hold the whole quotient
    have hpower := (Formula.isOperand_inParens hfraction).raised c.parses.sum
    simpa [text, expr, Formula.expr, inParens] using hpower.isProduct.isSum
  | bracedBase c =>
    -- without parentheses the power is one of the denominator alone
    have hpower := hb.raised c.parses.sum
    simpa [text, expr, Formula.text, inParens] using (ha.isFactor.isProduct.over hpower).isSum

/-! ## One operand -/

/-- The places in which the fraction stays one operand. -/
def keeps : FractionPlace → Bool
  | .exponent c => c.isEuler
  | .base _ => true
  | _ => false

/-- A quotient is no part of itself. -/
theorem div_ne_left (p q : Expr) : Expr.div p q ≠ p := by
  intro h
  have := congrArg sizeOf h
  simp at this
  omega

/-- The expression that is read is the formula's exactly in the places that keep the fraction
together. -/
theorem expr_eq_iff (place : FractionPlace) :
    place.expr a b = (place.formula a b).expr ↔ place.keeps = true := by
  cases place with
  | divisor slash c =>
    -- the two trees could only agree if `c / a` were `c`
    have := div_ne_left c.expr a.expr
    simp [expr, formula, Formula.expr, keeps, this]
  | exponent c =>
    cases heuler : c.isEuler with
    | true =>
      obtain rfl := Formula.eq_euler heuler
      simp [expr, formula, Formula.expr, keeps, Formula.isEuler]
    | false =>
      rw [formula, Formula.expr_power heuler]
      simp [expr, keeps, heuler]
  | appliedExponent fn x => simp [expr, formula, Formula.expr, keeps]
  | base c => simp [expr, formula, Formula.expr, keeps]
  | bracedBase c => simp [expr, formula, Formula.expr, keeps]

variable {K : Type*} [Field K] [DecidableEq K] (m : Meaning K)

/-- When the text has the value of the formula: with the fraction as one operand, or where it makes
no difference that the parts are taken one after the other. -/
def Agrees : FractionPlace → Prop
  | .divisor _ c => ∀ x y z, c.value m = some x → a.value m = some y → b.value m = some z →
    x = 0 ∨ y = 0 ∨ z = 0 ∨ z * z = 1
  | .exponent c => c.isEuler = true ∨
    ∀ x y z, c.value m = some x → a.value m = some y → b.value m = some z →
      (m.pow x y).bind (quotient? · z) = (quotient? y z).bind (m.pow x)
  | .appliedExponent fn w =>
    ∀ x y z, (w.value m).bind (Formula.applied m fn) = some x → a.value m = some y →
      b.value m = some z → (m.pow x y).bind (quotient? · z) = (quotient? y z).bind (m.pow x)
  | .base _ => True
  | .bracedBase c => ∀ x y z, c.value m = some x → a.value m = some y → b.value m = some z →
    (m.pow z x).bind (quotient? y) = (quotient? y z).bind (m.pow · x)

/-- Dividing by the parts of a fraction is not dividing by the fraction. -/
theorem quotient?_quotient? (x y z : K) :
    (quotient? x y).bind (quotient? · z) = (quotient? y z).bind (quotient? x)
      ↔ x = 0 ∨ y = 0 ∨ z = 0 ∨ z * z = 1 := by
  -- where a divisor is zero neither side has a value
  by_cases hz : z = 0
  · by_cases hy : y = 0 <;> simp [quotient?, hz, hy]
  by_cases hy : y = 0
  · simp [quotient?, hy, hz]
  have hyz : y / z ≠ 0 := div_ne_zero hy hz
  have hcross : x / y / z = x / (y / z) ↔ x = 0 ∨ z * z = 1 := by
    rw [div_div, div_div_eq_mul_div, div_eq_div_iff (mul_ne_zero hy hz) hy]
    constructor
    · intro h
      by_cases hx : x = 0
      · exact Or.inl hx
      · refine Or.inr (mul_left_cancel₀ (mul_ne_zero hx hy) ?_)
        linear_combination -h
    · rintro (rfl | hsquare)
      · simp
      · linear_combination -(x * y) * hsquare
  simp [quotient?, hy, hz, hcross]

/-- The value is the formula's exactly where the two values agree. -/
theorem value_eq_iff (place : FractionPlace) :
    (place.expr a b).value m = (place.formula a b).value m ↔ place.Agrees a b m := by
  have ha := a.value_expr m
  have hb := b.value_expr m
  cases place with
  | divisor slash c =>
    have hc := c.value_expr m
    simp only [expr, formula, Expr.value, Formula.value, ha, hb, hc, Agrees]
    -- without a value for each of the parts neither side has one
    cases c.value m <;> cases a.value m <;> cases b.value m <;> simp [← quotient?_quotient?]
  | exponent c =>
    have hc := c.value_expr m
    cases heuler : c.isEuler with
    | true =>
      obtain rfl := Formula.eq_euler heuler
      simp [expr, formula, Formula.isEuler, Agrees, Expr.value, Formula.value, ha, hb,
        Meaning.called, m.exp_eq]
    | false =>
      simp only [expr, formula, heuler, Bool.false_eq_true, if_false, Expr.value, Formula.value, ha,
        hb, hc, Agrees]
      cases c.value m <;> cases a.value m <;> cases b.value m <;> simp
  | appliedExponent fn x =>
    have hx := x.value_expr m
    simp only [expr, formula, Expr.value, Formula.value, Formula.value_callExpr, ha, hb, hx,
      Option.bind_eq_bind, Agrees]
    cases (x.value m).bind (Formula.applied m fn) <;> cases a.value m <;> cases b.value m <;> simp
  | base c =>
    have hc := c.value_expr m
    simp [expr, formula, Expr.value, Formula.value, ha, hb, hc, Agrees]
  | bracedBase c =>
    have hc := c.value_expr m
    simp only [expr, formula, Expr.value, Formula.value, ha, hb, hc, Agrees]
    cases c.value m <;> cases a.value m <;> cases b.value m <;> simp

/-! ## Conversion -/

/-- What the text says in each place, in which places that is the formula with the fraction as one
operand, and exactly when it has the value of the formula all the same. -/
theorem one_operand_iff {place : FractionPlace} {a b : Formula}
    (h : WithinLimit (place.markup a b)) :
    Expr.ofString? (Conversion.evaluableOf (place.markup a b)).value = some (place.expr a b) ∧
    (place.expr a b = (place.formula a b).expr ↔ place.keeps = true) ∧
    ∀ {K : Type*} [Field K] [DecidableEq K] (m : Meaning K),
      (place.expr a b).value m = (place.formula a b).value m ↔ place.Agrees a b m := by
  refine ⟨?_, place.expr_eq_iff a b, fun m => place.value_eq_iff a b m⟩
  rw [evaluableOf_value, convert_markup a b h]
  simpa using (place.isSum_text a b).ofString?

/-- The place behind a division sign after `x`. -/
def behindX : FractionPlace := .divisor false (.var .x)

/-- With one for `x` and `a` and two for `b`, the text has another value than the formula. -/
theorem one_operand_iff_behindX : ∃ a b : Formula, WithinLimit (behindX.markup a b) ∧
    behindX.markup a b = "x\\div\\frac\x7ba\x7d\x7bb\x7d" ∧
    Expr.ofString? (Conversion.evaluableOf (behindX.markup a b)).value
      = some (.div (.div (.name "x") (.name "a")) (.name "b")) ∧
    ∃ m : Meaning ℝ, ¬ (behindX.expr a b).value m = (behindX.formula a b).value m := by
  let a : Formula := .var ⟨'a', rfl, by decide⟩
  let b : Formula := .var ⟨'b', rfl, by decide⟩
  have hlimit : WithinLimit (behindX.markup a b) := withinLimit_of_length (by decide)
  obtain ⟨hparse, -, hvalue⟩ := one_operand_iff hlimit
  let m := Formula.realMeaning fun c => if c = 'b' then 2 else 1
  refine ⟨a, b, hlimit, by decide, hparse, m, ?_⟩
  rw [hvalue]
  intro hagrees
  have hx : (Formula.var .x).value m = some 1 := by
    simp [Formula.value, Formula.realMeaning, Letter.x, m]
  have ha : a.value m = some 1 := by simp [Formula.value, Formula.realMeaning, a, m]
  have hb : b.value m = some 2 := by simp [Formula.value, Formula.realMeaning, b, m]
  -- `1 / 1 / 2` is not `1 / (1 / 2)`
  have := hagrees 1 1 2 hx ha hb
  norm_num at this

end FractionPlace

end FormulaDesk
