import FormulaDesk.Proofs.Dialect.Settled
import FormulaDesk.Proofs.Totality.Printing
import FormulaDesk.Proofs.Totality.Tokens

/-! # Conversion is total

Every step of a conversion in one program, each of which may fail or not return: the text is split
into tokens, the tokens are read and the tree is printed. From an amount of fuel on that is linear in
the text, the program returns with the conversion of the text, and it takes every token exactly once
from the first to the last.
-/

namespace FormulaDesk.Dialect

open Markup Reader

/-- The nodes of a text, with the cursor that has read them. -/
def tryRead (markup : String) (fuel : Nat) : Attempt (List Node × Cursor) := do
  let tokens ← tokenize markup fuel
  (siblings [] [] fuel).run (Cursor.start tokens)

def tryConvert (d : Dialect) (markup : String) (fuel : Nat) : Attempt String :=
  if markup.isEmpty then return ""
  else do
    let (nodes, _) ← tryRead markup fuel
    let printed ← tryPrint d nodes
    return d.finish printed

variable {markup : String} {fuel : Nat}

theorem tokenize_returns (hfuel : readingFuel markup.length ≤ fuel) :
    tokenize markup fuel = pure (Token.ofString markup) :=
  tokenize_eq markup fuel (by unfold readingFuel at hfuel; omega)

theorem tryRead_eq (hfuel : readingFuel markup.length ≤ fuel) : tryRead markup fuel
    = pure (Node.ofMarkup markup, standing (Token.ofString markup) [] 0) := by
  have htokens : readingFuel (Token.ofString markup).length ≤ fuel := by
    have hle := length_ofString_le markup
    unfold readingFuel at hfuel ⊢
    omega
  rw [tryRead, tokenize_returns hfuel, pure_bind]
  exact runs_siblings (Token.ofString markup) htokens

theorem tryConvert_eq (d : Dialect) (hfuel : readingFuel markup.length ≤ fuel) :
    tryConvert d markup fuel = pure (if markup.isEmpty then "" else d.convert markup) := by
  unfold tryConvert
  split
  · rfl
  · rw [tryRead_eq hfuel, pure_bind]
    simp only [tryPrint_eq, pure_bind]
    rfl

/-- Splitting, reading and printing return for every text: the loops end within as many rounds as
the length of the text allows, no token, character or node is missing and no name is unlisted. The
cursor has moved over each token once, in order, to the end, and every function that a node can carry
is listed. -/
theorem conversion_total (markup : String) (fuel : Nat)
    (hfuel : readingFuel markup.length ≤ fuel) :
    tokenize markup fuel = pure (Token.ofString markup) ∧
      (∃ cursor, tryRead markup fuel = pure (Node.ofMarkup markup, cursor) ∧
        cursor.position = (Token.ofString markup).length ∧
        cursor.passed.reverse = List.range (Token.ofString markup).length ∧ cursor.depth = 0) ∧
      (∀ fn : Fn, isFunctionName fn.command = true) ∧
      tryConvert evaluable markup fuel = pure (Conversion.evaluableOf markup).value ∧
      tryConvert graphing markup fuel = pure (Conversion.directGraphing markup) := by
  refine ⟨tokenize_returns hfuel, ⟨_, tryRead_eq hfuel, ?_, ?_, rfl⟩, lists_command, ?_, ?_⟩
  · simp [standing]
  · simp [standing]
  · rw [tryConvert_eq _ hfuel, Conversion.evaluableOf]
    split <;> rfl
  · rw [tryConvert_eq _ hfuel]
    rfl

/-- What is absorbed: a script, a fraction and a closing delimiter that are missing at the end. -/
theorem conversion_total_unclosed :
    readingFuel "2^\\left(\\frac".length ≤ 90 ∧
      (∃ cursor, tryRead "2^\\left(\\frac" 90 = pure (Node.ofMarkup "2^\\left(\\frac", cursor) ∧
        cursor.position = 5 ∧ cursor.passed.reverse = [0, 1, 2, 3, 4]) ∧
      tryConvert evaluable "2^\\left(\\frac" 90 = pure "2**(()/())" := by
  have hfuel : readingFuel "2^\\left(\\frac".length ≤ 90 := by decide +kernel
  have htotal := conversion_total "2^\\left(\\frac" 90 hfuel
  have htokens : (Token.ofString "2^\\left(\\frac").length = 5 := by decide +kernel
  have hprinted : (Conversion.evaluableOf "2^\\left(\\frac").value = "2**(()/())" := by
    decide +kernel
  obtain ⟨-, ⟨cursor, hread, hposition, hpassed, -⟩, -, hevaluable, -⟩ := htotal
  rw [htokens] at hposition hpassed
  exact ⟨hfuel, ⟨cursor, hread, hposition, hpassed⟩, hevaluable.trans (congrArg pure hprinted)⟩

end FormulaDesk.Dialect
