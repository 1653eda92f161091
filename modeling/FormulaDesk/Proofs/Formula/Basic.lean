import FormulaDesk.Proofs.Arithmetic.Meaning
import FormulaDesk.Proofs.Reading.Constructs

/-! # Formulas

The formulas of ordinary arithmetic, the markup that they are typed as and what they mean. In markup
an operand is put in parentheses where it would otherwise be read as something else.
-/

namespace FormulaDesk

open Markup Arithmetic

/-- A decimal as it is written. -/
structure Numeral where
  whole : List Char
  places : List Char
  isWhole : IsWhole whole
  digits : ∀ c ∈ places, Text.isAsciiDigit c = true

namespace Numeral

def text (n : Numeral) : String :=
  String.ofList (match n.places with
    | [] => n.whole
    | places => n.whole ++ '.' :: places)

theorem text_ne_empty (n : Numeral) : n.text ≠ "" := by
  obtain ⟨whole, places, hwhole, -⟩ := n
  intro h
  cases places <;> simp [text, hwhole.nonempty] at h

theorem mem_text (n : Numeral) {c : Char} (hc : c ∈ n.text.toList) :
    Text.isAsciiDigit c = true ∨ c = '.' := by
  obtain ⟨whole, places, hwhole, hplaces⟩ := n
  cases places with
  | nil => exact Or.inl (hwhole.digits c (by simpa [text] using hc))
  | cons p places =>
    simp only [text, String.toList_ofList, List.mem_append, List.mem_cons] at hc
    rcases hc with hc | rfl | hc
    · exact Or.inl (hwhole.digits c hc)
    · exact Or.inr rfl
    · exact Or.inl (hplaces c (by simpa using hc))

end Numeral

/-- A letter that is no constant. -/
structure Letter where
  char : Char
  isLetter : Text.isAsciiLetter char = true
  ne_e : char ≠ 'e'

namespace Letter

def x : Letter := ⟨'x', rfl, by decide⟩

theorem singleton_ne_e (v : Letter) : String.singleton v.char ≠ "e" := by
  intro h
  have := congrArg String.toList h
  simp [v.ne_e] at this

end Letter

inductive Formula where
  | numeral (n : Numeral)
  | var (v : Letter)
  | euler
  | pi
  | sum (a b : Formula)
  | difference (a b : Formula)
  | negation (a : Formula)
  /-- A product, with a dot or with a blank between its factors. -/
  | product (dotted : Bool) (a b : Formula)
  /-- A quotient in one line. -/
  | quotient (a b : Formula)
  | fraction (a b : Formula)
  | power (a b : Formula)
  | sqrt (a : Formula)
  | root (index a : Formula)
  | abs (a : Formula)
  | apply (fn : Fn) (a : Formula)

namespace Formula

/-! ## Markup -/

/-- The formulas that are no operand without parentheses. -/
def isCompound : Formula → Bool
  | .sum _ _ => true
  | .difference _ _ => true
  | .negation _ => true
  | .product _ _ _ => true
  | .quotient _ _ => true
  | _ => false

def isFraction : Formula → Bool
  | .fraction _ _ => true
  | _ => false

def isPower : Formula → Bool
  | .power _ _ => true
  | _ => false

/-- Markup in parentheses if it needs them. -/
def wrapped (needed : Bool) (m : String) : String := if needed then leftRight m else m

/-- A formula as it is typed. -/
def markup : Formula → String
  | .numeral n => n.text
  | .var v => String.singleton v.char
  | .euler => "e"
  | .pi => "\\pi"
  | .sum a b => wrapped a.isCompound a.markup ++ "+" ++ wrapped b.isCompound b.markup
  | .difference a b => wrapped a.isCompound a.markup ++ "-" ++ wrapped b.isCompound b.markup
  | .negation a => "-" ++ wrapped a.isCompound a.markup
  | .product dotted a b =>
    wrapped a.isCompound a.markup ++ (if dotted then "\\cdot " else " ")
      ++ wrapped b.isCompound b.markup
  | .quotient a b =>
    wrapped a.isCompound a.markup ++ "\\div " ++ wrapped (b.isCompound || b.isFraction) b.markup
  | .fraction a b => fracOf a.markup b.markup
  | .power a b => wrapped (a.isCompound || a.isPower) a.markup ++ "^" ++ braced b.markup
  | .sqrt a => sqrtOf a.markup
  | .root index a => rootOf index.markup a.markup
  | .abs a => barred a.markup
  | .apply fn a => commandOf fn.command ++ leftRight a.markup

/-! ## Meaning -/

variable {K : Type*} [Field K] [DecidableEq K]

/-- What a function does; some are one divided by another. -/
def applied (m : Meaning K) (fn : Fn) (x : K) : Option K :=
  match fn with
  | .sin => m.sin x
  | .cos => m.cos x
  | .tan => m.tan x
  | .sinh => m.sinh x
  | .cosh => m.cosh x
  | .tanh => m.tanh x
  | .arcsin => m.asin x
  | .arccos => m.acos x
  | .arctan => m.atan x
  | .exp => m.exp x
  | .ln => m.ln x
  | .log => m.log10 x
  | .csc => do quotient? 1 (← m.sin x)
  | .sec => do quotient? 1 (← m.cos x)
  | .cot => do quotient? 1 (← m.tan x)

/-- What a formula means, if it means anything. -/
def value (m : Meaning K) : Formula → Option K
  | .numeral n => some (decimal n.whole n.places)
  | .var v => some (m.var v.char)
  | .euler => some m.e
  | .pi => some m.pi
  | .sum a b => do return (← a.value m) + (← b.value m)
  | .difference a b => do return (← a.value m) - (← b.value m)
  | .negation a => do return -(← a.value m)
  | .product _ a b => do return (← a.value m) * (← b.value m)
  | .quotient a b => do quotient? (← a.value m) (← b.value m)
  | .fraction a b => do quotient? (← a.value m) (← b.value m)
  | .power a b => do m.pow (← a.value m) (← b.value m)
  | .sqrt a => do m.sqrt (← a.value m)
  | .root index a => do
    let x ← a.value m
    let n ← index.value m
    m.pow x (← quotient? 1 n)
  | .abs a => do m.abs (← a.value m)
  | .apply fn a => do applied m fn (← a.value m)

end Formula

end FormulaDesk
