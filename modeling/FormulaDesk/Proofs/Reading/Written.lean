import FormulaDesk.Proofs.Reading.Scanning
import Mathlib.Algebra.Ring.Parity
import Mathlib.Data.List.Chain
import Mathlib.Data.List.DropRight

/-! # Tokens written out

Scanning a text and writing its tokens out again are each other's inverse:

* `written_scan`: nothing of a text is lost but a backslash that is left over at its end;
* `CanonicalTokens`: the token lists that have a written form of their own;
* `scan_written`, `canonical_scan`: these are scanned back, and scanning gives no others.

A command runs on over the letters behind it, so the two inductions differ in what they carry: one
carries the letters of the name read so far, the other the token that comes next.
-/

namespace FormulaDesk.Markup

/-- Tokens as they are typed, one behind the other. -/
def written (ts : List Token) : List Char := ts.flatMap Token.write

@[simp]
theorem written_nil : written [] = [] := rfl

@[simp]
theorem written_cons (t : Token) (ts : List Token) : written (t :: ts) = t.write ++ written ts :=
  rfl

/-! ## From a text and back -/

/-- What is typed by the time the letters of a name have been read: `name` holds them, last
first. -/
def typedSoFar : (name : Option (List Char)) → List Char
  | none => []
  | some name => '\\' :: name.reverse

/-- The backslash that names no command, where there is one. -/
def leftOver (dangling : Bool) : List Char := if dangling then ['\\'] else []

/-- Whatever has been read of a name, its letters and the rest of the text are all written back. -/
theorem written_scan (name : Option (List Char)) (cs : List Char) :
    written (Token.scan name cs) ++ leftOver (dangles (name == some []) cs)
      = typedSoFar name ++ cs := by
  induction cs generalizing name with
  | nil =>
    rcases name with _ | _ | ⟨d, name⟩ <;>
      simp [Token.scan, leftOver, dangles, typedSoFar, Token.write]
  | cons c cs ih =>
    have hnone : written (Token.scan none cs) ++ leftOver (dangles false cs) = cs := ih none
    have hslash : written (Token.scan (some []) cs) ++ leftOver (dangles true cs) = '\\' :: cs :=
      ih (some [])
    by_cases hc : c = '\\'
    · -- a backslash starts a command, is the name of one, or ends a name and starts another
      subst hc
      have hletter : Text.isAsciiLetter '\\' = false := by decide
      rcases name with _ | _ | ⟨d, name⟩
      · simpa [Token.scan, dangles, typedSoFar] using hslash
      · simpa [Token.scan, dangles, typedSoFar, hletter, Token.write] using hnone
      · simpa [Token.scan, dangles, typedSoFar, hletter, Token.write] using hslash
    · have hbeq : (c == '\\') = false := by simpa using hc
      rcases name with _ | name
      · simpa [Token.scan, dangles, typedSoFar, hbeq, Token.write] using hnone
      · have hdangles : dangles (some name == some []) (c :: cs) = dangles false cs := by
          cases name <;> simp [dangles, hbeq]
        rw [hdangles]
        by_cases hletter : Text.isAsciiLetter c = true
        · simpa [Token.scan, typedSoFar, hletter] using ih (some (c :: name))
        · cases name with
          | nil => simpa [Token.scan, typedSoFar, hletter, Token.write] using hnone
          | cons d name => simpa [Token.scan, typedSoFar, hletter, hbeq, Token.write] using hnone

/-! ## The backslash at the end -/

/-- A backslash behind one that is left over is the name of a command. -/
theorem dangles_append (escaped : Bool) (cs : List Char) (c : Char) :
    dangles escaped (cs ++ [c]) = (!dangles escaped cs && c == '\\') := by
  induction cs generalizing escaped with
  | nil => cases escaped <;> simp [dangles]
  | cons d cs ih => cases escaped <;> simp [dangles, ih]

/-- Backslashes at the end go in pairs, so one is left over if their number is odd. -/
theorem dangles_iff_odd (cs : List Char) :
    dangles false cs = true ↔ Odd (cs.rtakeWhile (· == '\\')).length := by
  induction cs using List.reverseRecOn with
  | nil => simp [dangles]
  | append_singleton cs c ih =>
    rw [dangles_append, List.rtakeWhile_concat]
    by_cases hc : c = '\\'
    · simp [hc, ← ih, Nat.odd_add_one]
    · simp [hc]

/-- A backslash is lost exactly where one is left over at the end. -/
theorem written_ofString (markup : String) :
    written (Token.ofString markup)
      = if Odd (markup.toList.rtakeWhile (· == '\\')).length then markup.toList.dropLast
        else markup.toList := by
  have hwritten : written (Token.ofString markup) ++ leftOver (dangles false markup.toList)
      = markup.toList := written_scan none markup.toList
  simp only [← dangles_iff_odd]
  cases hdangles : dangles false markup.toList with
  | true =>
    rw [hdangles] at hwritten
    rw [if_pos rfl, ← hwritten]
    exact List.dropLast_concat.symm
  | false =>
    rw [hdangles] at hwritten
    simpa [leftOver] using hwritten

/-! ## Lists of tokens with a written form of their own -/

namespace Token

/-- The tokens that can be typed. -/
inductive Typable : Token → Prop
  | char {c} (hc : c ≠ '\\') : Typable (.char c)
  | word {name} (hne : name ≠ "") (hname : name.toList.all Text.isAsciiLetter = true) :
      Typable (.command name)
  | symbol {c} (hc : Text.isAsciiLetter c = false) : Typable (.command (String.singleton c))

/-- A command with a name of letters would take the letter that follows it into its name. -/
inductive RunsInto : Token → Token → Prop
  | letter {name c} (hname : name.toList.all Text.isAsciiLetter = true)
      (hc : Text.isAsciiLetter c = true) : RunsInto (.command name) (.char c)

variable {c : Char}

theorem not_runsInto_of_char (u : Token) : ¬(Token.char c).RunsInto u := nofun

/-- A command of one symbol ends by itself. -/
theorem not_runsInto_of_symbol (hc : Text.isAsciiLetter c = false) (u : Token) :
    ¬(Token.command (String.singleton c)).RunsInto u := by
  rintro ⟨hname, -⟩
  simp [hc] at hname

/-- A command of letters can be typed. -/
theorem typable_of_letters {letters : List Char} (hne : letters ≠ [])
    (h : letters.all Text.isAsciiLetter = true) :
    Typable (.command (String.ofList letters.reverse)) := by
  refine .word ?_ ?_
  · simpa using hne
  · simpa using h

end Token

open Token

variable {t : Token} {ts : List Token}

/-- Every token can be typed, and none runs into the next. -/
structure CanonicalTokens (ts : List Token) : Prop where
  typable : ∀ t ∈ ts, t.Typable
  apart : ts.IsChain fun t u => ¬t.RunsInto u

theorem CanonicalTokens.nil : CanonicalTokens [] := ⟨by simp, .nil⟩

/-- Canonical tokens are built from the front: the next one must not be swallowed. -/
theorem CanonicalTokens.cons (ht : t.Typable) (hnext : ∀ u, ts.head? = some u → ¬t.RunsInto u)
    (h : CanonicalTokens ts) : CanonicalTokens (t :: ts) :=
  ⟨List.forall_mem_cons.mpr ⟨ht, h.typable⟩, List.isChain_cons.mpr ⟨hnext, h.apart⟩⟩

theorem CanonicalTokens.tail (h : CanonicalTokens (t :: ts)) : CanonicalTokens ts :=
  ⟨(List.forall_mem_cons.mp h.typable).2, h.apart.tail⟩

/-- What stands behind a canonical token is not swallowed by it. -/
theorem CanonicalTokens.next (h : CanonicalTokens (t :: ts)) :
    ∀ u, ts.head? = some u → ¬t.RunsInto u :=
  (List.isChain_cons.mp h.apart).1

/-- The name of a command of letters ends where the next token is written. -/
theorem written_head {name : String} (hname : name.toList.all Text.isAsciiLetter = true)
    (hnext : ∀ u, ts.head? = some u → ¬(Token.command name).RunsInto u) :
    ∀ c, (written ts).head? = some c → Text.isAsciiLetter c = false := by
  intro c hc
  cases ts with
  | nil => simp at hc
  | cons u ts =>
    cases u with
    | command name' =>
      obtain rfl : '\\' = c := by simpa [Token.write] using hc
      decide
    | char d =>
      obtain rfl : d = c := by simpa [Token.write] using hc
      by_contra hletter
      exact hnext _ rfl (.letter hname (by simpa using hletter))

/-- Canonical tokens are scanned back as they were written. -/
theorem scan_written (h : CanonicalTokens ts) : Token.scan none (written ts) = ts := by
  induction ts with
  | nil => rfl
  | cons t ts ih =>
    have hrest := ih h.tail
    rw [written_cons]
    cases h.typable t List.mem_cons_self with
    | char hc => rw [Token.write, List.singleton_append, scan_char hc, hrest]
    | word hne hname =>
      rw [Token.write, List.cons_append, scan_command hne hname (written_head hname h.next), hrest]
    | symbol hc => simp [Token.write, Token.scan, hc, hrest]

/-- The first token of a text is no letter, unless the text starts with that letter. -/
theorem scan_head {c : Char} {cs : List Char} (hc : Text.isAsciiLetter c = false)
    {u : Token} (hu : (Token.scan none (c :: cs)).head? = some u) : ¬t.RunsInto u := by
  rintro ⟨-, hletter⟩
  by_cases hslash : c = '\\'
  · subst hslash
    exact scan_some_head cs [] _ (by simpa [Token.scan] using hu)
  · rw [scan_char hslash, List.head?_cons, Option.some.injEq, Token.char.injEq] at hu
    rw [← hu, hc] at hletter
    simp at hletter

/-- In the middle of a command, the letters of its name that have been read are `name`. -/
theorem canonical_scan (name : Option (List Char)) (cs : List Char)
    (hname : ∀ letters ∈ name, letters.all Text.isAsciiLetter = true) :
    CanonicalTokens (Token.scan name cs) := by
  induction cs generalizing name with
  | nil =>
    rcases name with _ | _ | ⟨d, letters⟩
    · exact .nil
    · exact .nil
    · exact .cons (typable_of_letters (List.cons_ne_nil d letters) (hname _ rfl)) (by simp) .nil
  | cons c cs ih =>
    have hnone : CanonicalTokens (Token.scan none cs) := ih none (by simp)
    have hstart : CanonicalTokens (Token.scan none (c :: cs)) := by
      by_cases hslash : c = '\\'
      · subst hslash
        simpa [Token.scan] using ih (some []) (by simp)
      · rw [scan_char hslash]
        exact .cons (.char hslash) (fun u _ => not_runsInto_of_char u) hnone
    rcases name with _ | letters
    · exact hstart
    · by_cases hc : Text.isAsciiLetter c = true
      · -- the name goes on
        have hmore : (c :: letters).all Text.isAsciiLetter = true := by
          simp [hc, hname letters rfl]
        simpa [Token.scan, hc] using ih (some (c :: letters)) (by simpa using hmore)
      · rw [Bool.not_eq_true] at hc
        cases letters with
        | nil =>
          -- a name that is no letter is one character, whatever follows
          have hsymbol := CanonicalTokens.cons (.symbol hc)
            (fun u _ => not_runsInto_of_symbol hc u) hnone
          simpa [Token.scan, hc] using hsymbol
        | cons d letters =>
          rw [scan_name (List.cons_ne_nil d letters) (by simpa using hc)]
          exact .cons (typable_of_letters (List.cons_ne_nil d letters) (hname _ rfl))
            (fun u hu => scan_head hc hu) hstart

/-- The scanner's tokens are canonical. -/
theorem canonical_ofString (markup : String) : CanonicalTokens (Token.ofString markup) :=
  canonical_scan none markup.toList (by simp)

/-- Scanning loses nothing of a text and has one result for every way of typing it. What is written
out is the text again, without the last of an odd number of backslashes at its end; and the lists of
tokens that scanning gives are the canonical ones, which are exactly those that are scanned back
when they are written out. -/
theorem ofString_lossless_and_canonical :
    (∀ markup : String, written (Token.ofString markup)
      = if Odd (markup.toList.rtakeWhile (· == '\\')).length then markup.toList.dropLast
        else markup.toList) ∧
    (∀ ts : List Token, CanonicalTokens ts ↔ Token.ofString (String.ofList (written ts)) = ts) ∧
    ∀ markup : String, CanonicalTokens (Token.ofString markup) := by
  refine ⟨written_ofString, fun ts => ⟨fun h => ?_, fun h => ?_⟩, canonical_ofString⟩
  · rw [Token.ofString, String.toList_ofList]
    exact scan_written h
  · exact h ▸ canonical_ofString _

end FormulaDesk.Markup
