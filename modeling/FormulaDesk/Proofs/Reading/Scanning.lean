import FormulaDesk.Markup.Token
import Mathlib.Data.List.Basic

/-! # Scanning parts of a text

* `scan_append`: a text and what follows it are scanned one after the other, unless a command runs
  on from the one into the other;
* `scan_command`: a backslash and letters are one command, up to the first character that is none.
-/

namespace FormulaDesk.Markup

/-! ## Texts one after the other -/

/-- Whether the text ends in a backslash that starts a command and names none. `escaped` says
whether the character before it is such a backslash. -/
def dangles : (escaped : Bool) → List Char → Bool
  | escaped, [] => escaped
  | true, _ :: cs => dangles false cs
  | false, c :: cs => dangles (c == '\\') cs

/-- The name of a command ends before a character that is no letter. -/
theorem scan_name {name cs : List Char} (hname : name ≠ [])
    (hcs : ∀ c, cs.head? = some c → Text.isAsciiLetter c = false) :
    Token.scan (some name) cs
      = .command (String.ofList name.reverse) :: Token.scan none cs := by
  obtain ⟨last, front, rfl⟩ := List.exists_cons_of_ne_nil hname
  cases cs with
  | nil => rfl
  | cons c cs =>
    have hc := hcs c rfl
    simp [Token.scan, hc]

theorem scan_append {d : Char} (hd : Text.isAsciiLetter d = false) (ds : List Char) :
    ∀ (cs : List Char) (name : Option (List Char)), dangles (name == some []) cs = false →
      Token.scan name (cs ++ d :: ds) = Token.scan name cs ++ Token.scan none (d :: ds) := by
  intro cs
  induction cs with
  | nil =>
    intro name h
    rcases name with _ | (_ | ⟨c, name⟩)
    · rfl
    · simp [dangles] at h
    · rw [List.nil_append, scan_name (List.cons_ne_nil c name) (by simpa using hd)]
      rfl
  | cons c cs ih =>
    intro name h
    -- by what has been read of a name: no command, nothing of it, or some letters
    by_cases hslash : c = '\\'
    · subst hslash
      have hletter : Text.isAsciiLetter '\\' = false := by decide
      rcases name with _ | (_ | ⟨b, name⟩)
      · simpa [Token.scan] using ih (some []) (by simpa [dangles] using h)
      · simpa [Token.scan, hletter] using ih none (by simpa [dangles] using h)
      · simpa [Token.scan, hletter] using ih (some []) (by simpa [dangles] using h)
    · have hbeq : (c == '\\') = false := by simpa using hslash
      have hcs : dangles false cs = false := by
        rcases name with _ | (_ | ⟨b, name⟩) <;> simpa [dangles, hbeq] using h
      have hnone := ih none hcs
      rcases name with _ | name
      · simpa [Token.scan, hbeq] using hnone
      · by_cases hletter : Text.isAsciiLetter c = true
        · simpa [Token.scan, hletter] using ih (some (c :: name)) hcs
        · cases name with
          | nil => simpa [Token.scan, hletter] using hnone
          | cons b name => simpa [Token.scan, hletter, hbeq] using hnone

/-! ## Commands with a name of letters -/

theorem scan_letters {letters : List Char} (h : letters.all Text.isAsciiLetter = true)
    (name cs : List Char) :
    Token.scan (some name) (letters ++ cs) = Token.scan (some (letters.reverse ++ name)) cs := by
  induction letters generalizing name with
  | nil => rfl
  | cons c letters ih =>
    simp only [List.all_cons, Bool.and_eq_true] at h
    simp [Token.scan, h.1, ih h.2]

theorem scan_command {name : String} (hname : name ≠ "")
    (hletters : name.toList.all Text.isAsciiLetter = true) {cs : List Char}
    (hcs : ∀ c, cs.head? = some c → Text.isAsciiLetter c = false) :
    Token.scan none ('\\' :: (name.toList ++ cs)) = .command name :: Token.scan none cs := by
  have hne : name.toList.reverse ≠ [] := by simpa using hname
  calc Token.scan none ('\\' :: (name.toList ++ cs))
      = Token.scan (some []) (name.toList ++ cs) := by simp [Token.scan]
    _ = Token.scan (some name.toList.reverse) cs := by rw [scan_letters hletters, List.append_nil]
    _ = .command name :: Token.scan none cs := by
        rw [scan_name hne hcs, List.reverse_reverse, String.ofList_toList]

/-- After a backslash comes a command or nothing at all. -/
theorem scan_some_head (cs name : List Char) (c : Char) :
    (Token.scan (some name) cs).head? ≠ some (.char c) := by
  induction cs generalizing name with
  | nil => cases name <;> simp [Token.scan]
  | cons d cs ih =>
    simp only [Token.scan]
    split_ifs
    · exact ih (d :: name)
    all_goals simp

theorem scan_char {c : Char} (h : c ≠ '\\') (cs : List Char) :
    Token.scan none (c :: cs) = .char c :: Token.scan none cs := by
  simp [Token.scan, h]

end FormulaDesk.Markup
