import FormulaDesk.Proofs.Reading.Scanning
import FormulaDesk.Proofs.Totality.Cursor

/-! # Tokens by index

Splitting a text into tokens with an index into it, in two loops that spend a unit of fuel on every
round. An index with no character under it is a fault. With more fuel than characters the loops end,
with the tokens of the text.
-/

namespace FormulaDesk.Markup

/-- The character at an index. -/
def charAt (cs : List Char) (i : Nat) : Attempt Char :=
  match cs[i]? with
  | some c => return c
  | none => throw .noCharacter

/-- The end of the run of letters from an index on. -/
def nameEnd (cs : List Char) (i : Nat) : Nat → Attempt Nat
  | 0 => unfinished
  | fuel + 1 => do
    if i < cs.length then do
      let c ← charAt cs i
      if Text.isAsciiLetter c then nameEnd cs (i + 1) fuel else return i
    else return i

/-- The characters from one index up to another. -/
def slice (cs : List Char) (i j : Nat) : List Char := (cs.take j).drop i

/-- The tokens from an index on, after those that are already there. -/
def tokensFrom (cs : List Char) (i : Nat) (tokens : List Token) : Nat → Attempt (List Token)
  | 0 => unfinished
  | fuel + 1 => do
    if i < cs.length then do
      let c ← charAt cs i
      if c == '\\' then do
        let j ← nameEnd cs (i + 1) fuel
        if i + 1 < j then
          tokensFrom cs j (tokens ++ [.command (String.ofList (slice cs (i + 1) j))]) fuel
        else if j < cs.length then do
          let symbol ← charAt cs j
          tokensFrom cs (j + 1) (tokens ++ [.command (String.singleton symbol)]) fuel
        else tokensFrom cs j tokens fuel
      else tokensFrom cs (i + 1) (tokens ++ [.char c]) fuel
    else return tokens

def tokenize (markup : String) (fuel : Nat) : Attempt (List Token) :=
  tokensFrom markup.toList 0 [] fuel

/-! ## The loops end -/

variable {cs : List Char} {i : Nat}

theorem charAt_eq {c : Char} (h : cs[i]? = some c) : charAt cs i = pure c := by
  rw [charAt, h]

/-- The characters left at an index. -/
theorem drop_of_getElem? {c : Char} (h : cs[i]? = some c) :
    cs.drop i = c :: cs.drop (i + 1) := by
  obtain ⟨hi, hc⟩ := List.getElem?_eq_some_iff.mp h
  rw [List.drop_eq_getElem_cons hi, hc]

theorem nameEnd_eq (cs : List Char) (i fuel : Nat) (hfuel : cs.length - i < fuel) :
    nameEnd cs i fuel = pure (i + ((cs.drop i).takeWhile Text.isAsciiLetter).length) := by
  induction fuel generalizing i with
  | zero => omega
  | succ fuel ih =>
    by_cases hi : i < cs.length
    · have hc : cs[i]? = some cs[i] := List.getElem?_eq_getElem hi
      rw [nameEnd, if_pos hi, charAt_eq hc, pure_bind, drop_of_getElem? hc, List.takeWhile_cons]
      by_cases hletter : Text.isAsciiLetter cs[i] = true
      · rw [if_pos hletter, if_pos hletter, ih (i + 1) (by omega), List.length_cons]
        congr 1
        omega
      · rw [if_neg hletter, if_neg hletter]
        rfl
    · rw [nameEnd, if_neg hi, List.drop_eq_nil_of_le (Nat.le_of_not_lt hi)]
      rfl

/-- A backslash before letters starts a command of all of them. -/
theorem scan_word (cs : List Char) (h : 0 < (cs.takeWhile Text.isAsciiLetter).length) :
    Token.scan none ('\\' :: cs) = .command (String.ofList (cs.takeWhile Text.isAsciiLetter))
      :: Token.scan none (cs.dropWhile Text.isAsciiLetter) := by
  have hname : String.ofList (cs.takeWhile Text.isAsciiLetter) ≠ "" := by
    intro hempty
    have hlist := congrArg String.toList hempty
    rw [String.toList_ofList] at hlist
    simp [hlist] at h
  have hletters : (String.ofList (cs.takeWhile Text.isAsciiLetter)).toList.all Text.isAsciiLetter
      = true := by
    rw [String.toList_ofList]
    exact List.all_takeWhile
  -- the letters end where the first other character stands
  have hends : ∀ c, (cs.dropWhile Text.isAsciiLetter).head? = some c →
      Text.isAsciiLetter c = false := by
    intro c hc
    have hfirst := List.head?_dropWhile_not Text.isAsciiLetter cs
    simpa [hc] using hfirst
  have hscan := scan_command hname hletters hends
  rwa [String.toList_ofList, List.takeWhile_append_dropWhile] at hscan

/-- The run of letters behind a backslash, and what is left behind it. -/
theorem slice_name (cs : List Char) (i : Nat) :
    let j := i + ((cs.drop i).takeWhile Text.isAsciiLetter).length
    slice cs i j = (cs.drop i).takeWhile Text.isAsciiLetter ∧
      cs.drop j = (cs.drop i).dropWhile Text.isAsciiLetter := by
  have hsplit := List.takeWhile_append_dropWhile (p := Text.isAsciiLetter) (l := cs.drop i)
  constructor
  · rw [slice, List.drop_take, Nat.add_sub_cancel_left]
    exact (congrArg (List.take _) hsplit).symm.trans List.take_left
  · rw [← List.drop_drop]
    exact (congrArg (List.drop _) hsplit).symm.trans List.drop_left

/-- Every round of the loop moves the index on, and what it adds is what the text has there. -/
theorem tokensFrom_eq (cs : List Char) (i : Nat) (tokens : List Token) (fuel : Nat)
    (hfuel : cs.length - i < fuel) :
    tokensFrom cs i tokens fuel = pure (tokens ++ Token.scan none (cs.drop i)) := by
  induction fuel generalizing i tokens with
  | zero => omega
  | succ fuel ih =>
    by_cases hi : i < cs.length
    · have hc : cs[i]? = some cs[i] := List.getElem?_eq_getElem hi
      obtain ⟨hslice, hrest⟩ := slice_name cs (i + 1)
      rw [tokensFrom, if_pos hi, charAt_eq hc, pure_bind, drop_of_getElem? hc]
      by_cases hslash : cs[i] = '\\'
      · rw [hslash, if_pos (by decide), nameEnd_eq _ _ _ (by omega), pure_bind]
        set j := i + 1 + ((cs.drop (i + 1)).takeWhile Text.isAsciiLetter).length with hj
        -- `j` is the index behind the letters, which is the next one if there are none
        by_cases hword : i + 1 < j
        · rw [if_pos hword, ih j _ (by omega), hslice, hrest, scan_word _ (by omega)]
          simp
        · have hj' : j = i + 1 := by omega
          rw [if_neg hword, hj']
          by_cases hend : i + 1 < cs.length
          · have hsymbol : cs[i + 1]? = some cs[i + 1] := List.getElem?_eq_getElem hend
            have hletter : Text.isAsciiLetter cs[i + 1] = false := by
              by_contra hletter
              rw [drop_of_getElem? hsymbol, List.takeWhile_cons_of_pos (by simpa using hletter),
                List.length_cons] at hj
              omega
            rw [if_pos hend, charAt_eq hsymbol, pure_bind, ih (i + 1 + 1) _ (by omega),
              drop_of_getElem? hsymbol]
            simp [Token.scan, hletter]
          · rw [if_neg hend, ih (i + 1) _ (by omega), List.drop_eq_nil_of_le (Nat.le_of_not_lt hend)]
            rfl
      · rw [if_neg (by simpa using hslash), ih (i + 1) _ (by omega)]
        simp [Token.scan, hslash]
    · rw [tokensFrom, if_neg hi, List.drop_eq_nil_of_le (Nat.le_of_not_lt hi)]
      simp [Token.scan]

theorem tokenize_eq (markup : String) (fuel : Nat) (hfuel : markup.length < fuel) :
    tokenize markup fuel = pure (Token.ofString markup) :=
  tokensFrom_eq markup.toList 0 [] fuel (by simpa [← String.length_toList] using hfuel)

/-- Every token takes a character: one of those still to come, or of the name read so far. -/
theorem length_scan_le (name : Option (List Char)) (cs : List Char) :
    (Token.scan name cs).length ≤ (name.getD []).length + cs.length := by
  induction cs generalizing name with
  | nil => rcases name with _ | _ | _ <;> simp [Token.scan]
  | cons c cs ih =>
    have hplain := ih none
    have hslash := ih (some [])
    simp only [Option.getD_none, Option.getD_some, List.length_nil] at hplain hslash
    -- by what has been read of a name, as in `Token.scan`
    rcases name with _ | _ | ⟨d, name⟩
    · rw [Token.scan]
      split <;> simp <;> omega
    · have hletter := ih (some [c])
      rw [Token.scan]
      split <;> simp at hletter ⊢ <;> omega
    · have hletter := ih (some (c :: d :: name))
      rw [Token.scan]
      split_ifs <;> simp_all <;> omega

theorem length_ofString_le (markup : String) :
    (Token.ofString markup).length ≤ markup.length := by
  have hle := length_scan_le none markup.toList
  rwa [Option.getD_none, List.length_nil, Nat.zero_add, String.length_toList] at hle

end FormulaDesk.Markup
