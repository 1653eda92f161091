import FormulaDesk.CommandLine.Command
import FormulaDesk.Proofs.Json.Numbers
import FormulaDesk.Proofs.Method.RootProblem
import FormulaDesk.Proofs.Text.Classes

/-! # Parameters of a command line

A parameter whose value is written in the exchange notation has this value again, as far as the
notation is read back: numbers that suit a field are (`parameter?_suits`), whole numbers of too many
digits remain texts (`parameter?_long`).
-/

namespace FormulaDesk.CommandLine

variable {name raw : String} {v : Json}

/-- A name that stands before an equals sign as it is. -/
structure IsPlainName (name : String) : Prop where
  ne_empty : name.toList ≠ []
  plain : ∀ c ∈ name.toList, c ≠ '=' ∧ Text.isBlank c = false

theorem splitEquals_append (hname : IsPlainName name) (cs : List Char) :
    splitEquals (name.toList ++ '=' :: cs) = (name.toList, some cs) := by
  have hbefore : ∀ c ∈ name.toList, (c != '=') = true := by
    intro c hc
    simpa using (hname.plain c hc).1
  unfold splitEquals
  rw [List.dropWhile_append_of_pos hbefore, List.takeWhile_append_of_pos hbefore]
  simp

theorem parameter?_eq (hname : IsPlainName name) :
    parameter? (name ++ "=" ++ raw) =
      some (name, (Json.ofString? raw).getD (.str raw)) := by
  have htext : (name ++ "=" ++ raw).toList = name.toList ++ '=' :: raw.toList := by
    simp [String.toList_append]
  have hstrip := Text.stripBlank_eq_self fun c hc => (hname.plain c hc).2
  obtain ⟨c, cs, hcons⟩ := List.exists_cons_of_ne_nil hname.ne_empty
  have hsplit := splitEquals_append hname raw.toList
  rw [← htext, hcons] at hsplit
  unfold parameter?
  rw [hsplit]
  dsimp only
  rw [← hcons, hstrip, String.ofList_toList, String.ofList_toList]
  rfl

/-- The names of all fields are plain. -/
theorem isPlainName_of_mem {m : Method} (h : name ∈ m.fieldNames) : IsPlainName name := by
  have hall : m.fieldNames.all (fun name => !name.toList.isEmpty &&
      name.toList.all fun c => c != '=' && !Text.isBlank c) = true := by
    cases m <;> decide +kernel
  have hname := List.all_eq_true.mp hall name h
  rw [Bool.and_eq_true, List.all_eq_true] at hname
  refine ⟨by simpa using hname.1, ?_⟩
  intro c hc
  simpa using hname.2 c hc

theorem parameter?_suits {m : Method} {f : Method.Field} (hf : f ∈ m.fields) (hv : f.Suits v)
    (layout : Json.Layout) :
    parameter? (f.name ++ "=" ++ v.render layout) = some (f.name, v) := by
  rw [parameter?_eq (isPlainName_of_mem (List.mem_map_of_mem hf))]
  cases hv with
  | real hx => rw [Json.ofString?_float hx, Option.getD_some]
  | whole hn => rw [Json.ofString?_int, if_neg (not_lt.mpr hn), Option.getD_some]

/-- A whole number of too many digits is taken as a text. -/
theorem parameter?_long {n : Int} (hname : IsPlainName name)
    (hn : Numeral.maxDigits < (Nat.toDigits 10 n.natAbs).length) (layout : Json.Layout) :
    parameter? (name ++ "=" ++ (Json.int n).render layout) =
      some (name, .str ((Json.int n).render layout)) := by
  rw [parameter?_eq hname, Json.ofString?_int, if_pos hn, Option.getD_none]

end FormulaDesk.CommandLine
