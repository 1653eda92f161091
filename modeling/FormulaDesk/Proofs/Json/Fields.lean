import FormulaDesk.Json.Basic
import Mathlib.Data.List.Perm.Basic
import Mathlib.Data.List.Nodup

/-! # Fields

Fields are looked up by key and changed in place. A change keeps the keys and what the other keys
hold; fields without a repeated key are told, up to their order, by what the keys hold.
-/

namespace FormulaDesk

namespace Fields

variable {fs gs : Fields} {k k' : String} {v : Json}

@[simp]
theorem get?_nil (k : String) : get? [] k = none := rfl

theorem get?_cons (kv : String × Json) (fs : Fields) (k : String) :
    get? (kv :: fs) k = if k = kv.1 then some kv.2 else fs.get? k := by
  obtain ⟨key, value⟩ := kv
  by_cases h : k = key
  · simp [get?, h]
  · simp [get?, List.lookup_cons, beq_false_of_ne h, h]

@[simp]
theorem keys_cons (kv : String × Json) (fs : Fields) : keys (kv :: fs) = kv.1 :: fs.keys := rfl

/-- Looking a name up fails exactly when the object has no such member. -/
theorem get?_eq_none_iff : fs.get? k = none ↔ k ∉ fs.keys := by
  induction fs with
  | nil => simp [keys]
  | cons kv fs ih =>
    rw [get?_cons, keys_cons, List.mem_cons]
    by_cases h : k = kv.1
    · simp [h]
    · simp [h, ih]

/-- The membership test of an object is membership among its names. -/
theorem contains_iff_mem_keys : fs.contains k = true ↔ k ∈ fs.keys := by
  have hnone := @get?_eq_none_iff fs k
  rw [contains, Option.isSome_iff_ne_none]
  exact not_iff_comm.mp hnone.symm

/-- Every name of an object is found. -/
theorem get?_of_mem_keys (h : k ∈ fs.keys) : ∃ v, fs.get? k = some v := by
  rw [← contains_iff_mem_keys] at h
  exact Option.isSome_iff_exists.mp h

/-- A name that is found is a name of the object. -/
theorem mem_keys_of_get? (h : fs.get? k = some v) : k ∈ fs.keys := by
  rw [← contains_iff_mem_keys]
  exact Option.isSome_iff_exists.mpr ⟨v, h⟩

/-- What is found under a name is a member of the object. -/
theorem mem_of_get? (h : fs.get? k = some v) : (k, v) ∈ fs := by
  obtain ⟨before, after, hsplit, -⟩ := List.lookup_eq_some_iff.mp h
  rw [hsplit]
  exact List.mem_append_right _ List.mem_cons_self

/-! ## Changes -/

/-- A value just written is the one that is found. -/
theorem get?_set_self (fs : Fields) (k : String) (v : Json) : (fs.set k v).get? k = some v := by
  induction fs with
  | nil => simp [set, get?_cons]
  | cons kv fs ih =>
    by_cases h : kv.1 = k
    · simp [set, h, get?_cons]
    · simp [set, h, get?_cons, Ne.symm h, ih]

/-- A write under one name leaves what is found under the others. -/
theorem get?_set_of_ne (fs : Fields) (v : Json) (h : k' ≠ k) :
    (fs.set k v).get? k' = fs.get? k' := by
  induction fs with
  | nil => simp [set, get?_cons, h]
  | cons kv fs ih =>
    by_cases hkv : kv.1 = k
    · simp [set, hkv, get?_cons, h]
    · simp [set, hkv, get?_cons, ih]

/-- A key that is there keeps its place. -/
theorem keys_set (v : Json) (h : k ∈ fs.keys) : (fs.set k v).keys = fs.keys := by
  induction fs with
  | nil => simp [keys] at h
  | cons kv fs ih =>
    by_cases hkv : kv.1 = k
    · simp [set, hkv]
    · have htail : k ∈ keys fs := by
        rw [keys_cons, List.mem_cons] at h
        exact h.resolve_left (Ne.symm hkv)
      simp [set, hkv, ih htail]

/-- To write what is there changes nothing. -/
theorem set_eq_self (h : fs.get? k = some v) : fs.set k v = fs := by
  induction fs with
  | nil => simp at h
  | cons kv fs ih =>
    rw [get?_cons] at h
    by_cases hkv : k = kv.1
    · rw [if_pos hkv, Option.some.injEq] at h
      simp [set, hkv, ← h]
    · rw [if_neg hkv] at h
      simp [set, Ne.symm hkv, ih h]

/-- Overwriting a name that the object has keeps its names. -/
theorem keys_set_perm {names : List String} (h : fs.keys.Perm names) (hk : k ∈ names) (v : Json) :
    (fs.set k v).keys.Perm names := by
  rw [keys_set v (h.mem_iff.mpr hk)]
  exact h

@[simp]
theorem update_nil (fs : Fields) : fs.update [] = fs := rfl

@[simp]
theorem update_cons (fs : Fields) (kv : String × Json) (more : Fields) :
    fs.update (kv :: more) = (fs.set kv.1 kv.2).update more := rfl

/-- Updates can be applied one after the other. -/
theorem update_append (fs more rest : Fields) :
    fs.update (more ++ rest) = (fs.update more).update rest := List.foldl_append

/-- Of all values for a key the last one stays. -/
theorem get?_update (fs more : Fields) (k : String) :
    (fs.update more).get? k = (get? more.reverse k).or (fs.get? k) := by
  induction more generalizing fs with
  | nil => simp
  | cons kv more ih =>
    have hlast : get? (kv :: more).reverse k = (get? more.reverse k).or (get? [kv] k) := by
      rw [List.reverse_cons]
      exact List.lookup_append
    rw [update_cons, ih, hlast, Option.or_assoc]
    by_cases hk : k = kv.1
    · simp [hk, get?_set_self, get?_cons]
    · simp [hk, get?_set_of_ne, get?_cons]

/-- Values for different keys change nothing exactly if all of them are there. -/
theorem update_eq_self_iff {more : Fields} (h : more.keys.Nodup) :
    fs.update more = fs ↔ ∀ kv ∈ more, fs.get? kv.1 = some kv.2 := by
  induction more generalizing fs with
  | nil => simp
  | cons kv more ih =>
    rw [keys_cons, List.nodup_cons] at h
    obtain ⟨hfresh, hmore⟩ := h
    rw [update_cons, List.forall_mem_cons]
    constructor
    · intro hsame
      -- nothing behind the first value writes to its key
      have hfirst : fs.get? kv.1 = some kv.2 := by
        have hnone : get? more.reverse kv.1 = none := by
          rw [get?_eq_none_iff, keys, List.map_reverse, List.mem_reverse]
          exact hfresh
        rw [← hsame, get?_update, hnone, Option.none_or, get?_set_self]
      rw [set_eq_self hfirst] at hsame
      exact ⟨hfirst, (ih hmore).mp hsame⟩
    · rintro ⟨hfirst, hrest⟩
      rw [set_eq_self hfirst]
      exact (ih hmore).mpr hrest

/-! ## A value for each name -/

section

variable {α : Type} {items : List α} {a : α} {name : α → String}

theorem keys_map (items : List α) (name : α → String) (value : α → Json) :
    keys (items.map fun a => (name a, value a)) = items.map name := by
  simp [keys]

/-- In an object made of one member for each item, the value of an item is found under its name. -/
theorem get?_map (value : α → Json) (h : (items.map name).Nodup) (ha : a ∈ items) :
    get? (items.map fun a => (name a, value a)) (name a) = some (value a) := by
  induction items with
  | nil => cases ha
  | cons b items ih =>
    rw [List.map_cons, List.nodup_cons] at h
    obtain ⟨hfresh, hrest⟩ := h
    rw [List.map_cons, get?_cons]
    rcases List.mem_cons.mp ha with rfl | ha
    · rw [if_pos rfl]
    · have hne : name a ≠ name b := fun heq => hfresh (heq ▸ List.mem_map_of_mem ha)
      rw [if_neg hne]
      exact ih hrest ha

/-- Overwriting one member of an object made of one member for each item changes that item's value
alone. -/
theorem set_map (value : α → Json) (h : (items.map name).Nodup) (ha : a ∈ items) (v : Json) :
    set (items.map fun a => (name a, value a)) (name a) v =
      items.map fun b => (name b, if name b = name a then v else value b) := by
  induction items with
  | nil => cases ha
  | cons b items ih =>
    rw [List.map_cons, List.nodup_cons] at h
    obtain ⟨hfresh, hrest⟩ := h
    rcases List.mem_cons.mp ha with rfl | ha
    · -- no later item has the name
      have hlater : items.map (fun b => (name b, if name b = name a then v else value b))
          = items.map fun b => (name b, value b) := by
        apply List.map_congr_left
        intro b hb
        have hne : name b ≠ name a := fun heq => hfresh (heq ▸ List.mem_map_of_mem hb)
        rw [if_neg hne]
      simp [set, hlater]
    · have hne : name b ≠ name a := fun heq => hfresh (heq ▸ List.mem_map_of_mem ha)
      simp [set, hne, ih hrest ha]

end

/-! ## Fields up to their order -/

/-- When no name stands twice, the members of an object are what is found in it. -/
theorem mem_iff_get? (h : fs.keys.Nodup) : (k, v) ∈ fs ↔ fs.get? k = some v := by
  induction fs with
  | nil => simp
  | cons kv fs ih =>
    rw [keys_cons, List.nodup_cons] at h
    obtain ⟨hfresh, hrest⟩ := h
    rw [List.mem_cons, ih hrest, get?_cons]
    by_cases hk : k = kv.1
    · -- the key comes only once, so its value is that of the head
      have hnone : get? fs k = none := get?_eq_none_iff.mpr (hk ▸ hfresh)
      rw [if_pos hk, hnone]
      simp [Prod.ext_iff, hk, eq_comm]
    · simp [Prod.ext_iff, hk]

/-- After an update, what is found is the new value where there is one and the old one elsewhere. -/
theorem get?_update_of_nodup {more : Fields} (fs : Fields) (h : more.keys.Nodup) (k : String) :
    (fs.update more).get? k = (more.get? k).or (fs.get? k) := by
  have hreverse : (keys more.reverse).Nodup := by
    rw [keys, List.map_reverse]
    exact List.nodup_reverse.mpr h
  have hsame : get? more.reverse k = more.get? k := by
    apply Option.ext
    intro v
    rw [← mem_iff_get? hreverse, ← mem_iff_get? h, List.mem_reverse]
  rw [get?_update, hsame]

/-- When no name stands twice, the order of the members does not matter to what is found. -/
theorem get?_of_perm (hfs : fs.keys.Nodup) (h : fs.Perm gs) (k : String) :
    fs.get? k = gs.get? k := by
  have hgs : gs.keys.Nodup := (h.map Prod.fst).nodup_iff.mp hfs
  apply Option.ext
  intro v
  rw [← mem_iff_get? hfs, ← mem_iff_get? hgs, h.mem_iff]

/-- Two objects in which the same is found have the same members, up to their order. -/
theorem perm_of_get? (hfs : fs.keys.Nodup) (hgs : gs.keys.Nodup)
    (h : ∀ k, fs.get? k = gs.get? k) : fs.Perm gs := by
  rw [List.perm_ext_iff_of_nodup (List.Nodup.of_map _ hfs) (List.Nodup.of_map _ hgs)]
  rintro ⟨k, v⟩
  rw [mem_iff_get? hfs, mem_iff_get? hgs, h k]

end Fields

namespace Json

/-- An object has a strict encoding exactly when each of its values has one. -/
theorem fieldsFinite_eq_all (fs : Fields) : fieldsFinite fs = fs.all fun kv => kv.2.isFinite := by
  induction fs with
  | nil => rfl
  | cons kv fs ih => rw [fieldsFinite, ih, List.all_cons]

/-- The order of the fields does not matter. -/
theorem isFinite_obj_of_perm {fs gs : Fields} (h : fs.Perm gs) :
    (obj fs).isFinite = (obj gs).isFinite := by
  rw [isFinite, isFinite, fieldsFinite_eq_all, fieldsFinite_eq_all]
  exact h.all_eq

end Json

end FormulaDesk
