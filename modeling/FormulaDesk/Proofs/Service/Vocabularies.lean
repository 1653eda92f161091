import FormulaDesk.Proofs.Json.Fields
import FormulaDesk.Proofs.Steps
import FormulaDesk.Service.Reply

/-! # Two vocabularies

The service has several keys for one thing. What an object says under the keys of such a group is
one value (`Says`), and a reply depends on its object through these values only. So an object whose
keys are renamed within their groups is read as the same reply (`Renamed.ofFields_eq`).

A reply also brings two traces together, the own one and the iterations: `TraceOf` tells which of
them it shows.
-/

namespace FormulaDesk.Reply

variable {raw renamed : Fields} {rename : String → String} {keys : List String} {v w : Json}
  {k k' k'' : String}

/-! ## Synonyms -/

def iterationKeys : List String := ["iterations", "iteraciones"]

/-- The groups of keys that say one thing. -/
def groups : List (List String) :=
  [["root", "raiz"], ["converged", "convergence"], ["message", "mensaje"], iterationKeys, traceKeys]

/-- Two keys that say the same. A key outside the groups is a synonym of itself only. -/
def Synonym (k k' : String) : Prop := k = k' ∨ ∃ keys ∈ groups, k ∈ keys ∧ k' ∈ keys

theorem Synonym.symm (h : Synonym k k') : Synonym k' k := by
  rcases h with rfl | ⟨keys, hgroup, hk, hk'⟩
  · exact .inl rfl
  · exact .inr ⟨keys, hgroup, hk', hk⟩

/-- The groups have no key in common. -/
theorem group_unique : ∀ keys ∈ groups, ∀ k ∈ keys, ∀ keys' ∈ groups, k ∈ keys' → keys = keys' := by
  decide

/-- Synonyms belong to the same groups of keys. -/
theorem Synonym.mem (h : Synonym k k') (hgroup : keys ∈ groups) (hk : k ∈ keys) : k' ∈ keys := by
  rcases h with rfl | ⟨keys', hgroup', hk', hmem⟩
  · exact hk
  · exact group_unique keys hgroup k hk keys' hgroup' hk' ▸ hmem

/-- Synonymy is transitive, since no key is in two groups. -/
theorem Synonym.trans (h : Synonym k k') (h' : Synonym k' k'') : Synonym k k'' := by
  rcases h with rfl | ⟨keys, hgroup, hk, hk'⟩
  · exact h'
  · exact .inr ⟨keys, hgroup, hk, h'.mem hgroup hk'⟩

/-- The object says nothing under two keys. -/
def Unambiguous (raw : Fields) : Prop := ∀ k ∈ raw.keys, ∀ k' ∈ raw.keys, Synonym k k' → k = k'

/-! ## What an object says -/

/-- The object has the value under one of the keys. -/
def Says (raw : Fields) (keys : List String) (v : Json) : Prop := ∃ k ∈ keys, raw.get? k = some v

/-- The value under the first of the keys that is there. -/
def said (raw : Fields) (keys : List String) : Option Json := keys.findSome? raw.get?

/-- In an unambiguous object, looking through a group of keys finds what the object says under any
of them. -/
theorem said_eq_some (hplain : Unambiguous raw) (hgroup : keys ∈ groups) :
    said raw keys = some v ↔ Says raw keys v := by
  constructor
  · exact List.exists_of_findSome?_eq_some
  · rintro ⟨k, hk, hv⟩
    cases hsaid : said raw keys with
    | none =>
      rw [said, List.findSome?_eq_none_iff] at hsaid
      rw [← hv, hsaid k hk]
    | some w =>
      -- the first key that is there is the only one
      obtain ⟨k', hk', hw⟩ := List.exists_of_findSome?_eq_some hsaid
      obtain rfl := hplain k (Fields.mem_keys_of_get? hv) k' (Fields.mem_keys_of_get? hw)
        (.inr ⟨keys, hgroup, hk, hk'⟩)
      rw [← hw, hv]

/-- Looking two keys up in turn is looking through their group. -/
theorem lookupEither_eq_said (raw : Fields) (first second : String) :
    lookupEither raw first second = (said raw [first, second]).getD .null := by
  cases h : raw.get? first <;> cases h' : raw.get? second <;>
    simp [lookupEither, said, h, h']

/-- The items of a value that is a list. -/
def itemsOf (v : Option Json) : List Json :=
  match v with
  | some (.arr items) => items
  | _ => []

/-- With one trace key at most there is no choice between lists. -/
theorem ownTrace_eq_said (hplain : Unambiguous raw) :
    ownTrace raw = itemsOf (said raw traceKeys) := by
  have hgroup : traceKeys ∈ groups := by decide
  unfold ownTrace
  -- the first list is the only value that the object has under any of the keys
  cases hfirst : traceKeys.findSome? fun key =>
      match raw.get? key with
      | some (.arr items) => some items
      | _ => none with
  | some items =>
    obtain ⟨k, hk, hlist⟩ := List.exists_of_findSome?_eq_some hfirst
    split at hlist
    · rename_i found hv
      cases hlist
      rw [(said_eq_some hplain hgroup).mpr ⟨k, hk, hv⟩]
      rfl
    · cases hlist
  | none =>
    rw [List.findSome?_eq_none_iff] at hfirst
    cases hsaid : said raw traceKeys with
    | none => rfl
    | some v =>
      obtain ⟨k, hk, hv⟩ := (said_eq_some hplain hgroup).mp hsaid
      have hlist := hfirst k hk
      rw [hv] at hlist
      cases v with
      | arr items => cases hlist
      | _ => rfl

/-! ## Renaming -/

/-- The object with other keys of the same groups, in any order. -/
structure Renamed (rename : String → String) (raw renamed : Fields) : Prop where
  synonym : ∀ k ∈ raw.keys, Synonym k (rename k)
  fields : renamed.Perm (raw.map fun kv => (rename kv.1, kv.2))

/-- Renaming takes the keys one by one. -/
theorem Renamed.keys_perm (h : Renamed rename raw renamed) :
    renamed.keys.Perm (raw.keys.map rename) := by
  have hkeys := h.fields.map Prod.fst
  rw [List.map_map] at hkeys
  rw [Fields.keys, Fields.keys, List.map_map]
  exact hkeys

/-- Every key after renaming comes from one before. -/
theorem Renamed.mem_keys (h : Renamed rename raw renamed) (hk : k' ∈ renamed.keys) :
    ∃ k ∈ raw.keys, rename k = k' := by
  rw [h.keys_perm.mem_iff, List.mem_map] at hk
  exact hk

/-- Renaming gives no key twice: two synonyms do not stand in one unambiguous object. -/
theorem Renamed.nodup (h : Renamed rename raw renamed) (hobject : raw.keys.Nodup)
    (hplain : Unambiguous raw) : renamed.keys.Nodup := by
  rw [h.keys_perm.nodup_iff]
  apply hobject.map_on
  intro k hk k' hk' heq
  have hsame : Synonym k k' := (h.synonym k hk).trans (heq ▸ (h.synonym k' hk').symm)
  exact hplain k hk k' hk' hsame

/-- An object stays unambiguous under renaming. -/
theorem Renamed.unambiguous (h : Renamed rename raw renamed) (hplain : Unambiguous raw) :
    Unambiguous renamed := by
  intro k₁ hk₁ k₂ hk₂ hsame
  obtain ⟨k, hk, rfl⟩ := h.mem_keys hk₁
  obtain ⟨k', hk', rfl⟩ := h.mem_keys hk₂
  have hback : Synonym k k' := ((h.synonym k hk).trans hsame).trans (h.synonym k' hk').symm
  rw [hplain k hk k' hk' hback]

/-- What is found after renaming is what was found under the old key. -/
theorem Renamed.get?_iff (h : Renamed rename raw renamed) (hobject : raw.keys.Nodup)
    (hplain : Unambiguous raw) :
    renamed.get? k' = some v ↔ ∃ k, rename k = k' ∧ raw.get? k = some v := by
  rw [← Fields.mem_iff_get? (h.nodup hobject hplain), h.fields.mem_iff, List.mem_map]
  constructor
  · rintro ⟨⟨k, _⟩, hkv, heq⟩
    cases heq
    exact ⟨k, rfl, (Fields.mem_iff_get? hobject).mp hkv⟩
  · rintro ⟨k, rfl, hv⟩
    exact ⟨(k, v), (Fields.mem_iff_get? hobject).mpr hv, rfl⟩

/-- The keys of a group say the same afterwards. -/
theorem Renamed.says_iff (h : Renamed rename raw renamed) (hobject : raw.keys.Nodup)
    (hplain : Unambiguous raw) (hclosed : ∀ k k', Synonym k k' → (k ∈ keys ↔ k' ∈ keys)) :
    Says renamed keys v ↔ Says raw keys v := by
  constructor
  · rintro ⟨_, hmem, hsent⟩
    obtain ⟨k, rfl, hv⟩ := (h.get?_iff hobject hplain).mp hsent
    exact ⟨k, (hclosed _ _ (h.synonym k (Fields.mem_keys_of_get? hv))).mpr hmem, hv⟩
  · rintro ⟨k, hmem, hv⟩
    refine ⟨rename k, ?_, (h.get?_iff hobject hplain).mpr ⟨k, rfl, hv⟩⟩
    exact (hclosed _ _ (h.synonym k (Fields.mem_keys_of_get? hv))).mp hmem

/-- What an object says under a group of keys does not depend on the vocabulary. -/
theorem Renamed.said_eq (h : Renamed rename raw renamed) (hobject : raw.keys.Nodup)
    (hplain : Unambiguous raw) (hgroup : keys ∈ groups) : said renamed keys = said raw keys := by
  apply Option.ext
  intro v
  rw [said_eq_some (h.unambiguous hplain) hgroup, said_eq_some hplain hgroup]
  apply h.says_iff hobject hplain
  exact fun k k' hsame => ⟨hsame.mem hgroup, hsame.symm.mem hgroup⟩

/-- A key outside the groups keeps its value. -/
theorem Renamed.lookup_eq (h : Renamed rename raw renamed) (hobject : raw.keys.Nodup)
    (hplain : Unambiguous raw) (houtside : ∀ keys ∈ groups, k ∉ keys) :
    lookup renamed k = lookup raw k := by
  have hself : ∀ k₁ k₂, Synonym k₁ k₂ → (k₁ ∈ [k] ↔ k₂ ∈ [k]) := by
    rintro k₁ k₂ (rfl | ⟨keys, hgroup, hk₁, hk₂⟩)
    · rfl
    · have hne₁ : k₁ ≠ k := fun heq => houtside keys hgroup (heq ▸ hk₁)
      have hne₂ : k₂ ≠ k := fun heq => houtside keys hgroup (heq ▸ hk₂)
      simp [hne₁, hne₂]
  have hget : renamed.get? k = raw.get? k := by
    apply Option.ext
    intro v
    simpa [Says] using h.says_iff (v := v) hobject hplain hself
  rw [lookup, lookup, hget]

/-- A renamed object is read as the same reply, or is refused for the same reason. -/
theorem Renamed.ofFields_eq (h : Renamed rename raw renamed) (hobject : raw.keys.Nodup)
    (hplain : Unambiguous raw) :
    ofFields renamed = (ofFields raw).map fun r => { r with raw := renamed } := by
  have hpair : ∀ first second, [first, second] ∈ groups →
      lookupEither renamed first second = lookupEither raw first second := by
    intro first second hgroup
    rw [lookupEither_eq_said, lookupEither_eq_said, h.said_eq hobject hplain hgroup]
  have hown : ownTrace renamed = ownTrace raw := by
    rw [ownTrace_eq_said (h.unambiguous hplain), ownTrace_eq_said hplain,
      h.said_eq hobject hplain (by decide)]
  -- keys without a synonym keep their name
  have hsingle : ∀ k, (∀ keys ∈ groups, k ∉ keys) → lookup renamed k = lookup raw k :=
    fun k => h.lookup_eq hobject hplain
  unfold ofFields
  simp only [hpair _ _ (by decide : ["root", "raiz"] ∈ groups),
    hpair _ _ (by decide : ["converged", "convergence"] ∈ groups),
    hpair _ _ (by decide : ["message", "mensaje"] ∈ groups),
    hpair _ _ (by decide : ["iterations", "iteraciones"] ∈ groups), hown,
    hsingle "warnings" (by decide), hsingle "solution" (by decide), hsingle "error" (by decide),
    hsingle "convergence_details" (by decide), hsingle "comparison_with_jacobi" (by decide)]
  exact bind_eq_map_bind fun count => bind_eq_map_bind fun warnings => rfl

/-! ## The trace -/

/-- The trace of a reply: the list under a trace key unless it is empty, else the list under a key
for the iterations, else nothing. -/
inductive TraceOf (raw : Fields) : List Json → Prop
  | own {items : List Json} (sent : Says raw traceKeys (.arr items)) (filled : items ≠ []) :
      TraceOf raw items
  | iterations {items : List Json} (bare : ∀ own, Says raw traceKeys (.arr own) → own = [])
      (sent : Says raw iterationKeys (.arr items)) : TraceOf raw items
  | nothing (bare : ∀ own, Says raw traceKeys (.arr own) → own = [])
      (unlisted : ∀ items, ¬ Says raw iterationKeys (.arr items)) : TraceOf raw []

/-- The list an object says under one of the trace keys is its own trace. -/
theorem eq_ownTrace (hplain : Unambiguous raw) {items : List Json}
    (h : Says raw traceKeys (.arr items)) : items = ownTrace raw := by
  rw [ownTrace_eq_said hplain, (said_eq_some hplain (by decide)).mpr h]
  rfl

/-- An own trace that is not empty is said under one of the trace keys. -/
theorem says_ownTrace (hplain : Unambiguous raw) (h : ownTrace raw ≠ []) :
    Says raw traceKeys (.arr (ownTrace raw)) := by
  rw [ownTrace_eq_said hplain] at h ⊢
  rw [← said_eq_some hplain (by decide)]
  cases hsaid : said raw traceKeys with
  | none => exact absurd (by rw [hsaid]; rfl) h
  | some v =>
    cases v with
    | arr items => rfl
    | _ => exact absurd (by rw [hsaid]; rfl) h

/-- `iterations` and `iteraciones` are looked up as one group of keys. -/
theorem lookupEither_eq_arr (hplain : Unambiguous raw) {items : List Json} :
    lookupEither raw "iterations" "iteraciones" = .arr items ↔
      Says raw iterationKeys (.arr items) := by
  have hgroup : iterationKeys ∈ groups := by decide
  rw [lookupEither_eq_said, ← said_eq_some hplain hgroup]
  show (said raw iterationKeys).getD .null = .arr items ↔ _
  cases said raw iterationKeys <;> simp

/-- The parts of a reply that come from the iterations and the trace keys. -/
theorem ofFields_trace {r : Reply} (h : ofFields raw = .ok r) :
    (r.trace = match lookupEither raw "iterations" "iteraciones" with
      | .arr items => if (ownTrace raw).isEmpty then items else ownTrace raw
      | _ => ownTrace raw) ∧
      countOf (lookupEither raw "iterations" "iteraciones") r.trace = .ok r.iterationCount := by
  obtain ⟨count, hcount, h⟩ := bind_eq_ok.mp h
  obtain ⟨warnings, -, h⟩ := bind_eq_ok.mp h
  cases h
  exact ⟨rfl, hcount⟩

/-- The trace of an answer is the one the object gives, wherever it gives it. -/
theorem traceOf_ofFields (hplain : Unambiguous raw) {r : Reply} (h : ofFields raw = .ok r) :
    TraceOf raw r.trace := by
  have htrace := (ofFields_trace h).1
  by_cases hown : ownTrace raw = []
  · -- without a list of its own the trace is the list under the key of the count, if that is one
    have bare : ∀ own, Says raw traceKeys (.arr own) → own = [] :=
      fun own hsays => (eq_ownTrace hplain hsays).trans hown
    split at htrace
    · rename_i items hitems
      rw [htrace, hown]
      exact .iterations bare ((lookupEither_eq_arr hplain).mp hitems)
    · rename_i hother
      rw [htrace, hown]
      exact .nothing bare fun items hsays => hother items ((lookupEither_eq_arr hplain).mpr hsays)
  · have hfilled : r.trace = ownTrace raw := by
      rw [htrace]
      split
      · simp [hown]
      · rfl
    rw [hfilled]
    exact .own (says_ownTrace hplain hown) hown

/-- An answer with a trace has a count. -/
theorem count_of_trace {iterations : Json} {trace : List Json} {count : Option Int}
    (h : countOf iterations trace = .ok count) (htrace : trace ≠ []) : count ≠ none := by
  unfold countOf at h
  split at h
  case h_4 x =>
    obtain ⟨n, -, rfl⟩ := map_eq_ok.mp h
    simp
  case h_5 =>
    rw [if_neg (by simpa using htrace)] at h
    cases h
    simp
  all_goals
    cases h
    simp

/-- A reply does not depend on the vocabulary of its object. Let an object without repeated keys say
each thing under one key at most. However its keys are renamed within their groups, it is read as
the same reply, which keeps the renamed object, or is refused for the same reason. Its trace is the
one that `TraceOf` names, a trace that is not empty comes with a count of iterations, and iterations
sent as a list count as many as they are. -/
theorem ofFields_vocabulary (hobject : raw.keys.Nodup) (hplain : Unambiguous raw) :
    (∀ rename renamed, Renamed rename raw renamed →
      ofFields renamed = (ofFields raw).map fun r => { r with raw := renamed }) ∧
    ∀ r, ofFields raw = .ok r → r.raw = raw ∧ TraceOf raw r.trace ∧
      (r.trace ≠ [] → r.iterationCount ≠ none) ∧
      ∀ items, Says raw iterationKeys (.arr items) → r.iterationCount = some items.length := by
  refine ⟨fun rename renamed h => h.ofFields_eq hobject hplain, fun r h => ?_⟩
  obtain ⟨-, hcount⟩ := ofFields_trace h
  refine ⟨?_, traceOf_ofFields hplain h, count_of_trace hcount, fun items hsays => ?_⟩
  · obtain ⟨count, -, h⟩ := bind_eq_ok.mp h
    obtain ⟨warnings, -, h⟩ := bind_eq_ok.mp h
    cases h
    rfl
  · rw [(lookupEither_eq_arr hplain).mpr hsays] at hcount
    exact (Except.ok.inj hcount).symm

/-- Other words for some of the keys. -/
def translate : String → String
  | "iteraciones" => "iterations"
  | "converged" => "convergence"
  | "pasos" => "all_iterations"
  | k => k

/-- The same answer in Spanish, in English and in another order: all but the raw object agrees. -/
theorem ofFields_vocabulary_translated :
    ofFields [("all_iterations", .arr []), ("convergence", .bool true),
        ("iterations", .arr [.int 7]), ("root", .null)] =
      (ofFields [("root", .null), ("iteraciones", .arr [.int 7]), ("converged", .bool true),
        ("pasos", .arr [])]).map fun r =>
          { r with raw := [("all_iterations", .arr []), ("convergence", .bool true),
            ("iterations", .arr [.int 7]), ("root", .null)] } := by
  have hplain : Unambiguous [("root", .null), ("iteraciones", .arr [.int 7]),
      ("converged", .bool true), ("pasos", .arr [])] := by
    unfold Unambiguous Synonym
    decide
  refine (ofFields_vocabulary (by decide) hplain).1 translate _ ⟨?_, ?_⟩
  · unfold Synonym
    decide
  · exact List.reverse_perm (_ :: _ :: _ :: _ :: [] : Fields)

end FormulaDesk.Reply
