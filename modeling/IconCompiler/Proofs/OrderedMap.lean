import IconCompiler.OrderedMap
import Mathlib.Data.List.Basic
import Mathlib.Data.List.Induction

/-!
# Entries of ordered maps

A map has one entry for each key. Inserting a list of entries one after another gives the distinct
keys in the order of their first appearance, each with the value of its last entry.

## Key results

- `mem_entries_iff`: the entries of a map
- `keys_ofList`, `get?_ofList`: the keys and the values of a map made from a list
- `entries_ofList`: entries whose keys are distinct already
- `keys_insertAll`, `get?_insertAll`: the keys and the values of a map after further insertions
- `insertAll_entries_ofList`: inserting a map is inserting the list it was made from
-/

namespace IconCompiler.OrderedMap

universe u v

variable {κ : Type u} {α : Type v} [DecidableEq κ]

/-- In entries with distinct keys every entry is found under its key. -/
theorem lookup_of_mem {e : κ × α} {es : List (κ × α)} (hnodup : (es.map Prod.fst).Nodup)
    (h : e ∈ es) : lookup e.1 es = some e.2 := by
  induction es with
  | nil => cases h
  | cons e' es ih =>
    rw [List.map_cons, List.nodup_cons] at hnodup
    rcases List.mem_cons.1 h with rfl | h
    · rw [lookup, if_pos rfl]
    · have hne : e'.1 ≠ e.1 := by
        intro heq
        rw [heq] at hnodup
        exact hnodup.1 (List.mem_map_of_mem h)
      rw [lookup, if_neg hne, ih hnodup.2 h]

/-- The entries are the keys with the values under them. -/
theorem mem_entries_iff {m : OrderedMap κ α} {e : κ × α} :
    e ∈ m.entries ↔ m.get? e.1 = some e.2 :=
  ⟨lookup_of_mem m.nodup_keys, mem_of_lookup⟩

theorem ofList_concat (es : List (κ × α)) (e : κ × α) :
    ofList (es ++ [e]) = (ofList es).insert e.1 e.2 :=
  List.foldl_append

/-- The keys are the distinct keys of the entries, in the order of their first appearance. -/
theorem keys_ofList (es : List (κ × α)) : (ofList es).keys = (es.map Prod.fst).eraseDups := by
  induction es using List.reverseRecOn with
  | nil => rfl
  | append_singleton es e ih =>
    have hmem : e.1 ∈ (ofList es).keys ↔ e.1 ∈ es.map Prod.fst := by
      rw [ih, List.mem_eraseDups]
    rw [ofList_concat, keys_insert, List.map_append, List.eraseDups_append, ← ih]
    -- a known key changes nothing, and a new one is the last to appear
    split
    · rename_i hknown
      simp [List.removeAll, hmem.1 hknown]
    · rename_i hnew
      have hnot := mt hmem.2 hnew
      simp [List.removeAll, hnot, List.eraseDups_cons]

/-- The value under a key is that of the last entry with the key. -/
theorem get?_ofList (es : List (κ × α)) (k : κ) :
    (ofList es).get? k = (es.reverse.find? fun e => e.1 = k).map Prod.snd := by
  induction es using List.reverseRecOn with
  | nil => rfl
  | append_singleton es e ih =>
    rw [ofList_concat, get?_insert, ih, List.reverse_concat, List.find?_cons]
    by_cases h : e.1 = k <;> simp [h]

/-- A map made from a list has no other entries than the list. -/
theorem mem_of_mem_entries_ofList {es : List (κ × α)} {e : κ × α} (h : e ∈ (ofList es).entries) :
    e ∈ es := by
  rw [mem_entries_iff, get?_ofList, Option.map_eq_some_iff] at h
  obtain ⟨e', hfind, hvalue⟩ := h
  have hkey : e'.1 = e.1 := by simpa using List.find?_some hfind
  have heq : e' = e := Prod.ext hkey hvalue
  exact heq ▸ List.mem_reverse.1 (List.mem_of_find?_eq_some hfind)

/-- Entries with distinct keys are the entries of their map. -/
theorem entries_ofList {es : List (κ × α)} (h : (es.map Prod.fst).Nodup) :
    (ofList es).entries = es := by
  induction es using List.reverseRecOn with
  | nil => rfl
  | append_singleton es e ih =>
    rw [List.map_append, List.nodup_append] at h
    have hentries := ih h.1
    have hnew : e.1 ∉ (ofList es).keys := by
      rw [keys, hentries]
      exact fun hmem => h.2.2 e.1 hmem e.1 (by simp) rfl
    rw [ofList_concat, entries_insert_of_not_mem e.2 hnew, hentries]

/-! ## Further insertions -/

theorem insertAll_concat (m : OrderedMap κ α) (es : List (κ × α)) (e : κ × α) :
    m.insertAll (es ++ [e]) = (m.insertAll es).insert e.1 e.2 :=
  List.foldl_append

/-- The keys stay where they are, and new keys follow in the order of their first appearance. -/
theorem keys_insertAll (m : OrderedMap κ α) (es : List (κ × α)) :
    (m.insertAll es).keys = m.keys ++ (ofList es).keys.filter fun k => k ∉ m.keys := by
  induction es using List.reverseRecOn with
  | nil => simp [insertAll, ofList, keys, empty]
  | append_singleton es e ih =>
    rw [insertAll_concat, ofList_concat, keys_insert, keys_insert, ih]
    by_cases hknown : e.1 ∈ m.keys
    · -- the key is one of the map already, and the filter takes it out of the list
      by_cases hlist : e.1 ∈ (ofList es).keys <;> simp [hknown, hlist]
    · by_cases hlist : e.1 ∈ (ofList es).keys <;> simp [hknown, hlist]

/-- The last value that is inserted under a key counts. -/
theorem get?_insertAll (m : OrderedMap κ α) (es : List (κ × α)) (k : κ) :
    (m.insertAll es).get? k = ((ofList es).get? k).or (m.get? k) := by
  induction es using List.reverseRecOn with
  | nil => rfl
  | append_singleton es e ih =>
    rw [insertAll_concat, ofList_concat, get?_insert, get?_insert, ih]
    by_cases h : e.1 = k <;> simp [h]

omit [DecidableEq κ] in
/-- Maps with the same entries are equal. -/
theorem ext_entries {m m' : OrderedMap κ α} (h : m.entries = m'.entries) : m = m' := by
  cases m
  cases m'
  cases h
  rfl

/-- A map is known by its keys and the values under them. -/
theorem ext_get? {m m' : OrderedMap κ α} (hkeys : m.keys = m'.keys)
    (hget : ∀ k, m.get? k = m'.get? k) : m = m' := by
  -- the entries can be computed from the keys and the values
  have hentries : ∀ m : OrderedMap κ α,
      m.entries = m.keys.filterMap fun k => (m.get? k).map (k, ·) := by
    intro m
    have hvalue : ∀ e ∈ m.entries, (m.get? e.1).map (e.1, ·) = some e := by
      intro e he
      rw [mem_entries_iff.1 he, Option.map_some]
    have hall : m.entries.filterMap (fun e => (m.get? e.1).map (e.1, ·)) = m.entries := by
      rw [List.filterMap_congr hvalue, List.filterMap_some]
    rw [keys, List.filterMap_map]
    exact hall.symm
  apply ext_entries
  rw [hentries m, hentries m', hkeys]
  exact List.filterMap_congr fun k _ => by rw [hget]

/-- Inserting the entries of a map is inserting the list that the map was made from. -/
theorem insertAll_entries_ofList (m : OrderedMap κ α) (es : List (κ × α)) :
    m.insertAll (ofList es).entries = m.insertAll es := by
  have hsame : ofList (ofList es).entries = ofList es :=
    ext_entries (entries_ofList (ofList es).nodup_keys)
  apply ext_get?
  · rw [keys_insertAll, keys_insertAll, hsame]
  · intro k
    rw [get?_insertAll, get?_insertAll, hsame]

end IconCompiler.OrderedMap
