/-!
# Maps that remember the order of insertion

A key keeps the position at which it was first inserted and the value with which it was last
inserted. The view of a map is its list of entries; `keys_insert` and `get?_insert` say what an
insertion does to it.
-/

namespace IconCompiler

universe u v

/-- Distinct keys with their values, in the order in which the keys were first inserted. -/
structure OrderedMap (κ : Type u) (α : Type v) where
  /-- The entries, oldest key first. -/
  entries : List (κ × α)
  /-- No key occurs twice. -/
  nodup_keys : (entries.map Prod.fst).Nodup
  deriving DecidableEq

namespace OrderedMap

variable {κ : Type u} {α : Type v}

/-- The map without entries. -/
def empty : OrderedMap κ α :=
  ⟨[], List.nodup_nil⟩

instance : Inhabited (OrderedMap κ α) := ⟨empty⟩

/-- The keys, oldest first. -/
def keys (m : OrderedMap κ α) : List κ :=
  m.entries.map Prod.fst

variable [DecidableEq κ]

/-- The value under a key in a list of entries. -/
def lookup (k : κ) : List (κ × α) → Option α
  | [] => none
  | e :: es => if e.1 = k then some e.2 else lookup k es

/-- Replaces the value of the first entry with key `k`, or adds an entry at the end. -/
def put (k : κ) (a : α) : List (κ × α) → List (κ × α)
  | [] => [(k, a)]
  | e :: es => if e.1 = k then (k, a) :: es else e :: put k a es

/-- A put adds its key at the end unless the key is there already. -/
private theorem keys_put (k : κ) (a : α) (es : List (κ × α)) :
    (put k a es).map Prod.fst =
      if k ∈ es.map Prod.fst then es.map Prod.fst else es.map Prod.fst ++ [k] := by
  induction es with
  | nil => simp [put]
  | cons e es ih =>
    by_cases h : e.1 = k
    · simp [put, h]
    · have h' : ¬k = e.1 := fun hk => h hk.symm
      by_cases hm : k ∈ es.map Prod.fst
      · simp [put, h, ih, hm]
      · rw [if_neg hm] at ih
        rw [if_neg (by simpa [h'] using hm)]
        simp [put, h, ih]

/-- An entry with a new key goes to the end. -/
private theorem put_of_not_mem {k : κ} (a : α) {es : List (κ × α)} (h : k ∉ es.map Prod.fst) :
    put k a es = es ++ [(k, a)] := by
  induction es with
  | nil => rfl
  | cons e es ih =>
    rw [List.map_cons, List.mem_cons, not_or] at h
    rw [put, if_neg (Ne.symm h.1), ih h.2, List.cons_append]

theorem nodup_put (k : κ) (a : α) {es : List (κ × α)} (h : (es.map Prod.fst).Nodup) :
    ((put k a es).map Prod.fst).Nodup := by
  rw [keys_put]
  split
  · exact h
  · rename_i hk
    rw [List.nodup_append]
    refine ⟨h, by simp, ?_⟩
    intro x hx y hy hxy
    rw [List.mem_singleton] at hy
    exact hk (hy ▸ hxy ▸ hx)

/-- What a lookup answers is one of the entries. -/
theorem mem_of_lookup {k : κ} {a : α} {es : List (κ × α)} (h : lookup k es = some a) :
    (k, a) ∈ es := by
  induction es with
  | nil => cases h
  | cons e es ih =>
    rw [lookup] at h
    split at h
    · rename_i hk
      cases h
      cases hk
      exact List.mem_cons_self
    · exact List.mem_cons_of_mem _ (ih h)

/-- After a put there is the new entry, and else only entries that were there before. -/
theorem mem_put {k : κ} {a : α} {e : κ × α} {es : List (κ × α)} (h : e ∈ put k a es) :
    e = (k, a) ∨ e ∈ es := by
  induction es with
  | nil => exact .inl (List.mem_singleton.1 h)
  | cons e' es ih =>
    rw [put] at h
    split at h
    · rcases List.mem_cons.1 h with h | h
      · exact .inl h
      · exact .inr (List.mem_cons_of_mem _ h)
    · rcases List.mem_cons.1 h with h | h
      · exact .inr (h ▸ List.mem_cons_self)
      · exact (ih h).imp_right (List.mem_cons_of_mem _)

/-- Inserts a value under a key: a known key keeps its position. -/
def insert (m : OrderedMap κ α) (k : κ) (a : α) : OrderedMap κ α :=
  ⟨put k a m.entries, nodup_put k a m.nodup_keys⟩

/-- The value under a key. -/
def get? (m : OrderedMap κ α) (k : κ) : Option α :=
  lookup k m.entries

/-- Inserts entries one after another. -/
def insertAll (m : OrderedMap κ α) (es : List (κ × α)) : OrderedMap κ α :=
  es.foldl (fun m e => m.insert e.1 e.2) m

/-- The map that inserting a list of entries one after another gives. -/
def ofList (es : List (κ × α)) : OrderedMap κ α :=
  empty.insertAll es

/-- An insertion adds its key at the end unless the key is there already. -/
theorem keys_insert (m : OrderedMap κ α) (k : κ) (a : α) :
    (m.insert k a).keys = if k ∈ m.keys then m.keys else m.keys ++ [k] :=
  keys_put k a m.entries

/-- A new key is added at the end. -/
theorem entries_insert_of_not_mem {m : OrderedMap κ α} {k : κ} (a : α) (h : k ∉ m.keys) :
    (m.insert k a).entries = m.entries ++ [(k, a)] :=
  put_of_not_mem a h

/-- After a put its key has the new value, and every other key the value it had. -/
theorem lookup_put (k k' : κ) (a : α) (es : List (κ × α)) :
    lookup k' (put k a es) = if k = k' then some a else lookup k' es := by
  induction es with
  | nil => simp [put, lookup]
  | cons e es ih =>
    by_cases h : e.1 = k
    · by_cases h' : k = k' <;> simp [put, lookup, h, h']
    · by_cases h' : k = k'
      · subst h'
        simp [put, lookup, h, ih]
      · simp [put, lookup, h, ih, h']

/-- After an insertion its key has the new value, and every other key the value it had. -/
theorem get?_insert (m : OrderedMap κ α) (k k' : κ) (a : α) :
    (m.insert k a).get? k' = if k = k' then some a else m.get? k' :=
  lookup_put k k' a m.entries

end OrderedMap

end IconCompiler
