import IconCompiler.OrderedMap
import IconCompiler.Path

/-!
# File trees

A file tree is a file, or a directory that holds trees under names. Whatever lies in a tree has a
key there, which is the list of the names that lead to it.

`at?` is the view: `at?_put_append` and `at?_put_of_diverges` say what a change under one key does
to every key. In a distinct tree no directory holds two trees under one name, and changes keep that.
-/

namespace IconCompiler

/-- The names that lead to a file or directory. -/
abbrev FileKey := List FileName

/-- A file, or a directory with what lies in it. -/
inductive FileTree where
  | file (content : ByteArray)
  | dir (entries : List (FileName × FileTree))

namespace FileTree

/-- The directory in which nothing lies. -/
def empty : FileTree := .dir []

instance : Inhabited FileTree := ⟨empty⟩

/-- Directories of which each holds nothing but the next one. -/
def chain : FileKey → FileTree
  | [] => empty
  | name :: key => .dir [(name, chain key)]

/-- Whether the tree is a directory. -/
def isDir : FileTree → Bool
  | .file _ => false
  | .dir _ => true

/-- What lies in a directory. Nothing lies in a file. -/
def entries : FileTree → List (FileName × FileTree)
  | .file _ => []
  | .dir es => es

/-- What a directory holds under a name. -/
def child? (t : FileTree) (name : FileName) : Option FileTree :=
  OrderedMap.lookup name t.entries

/-- What stands under a key. -/
def at? : FileTree → FileKey → Option FileTree
  | t, [] => some t
  | t, name :: key =>
    match t.child? name with
    | some s => at? s key
    | none => none

/-- The tree with another one put under a key. Directories that are missing on the way are made. -/
def put : FileTree → FileKey → FileTree → FileTree
  | _, [], new => new
  | t, name :: key, new =>
    .dir (OrderedMap.put name (put ((t.child? name).getD empty) key new) t.entries)

/-- The tree without what stands under a key. The root of the tree stays. -/
def erase (t : FileTree) (key : FileKey) : FileTree :=
  match key.getLast?, t.at? key.dropLast with
  | some name, some (.dir es) => t.put key.dropLast (.dir (es.filter fun e => e.1 ≠ name))
  | _, _ => t

mutual

/-- All that lies in a tree, directories before what lies in them, each with its name and a label.
    The label extends that of the directory around it, from `a` on, by the name. -/
def listing {α : Type} (extend : α → FileName → α) (a : α) :
    FileTree → List (α × FileName × FileTree)
  | .file _ => []
  | .dir es => listEntries extend a es

/-- The entries of a directory labelled `a`, and all that lies in them. -/
def listEntries {α : Type} (extend : α → FileName → α) (a : α) :
    List (FileName × FileTree) → List (α × FileName × FileTree)
  | [] => []
  | (name, t) :: es =>
    (extend a name, name, t) :: listing extend (extend a name) t ++ listEntries extend a es

end

/-! ## What changes show -/

/-- What stands under a longer key is found from what stands under its front. -/
theorem at?_append (t : FileTree) (k k' : FileKey) :
    t.at? (k ++ k') = (t.at? k).bind fun s => s.at? k' := by
  induction k generalizing t with
  | nil => rfl
  | cons name k ih =>
    simp only [List.cons_append, at?]
    cases t.child? name with
    | none => rfl
    | some s => exact ih s

/-- A change under a key touches only the first name of the key in the directory at the root. -/
theorem child?_put_cons (t new : FileTree) (name name' : FileName) (key : FileKey) :
    (t.put (name :: key) new).child? name' =
      if name = name' then some (((t.child? name).getD empty).put key new)
      else t.child? name' := by
  simp only [put, child?, entries]
  exact OrderedMap.lookup_put _ _ _ _

/-- Under the key and those that go on from it stands what was put there. -/
theorem at?_put_append (t new : FileTree) (key k : FileKey) :
    (t.put key new).at? (key ++ k) = new.at? k := by
  induction key generalizing t with
  | nil => rfl
  | cons name key ih => simp only [List.cons_append, at?, child?_put_cons, if_pos, ih]

/-- Keys that part from the key keep what stands there. -/
theorem at?_put_of_diverges (t new : FileTree) {key k : FileKey} (h : ¬key <+: k)
    (h' : ¬k <+: key) : (t.put key new).at? k = t.at? k := by
  induction key generalizing t k with
  | nil => exact absurd List.nil_prefix h
  | cons name key ih =>
    cases k with
    | nil => exact absurd List.nil_prefix h'
    | cons name' k =>
      simp only [at?, child?_put_cons]
      by_cases hn : name = name'
      · subst hn
        have hk := ih ((t.child? name).getD empty) (k := k)
          (fun hp => h ((List.prefix_cons_inj name).2 hp))
          (fun hp => h' ((List.prefix_cons_inj name).2 hp))
        rw [if_pos rfl]
        cases hc : t.child? name with
        | some s => simpa [hc] using hk
        -- nothing stood under the name, so a new directory does, and it is empty elsewhere
        | none =>
          have hne : k ≠ [] := fun hk' => h' (by simp [hk'])
          obtain ⟨a, l, rfl⟩ := List.exists_cons_of_ne_nil hne
          rw [hc] at hk
          exact hk
      · rw [if_neg hn]

/-! ## Distinct names -/

/-- No directory in a tree holds two trees under one name. -/
inductive Distinct : FileTree → Prop
  | file (content : ByteArray) : Distinct (.file content)
  | dir {es : List (FileName × FileTree)} (names : (es.map Prod.fst).Nodup)
    (trees : ∀ e ∈ es, Distinct e.2) : Distinct (.dir es)

private theorem distinct_empty : empty.Distinct :=
  .dir List.nodup_nil nofun

/-- A chain of directories is distinct, since each of them holds one name at most. -/
theorem distinct_chain (key : FileKey) : (chain key).Distinct := by
  induction key with
  | nil => exact distinct_empty
  | cons name key ih => exact .dir (by simp) (by simpa using ih)

/-- The names at the root of a distinct tree occur once each. -/
theorem Distinct.nodup_entries {t : FileTree} (h : t.Distinct) :
    (t.entries.map Prod.fst).Nodup := by
  cases h with
  | file => exact List.nodup_nil
  | dir names => exact names

/-- Whatever lies at the root of a distinct tree is distinct itself. -/
theorem Distinct.of_mem_entries {t : FileTree} (h : t.Distinct) {e : FileName × FileTree}
    (he : e ∈ t.entries) : e.2.Distinct := by
  cases h with
  | file => cases he
  | dir _ trees => exact trees e he

theorem Distinct.child? {t s : FileTree} (h : t.Distinct) {name : FileName}
    (hs : t.child? name = some s) : s.Distinct :=
  h.of_mem_entries (OrderedMap.mem_of_lookup hs)

/-- Distinctness passes down along a key. -/
theorem Distinct.at? {t s : FileTree} (h : t.Distinct) {key : FileKey}
    (hs : t.at? key = some s) : s.Distinct := by
  induction key generalizing t with
  | nil =>
    cases hs
    exact h
  | cons name key ih =>
    simp only [FileTree.at?] at hs
    split at hs
    · rename_i hc
      exact ih (h.child? hc) hs
    · cases hs

/-- A distinct tree put into a distinct one leaves it distinct, whichever directories are made on
    the way. -/
theorem Distinct.put {t new : FileTree} (h : t.Distinct) (hnew : new.Distinct) (key : FileKey) :
    (t.put key new).Distinct := by
  induction key generalizing t with
  | nil => exact hnew
  | cons name key ih =>
    have hsub : ((t.child? name).getD empty).Distinct := by
      cases hc : t.child? name with
      | none => exact distinct_empty
      | some s => exact h.child? hc
    -- the name is put once, and only the tree under it has changed
    refine .dir (OrderedMap.nodup_put _ _ h.nodup_entries) fun e he => ?_
    rcases OrderedMap.mem_put he with rfl | he
    · exact ih hsub
    · exact h.of_mem_entries he

/-- Leaving something out keeps a tree distinct. -/
theorem Distinct.erase {t : FileTree} (h : t.Distinct) (key : FileKey) :
    (t.erase key).Distinct := by
  unfold FileTree.erase
  split
  · rename_i es _ hes
    have hd := h.at? hes
    exact h.put (.dir (hd.nodup_entries.sublist (List.filter_sublist.map Prod.fst))
      fun e he => hd.of_mem_entries (List.mem_filter.1 he |>.1)) _
  · exact h

end FileTree

end IconCompiler
