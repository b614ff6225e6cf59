import Mathlib.Data.List.Nodup
import IconCompiler.Proofs.FileSystem.Layout

/-!
# What a tree is listed as

In a distinct tree, the listing has one entry for every key but the empty one under which something
stands. Its labels say no more than the keys do: they go along the names of a key.

## Key results

- `listing_eq_map`: labels by keys
- `mem_listingFrom_iff`: what is listed
- `nodup_listingFrom`: everything is listed once
-/

namespace IconCompiler.FileTree

/-- All that lies in a tree, with keys that go on from `k`. -/
def listingFrom (k : FileKey) (t : FileTree) : List (FileKey × FileName × FileTree) :=
  t.listing (fun k name => k ++ [name]) k

variable {t : FileTree}

/-- The entries of a directory are listed one after another, each before what lies in it. -/
private theorem listEntries_eq_flatMap {α : Type} (extend : α → FileName → α) (a : α)
    (es : List (FileName × FileTree)) : listEntries extend a es =
      es.flatMap fun e => (extend a e.1, e.1, e.2) :: e.2.listing extend (extend a e.1) := by
  induction es with
  | nil => rfl
  | cons e es ih => rw [listEntries, ih, List.flatMap_cons]

private theorem listingFrom_dir (k : FileKey) (es : List (FileName × FileTree)) :
    (dir es).listingFrom k =
      es.flatMap fun e => (k ++ [e.1], e.1, e.2) :: e.2.listingFrom (k ++ [e.1]) :=
  listEntries_eq_flatMap _ _ _

/-- The labels of a listing go along the keys. -/
theorem listing_eq_map {α : Type} (h : t.Distinct) (extend : α → FileName → α) (a : α)
    (k : FileKey) : t.listing extend (k.foldl extend a) =
      (t.listingFrom k).map fun e => (e.1.foldl extend a, e.2) := by
  induction h generalizing k with
  | file => rfl
  | @dir es names trees ih =>
    rw [listing, listEntries_eq_flatMap, listingFrom_dir, List.map_flatMap]
    refine List.flatMap_congr fun e he => ?_
    have hlabel : extend (k.foldl extend a) e.1 = (k ++ [e.1]).foldl extend a := by
      rw [List.foldl_concat]
    rw [List.map_cons, hlabel, ih e he]

/-- What stands under a longer key stands in the tree under its first name. -/
private theorem at?_cons_eq_some_iff {name : FileName} {k : FileKey} {s : FileTree} :
    t.at? (name :: k) = some s ↔ ∃ u, t.child? name = some u ∧ u.at? k = some s := by
  rw [at?]
  cases t.child? name <;> simp

/-- What is listed is what stands under the keys that go on. -/
theorem mem_listingFrom_iff (h : t.Distinct) {k : FileKey} {e : FileKey × FileName × FileTree} :
    e ∈ t.listingFrom k ↔
      ∃ below, e.1 = k ++ (below ++ [e.2.1]) ∧ t.at? (below ++ [e.2.1]) = some e.2.2 := by
  induction h generalizing k with
  | file content =>
    refine iff_of_false List.not_mem_nil ?_
    rintro ⟨below, -, hat⟩
    obtain ⟨name, rest, hkey⟩ := List.exists_cons_of_ne_nil (l := below ++ [e.2.1]) (by simp)
    rw [hkey, at?, child?_file] at hat
    cases hat
  | @dir es names trees ih =>
    rw [listingFrom_dir, List.mem_flatMap]
    constructor
    · rintro ⟨e', he', he⟩
      have hchild : (dir es).child? e'.1 = some e'.2 := OrderedMap.lookup_of_mem names he'
      rcases List.mem_cons.1 he with rfl | he
      · exact ⟨[], rfl, at?_cons_eq_some_iff.2 ⟨_, hchild, rfl⟩⟩
      · obtain ⟨below, hkey, hat⟩ := (ih e' he').1 he
        refine ⟨e'.1 :: below, ?_, at?_cons_eq_some_iff.2 ⟨_, hchild, hat⟩⟩
        rw [hkey, List.append_assoc]
        rfl
    · rintro ⟨below, hkey, hat⟩
      -- the entry itself, or something that lies in it
      cases below with
      | nil =>
        obtain ⟨u, hchild, hu⟩ := at?_cons_eq_some_iff.1 hat
        obtain rfl := Option.some.inj hu
        refine ⟨(e.2.1, e.2.2), OrderedMap.mem_of_lookup hchild, List.mem_cons.2 (.inl ?_)⟩
        exact Prod.ext hkey rfl
      | cons name below =>
        obtain ⟨u, hchild, hu⟩ := at?_cons_eq_some_iff.1 hat
        have hmem : (name, u) ∈ es := OrderedMap.mem_of_lookup hchild
        refine ⟨(name, u), hmem, List.mem_cons_of_mem _ ((ih _ hmem).2 ⟨below, ?_, hu⟩)⟩
        rw [hkey, List.append_assoc]
        rfl

/-- Everything is listed once. -/
theorem nodup_listingFrom (h : t.Distinct) (k : FileKey) :
    ((t.listingFrom k).map Prod.fst).Nodup := by
  induction h generalizing k with
  | file => exact List.nodup_nil
  | @dir es names trees ih =>
    rw [listingFrom_dir, List.map_flatMap, List.nodup_flatMap]
    simp only [List.map_cons]
    have hbelow : ∀ e ∈ es, ∀ key ∈ (e.2.listingFrom (k ++ [e.1])).map Prod.fst,
        ∃ below, below ≠ [] ∧ key = k ++ [e.1] ++ below := by
      intro e he key hkey
      obtain ⟨e', he', rfl⟩ := List.mem_map.1 hkey
      obtain ⟨below, hkey', -⟩ := (mem_listingFrom_iff (trees e he)).1 he'
      exact ⟨below ++ [e'.2.1], by simp, hkey'⟩
    have hstart : ∀ e ∈ es, ∀ key ∈ (k ++ [e.1]) :: (e.2.listingFrom (k ++ [e.1])).map Prod.fst,
        k ++ [e.1] <+: key := by
      intro e he key hkey
      rcases List.mem_cons.1 hkey with rfl | hkey
      · exact List.prefix_refl _
      · obtain ⟨below, -, rfl⟩ := hbelow e he key hkey
        exact List.prefix_append _ _
    -- within one entry the keys below are longer than that of the entry
    constructor
    · intro e he
      rw [List.nodup_cons]
      refine ⟨?_, ih e he _⟩
      intro hmem
      obtain ⟨below, hne, heq⟩ := hbelow e he _ hmem
      exact hne (List.self_eq_append_right.1 heq)
    · -- keys that start with different names are different
      refine (List.pairwise_map.1 names).imp_of_mem fun {e e'} he he' hname key hkey hkey' => ?_
      have hsame := List.prefix_of_prefix_length_le (hstart e he key hkey)
        (hstart e' he' key hkey') (by simp)
      have heq := List.append_cancel_left (hsame.eq_of_length (by simp))
      exact hname (List.singleton_inj.1 heq)

/-- What holds of the names that are listed holds of the names under which something stands. -/
theorem forall_name_of_listing {P : FileName → Prop} (h : t.Distinct)
    (hnames : ∀ e ∈ t.listingFrom [], P e.2.1) {k : FileKey} {s : FileTree}
    (hk : t.at? k = some s) : ∀ name ∈ k, P name := by
  intro name hname
  obtain ⟨a, b, rfl⟩ := List.append_of_mem hname
  rw [List.append_cons, at?_append] at hk
  obtain ⟨u, hu, -⟩ := Option.bind_eq_some_iff.1 hk
  exact hnames (a ++ [name], name, u) ((mem_listingFrom_iff h).2 ⟨a, rfl, hu⟩)

end IconCompiler.FileTree
