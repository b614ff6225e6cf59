import IconCompiler.Proofs.Catalog
import IconCompiler.Proofs.Manifest

/-!
# Catalogs with distinct names

The names of a catalog that is built from paths are distinct, because an asset is added only if its
name is new. A manifest is taken as it is: its names are distinct exactly if all of its assets would
have been added. Those that are written of such a catalog are among them.

## Key results

- `addAll_eq_append_iff`: all assets are added exactly if their names are distinct and new
- `nodup_names_iff_isOrderly`: the catalogs with distinct names, by where they come from
- `isOrderly_manifest`: a written manifest keeps names distinct
-/

namespace IconCompiler.Catalog

/-- Adds assets one after another, up to the first that fails. -/
def addAll (c : Catalog) : List Asset → Except BuildError Catalog
  | [] => .ok c
  | a :: as => (c.add a).bind fun c' => c'.addAll as

/-- Where a catalog comes from. -/
inductive Origin where
  /-- The catalog without assets. -/
  | empty
  /-- The catalog of the sources at some paths. -/
  | paths (root : Path) (ps : List Path)
  /-- The catalog that a manifest holds. -/
  | manifest (text : String)

/-- The catalog that comes from somewhere. -/
def Origin.catalog : Origin → Except BuildError Catalog
  | .empty => .ok .empty
  | .paths root ps => ofPaths root ps
  | .manifest text => ofManifest text

/-- Whether a catalog that comes from a manifest could also be put together by adding its assets one
    after another. -/
def Origin.IsOrderly : Origin → Prop
  | .manifest text => ∃ c, ofManifest text = .ok c ∧ addAll .empty c.assets = .ok c
  | _ => True

variable {c c' : Catalog} {as : List Asset}

/-! ## Adding assets -/

private theorem size_concat (c : Catalog) (a : Asset) : size ⟨c.assets ++ [a]⟩ = c.size + 1 :=
  List.length_append

/-- A name is free in a longer catalog if it was free and the new asset has another one. -/
private theorem find?_concat_eq_none_iff {a : Asset} {name : String} :
    find? ⟨c.assets ++ [a]⟩ name = none ↔ c.find? name = none ∧ a.name ≠ name := by
  simp [find?]

/-- Of every asset, one is added at most. -/
private theorem size_le_of_addAll (h : c.addAll as = .ok c') : c'.size ≤ c.size + as.length := by
  induction as generalizing c with
  | nil =>
    cases h
    exact Nat.le_refl _
  | cons a as ih =>
    obtain ⟨c₁, hadd, hrest⟩ := ok_of_bind h
    have hsize := ih hrest
    rw [List.length_cons]
    -- an asset is added at the end, or not at all
    rcases add_eq_ok hadd with ⟨-, rfl⟩ | ⟨-, rfl⟩
    · rw [size_concat] at hsize
      omega
    · omega

/-- All assets are added at the end exactly if their names are distinct and new. -/
theorem addAll_eq_append_iff : c.addAll as = .ok ⟨c.assets ++ as⟩ ↔
    (as.map Asset.name).Nodup ∧ ∀ a ∈ as, c.find? a.name = none := by
  -- over the assets, each added to the catalog that the ones before it have made
  induction as generalizing c with
  | nil => simp [addAll]
  | cons a as ih =>
    have happend : c.assets ++ a :: as = c.assets ++ [a] ++ as := by simp
    rw [happend, List.map_cons, List.nodup_cons, List.forall_mem_cons]
    constructor
    · intro h
      obtain ⟨c₁, hadd, hrest⟩ := ok_of_bind h
      rcases add_eq_ok hadd with ⟨hnew, rfl⟩ | ⟨-, rfl⟩
      · obtain ⟨hnodup, hrest⟩ := ih.1 hrest
        refine ⟨⟨?_, hnodup⟩, hnew, fun b hb => (find?_concat_eq_none_iff.1 (hrest b hb)).1⟩
        intro hmem
        obtain ⟨b, hb, hname⟩ := List.mem_map.1 hmem
        exact (find?_concat_eq_none_iff.1 (hrest b hb)).2 hname.symm
      · -- one asset too few is left to be added
        have hsize := size_le_of_addAll hrest
        rw [size, List.length_append, ← size, size_concat] at hsize
        omega
    · rintro ⟨⟨hname, hnodup⟩, hnew, hrest⟩
      -- a new name is added, and none of those to come is the same
      have hadd : c.add a = .ok ⟨c.assets ++ [a]⟩ := by rw [add, hnew]
      rw [addAll, hadd]
      refine ih.2 ⟨hnodup, fun b hb => find?_concat_eq_none_iff.2 ⟨hrest b hb, ?_⟩⟩
      intro hsame
      exact hname (hsame ▸ List.mem_map_of_mem hb)

/-- The assets of a catalog can be added one after another exactly if their names are distinct. -/
private theorem addAll_empty_iff :
    addAll .empty c.assets = .ok c ↔ (c.assets.map Asset.name).Nodup :=
  addAll_eq_append_iff.trans (and_iff_left fun _ _ => rfl)

/-! ## Origins -/

/-- The names of a catalog are distinct, unless it comes from a manifest whose assets could not be
    added one after another. -/
theorem nodup_names_iff_isOrderly {o : Origin} (h : o.catalog = .ok c) :
    (c.assets.map Asset.name).Nodup ↔ o.IsOrderly := by
  -- only a manifest can bring names that were not checked
  cases o with
  | empty =>
    cases h
    exact iff_of_true List.nodup_nil trivial
  | paths root ps => exact iff_of_true (nodup_names_ofPaths h) trivial
  | manifest text =>
    have htext : ofManifest text = .ok c := h
    -- the catalog of the manifest is the one that would be put together
    rw [← addAll_empty_iff, Origin.IsOrderly, htext]
    constructor
    · exact fun hadd => ⟨c, rfl, hadd⟩
    · rintro ⟨c', hc', hadd⟩
      cases hc'
      exact hadd

/-- A catalog comes from the manifest that is written of it. -/
private theorem Origin.catalog_manifest (c : Catalog) : (manifest c.manifest).catalog = .ok c := by
  show ofManifest c.manifest = .ok c
  rw [ofManifest, run_manifest]

theorem isOrderly_manifest (h : (c.assets.map Asset.name).Nodup) :
    (Origin.manifest c.manifest).IsOrderly :=
  ⟨c, Origin.catalog_manifest c, addAll_empty_iff.2 h⟩

/-- A catalog with two names is read from its manifest. -/
theorem nodup_names_iff_isOrderly_two_names :
    let c : Catalog := ⟨[⟨"home", "Home", "a", "home.svg", "source/a/home.svg"⟩,
      ⟨"gear", "Gear", "b", "gear.svg", "source/b/gear.svg"⟩]⟩
    let o := Origin.manifest c.manifest
    o.catalog = .ok c ∧ (c.assets.map Asset.name).Nodup ∧
      ((c.assets.map Asset.name).Nodup ↔ o.IsOrderly) := by
  intro c o
  have hcatalog : o.catalog = .ok c := Origin.catalog_manifest c
  exact ⟨hcatalog, by decide, nodup_names_iff_isOrderly hcatalog⟩

/-- A manifest can give two sources the same name. -/
theorem not_nodup_names_of_manifest :
    let text :=
      "[\n  \x7b\n    \"id\": \"home\",\n    \"name\": \"Home\",\n    \"category\": \"a\",\n" ++
      "    \"filename\": \"home.svg\",\n    \"filepath\": \"source/a/home.svg\"\n  \x7d,\n" ++
      "  \x7b\n    \"id\": \"home\",\n    \"name\": \"Home\",\n    \"category\": \"b\",\n" ++
      "    \"filename\": \"home.svg\",\n    \"filepath\": \"source/b/home.svg\"\n  \x7d\n]"
    ∃ c, (Origin.manifest text).catalog = .ok c ∧ ¬(c.assets.map Asset.name).Nodup := by
  intro text
  let c : Catalog := ⟨[⟨"home", "Home", "a", "home.svg", "source/a/home.svg"⟩,
    ⟨"home", "Home", "b", "home.svg", "source/b/home.svg"⟩]⟩
  have htext : text = c.manifest := by decide +kernel
  refine ⟨c, ?_, by decide⟩
  rw [htext]
  exact Origin.catalog_manifest c

end IconCompiler.Catalog
