import IconCompiler.Proofs.Catalog
import Mathlib.Data.List.Induction

/-!
# First come, first served

A catalog takes the first asset of every component name. Later paths repeat it, or they are refused:
a path that has no text for a file name, and one that stands for another source of a known name.

## Key results

- `ofPaths_of_noneRefused`: without a path that is refused, the first asset of each name
- `ofPaths_of_invalid_path`, `ofPaths_of_duplicate_name`: what the first path that is refused makes
  of the whole
- `ofPaths_first_come`: both of them
-/

namespace IconCompiler

open IconCompiler.Path

/-- Whether a path has a file name that is a text. -/
def Path.hasTextName (p : Path) : Bool :=
  p.fileName?.any fun name => name.text?.isSome

/-- A path has an asset exactly if its file name is a text. -/
private theorem Asset.isSome_ofPath? (root p : Path) : (ofPath? root p).isSome = p.hasTextName := by
  rw [ofPath?, hasTextName]
  cases hname : p.fileName? with
  | none => rfl
  | some name =>
    cases htext : name.text? with
    | none => simp [htext]
    | some filename =>
      have hstem : name.IsText := ⟨filename, FileName.eq_ofChars_of_text? htext⟩
      obtain ⟨id, hid⟩ := hstem.stem.exists_text?
      simp [htext, hid]

namespace Catalog

/-- The assets that come first with their names, in their order. -/
def firstOfEach : List Asset → List Asset
  | [] => []
  | a :: as => a :: (firstOfEach as).filter fun b => b.name ≠ a.name

/-- The assets of paths, as far as they have any. -/
def assetsOf (root : Path) (ps : List Path) : List Asset :=
  ps.filterMap (Asset.ofPath? root)

/-- Whether a path is refused behind others: it has no text for a file name, or one of the others
    has its component name and is another source. -/
def IsRefused (root : Path) (front : List Path) (p : Path) : Prop :=
  p.hasTextName = false ∨
    ∃ a ∈ Asset.ofPath? root p, ∃ b ∈ assetsOf root front, b.name = a.name ∧ b.filepath ≠ a.filepath

instance (root : Path) (front : List Path) (p : Path) : Decidable (IsRefused root front p) :=
  inferInstanceAs (Decidable (_ ∨ _))

/-- Whether none of the paths is refused behind those in front of it. -/
def NoneRefused (root : Path) (ps : List Path) : Prop :=
  ∀ (i : Nat) (h : i < ps.length), ¬IsRefused root (ps.take i) ps[i]

instance (root : Path) (ps : List Path) : Decidable (NoneRefused root ps) :=
  inferInstanceAs (Decidable (∀ (i : Nat) (h : i < ps.length), ¬IsRefused root (ps.take i) ps[i]))

/-! ## The first asset of each name -/

/-- Among the assets that come first, each name finds what it finds among all. -/
private theorem find?_firstOfEach (name : String) (as : List Asset) :
    (firstOfEach as).find? (fun a => a.name = name) = as.find? fun a => a.name = name := by
  induction as with
  | nil => rfl
  | cons a as ih =>
    rw [firstOfEach, List.find?_cons, List.find?_cons]
    cases hname : decide (a.name = name) with
    | true => rfl
    | false =>
      -- the assets that are left out have another name
      have hkeep : decide (name ≠ a.name) = true := by
        simpa using Ne.symm (of_decide_eq_false hname)
      have hrestrict : (restrict ⟨firstOfEach as⟩ fun m => m ≠ a.name).find? name =
          find? ⟨firstOfEach as⟩ name := find?_restrict hkeep _
      exact hrestrict.trans ih

/-- Some asset comes first with the name of an asset. -/
private theorem exists_find?_of_mem {as : List Asset} {a : Asset} (ha : a ∈ as) :
    ∃ b ∈ as, as.find? (fun b => b.name = a.name) = some b ∧ b.name = a.name := by
  have hsome : (as.find? fun b => b.name = a.name).isSome = true :=
    List.find?_isSome.2 ⟨a, ha, decide_eq_true rfl⟩
  obtain ⟨b, hb⟩ := Option.isSome_iff_exists.1 hsome
  exact ⟨b, List.mem_of_find?_eq_some hb, hb, by simpa using List.find?_some hb⟩

/-- An asset behind others comes first if none of them has its name. -/
private theorem firstOfEach_concat (as : List Asset) (a : Asset) : firstOfEach (as ++ [a]) =
    firstOfEach as ++ if (as.find? fun b => b.name = a.name).isSome then [] else [a] := by
  induction as with
  | nil => rfl
  | cons b as ih =>
    rw [List.cons_append, firstOfEach, ih, List.filter_append, firstOfEach, List.cons_append,
      List.find?_cons]
    -- either the head has the name and is found, or it has another one and is kept
    by_cases hname : b.name = a.name
    · rw [decide_eq_true hname]
      split <;> simp [hname]
    · rw [decide_eq_false hname]
      dsimp only
      split <;> simp [Ne.symm hname]

private theorem assetsOf_concat {root p : Path} {a : Asset} (h : Asset.ofPath? root p = some a)
    (ps : List Path) : assetsOf root (ps ++ [p]) = assetsOf root ps ++ [a] := by
  rw [assetsOf, List.filterMap_append]
  simp [h, assetsOf]

/-! ## What is refused -/

section

variable {root p : Path} {ps : List Path} {a : Asset}

/-- None of the paths is refused exactly if none of the front is, nor the last one behind it. -/
private theorem noneRefused_concat :
    NoneRefused root (ps ++ [p]) ↔ NoneRefused root ps ∧ ¬IsRefused root ps p := by
  constructor
  · intro h
    constructor
    · intro i hi
      have hfront := h i (by rw [List.length_append]; omega)
      rwa [List.take_append_of_le_length (Nat.le_of_lt hi), List.getElem_append_left hi] at hfront
    · have hlast := h ps.length (by simp)
      rwa [List.take_left, List.getElem_concat_length rfl] at hlast
  · rintro ⟨hps, hp⟩ i hi
    rw [List.length_append, List.length_singleton] at hi
    rcases Nat.lt_or_ge i ps.length with hlt | hge
    · rw [List.take_append_of_le_length (Nat.le_of_lt hlt), List.getElem_append_left hlt]
      exact hps i hlt
    · obtain rfl : i = ps.length := by omega
      rwa [List.take_left, List.getElem_concat_length rfl]

/-- A path that is not refused has an asset, and the same source as the others of its name. -/
private theorem not_isRefused_iff : ¬IsRefused root ps p ↔
    ∃ a, Asset.ofPath? root p = some a ∧
      ∀ b ∈ assetsOf root ps, b.name = a.name → b.filepath = a.filepath := by
  rw [IsRefused, ← Asset.isSome_ofPath? root p]
  cases Asset.ofPath? root p with
  | none => simp
  | some a => simp

/-- Paths of which none is refused have the same source if they have the same name. -/
private theorem NoneRefused.filepath_eq (h : NoneRefused root ps) : ∀ a ∈ assetsOf root ps,
    ∀ b ∈ assetsOf root ps, a.name = b.name → a.filepath = b.filepath := by
  induction ps using List.reverseRecOn with
  | nil => exact List.forall_mem_nil _
  | append_singleton ps p ih =>
    obtain ⟨hps, hp⟩ := noneRefused_concat.1 h
    obtain ⟨c, hc, hsame⟩ := not_isRefused_iff.1 hp
    rw [assetsOf_concat hc]
    intro a ha b hb hname
    -- two old assets, an old one and the new one either way, or the new one twice
    rcases List.mem_append.1 ha with hold | hnew <;> rcases List.mem_append.1 hb with hold' | hnew'
    · exact ih hps a hold b hold' hname
    · obtain rfl := List.mem_singleton.1 hnew'
      exact hsame a hold hname
    · obtain rfl := List.mem_singleton.1 hnew
      exact (hsame b hold' hname.symm).symm
    · rw [List.mem_singleton.1 hnew, List.mem_singleton.1 hnew']

end

/-! ## Reading the paths -/

variable {root p : Path} {ps : List Path}

/-- Reading paths in two parts goes on from the catalog of the first part. -/
private theorem addPaths_append (root : Path) (c : Catalog) (ps qs : List Path) :
    addPaths root c (ps ++ qs) = (addPaths root c ps).bind fun c' => addPaths root c' qs := by
  induction ps generalizing c with
  | nil => rfl
  | cons p ps ih =>
    rw [List.cons_append, addPaths, addPaths]
    split
    · rfl
    · split
      · rw [ih]
      · rfl

/-- Without a path that is refused, the catalog takes the first asset of each name. -/
theorem ofPaths_of_noneRefused (h : NoneRefused root ps) :
    ofPaths root ps = .ok ⟨firstOfEach (assetsOf root ps)⟩ := by
  induction ps using List.reverseRecOn with
  | nil => rfl
  | append_singleton ps p ih =>
    obtain ⟨hps, hp⟩ := noneRefused_concat.1 h
    obtain ⟨a, ha, hsame⟩ := not_isRefused_iff.1 hp
    have hadd : add ⟨firstOfEach (assetsOf root ps)⟩ a =
        .ok ⟨firstOfEach (assetsOf root ps ++ [a])⟩ := by
      rw [add, find?, find?_firstOfEach, firstOfEach_concat]
      -- a new name adds the asset, and a known one belongs to the same source
      cases hfind : (assetsOf root ps).find? fun b => b.name = a.name with
      | none => rfl
      | some b =>
        have hname : b.name = a.name := by simpa using List.find?_some hfind
        have hpath := hsame b (List.mem_of_find?_eq_some hfind) hname
        dsimp only
        rw [if_pos hpath, Option.isSome_some, if_pos rfl, List.append_nil]
    rw [ofPaths, addPaths_append, ← ofPaths, ih hps, assetsOf_concat ha]
    show addPaths root _ [p] = _
    simp only [addPaths, ha, hadd]

/-- A path in front of others decides, if it is refused behind paths of which none is. -/
private theorem ofPaths_append_cons (hps : NoneRefused root ps) (p : Path) (qs : List Path) :
    ofPaths root (ps ++ p :: qs) =
      addPaths root ⟨firstOfEach (assetsOf root ps)⟩ (p :: qs) := by
  rw [ofPaths, addPaths_append, ← ofPaths, ofPaths_of_noneRefused hps]
  rfl

/-- A path without a text for a file name is refused as it is. -/
theorem ofPaths_of_invalid_path (hps : NoneRefused root ps) (hp : p.hasTextName = false)
    (qs : List Path) : ofPaths root (ps ++ p :: qs) = .error (.invalidPath p) := by
  rw [← Asset.isSome_ofPath? root, Option.isSome_eq_false_iff, Option.isNone_iff_eq_none] at hp
  rw [ofPaths_append_cons hps, addPaths, hp]

/-- Another source of a known name is refused for the first source of that name. -/
theorem ofPaths_of_duplicate_name {a : Asset} (hps : NoneRefused root ps)
    (ha : Asset.ofPath? root p = some a) (hp : IsRefused root ps p) (qs : List Path) :
    ∃ b, (assetsOf root ps).find? (fun b => b.name = a.name) = some b ∧
      ofPaths root (ps ++ p :: qs) =
        .error (.duplicateName a.category a.name a.filename b.filepath) := by
  have hname : p.hasTextName = true := by rw [← Asset.isSome_ofPath? root, ha]; rfl
  obtain ⟨a', ha', b', hb', hsame, hpath⟩ := hp.resolve_left (by simp [hname])
  obtain rfl := Option.some.inj (ha.symm.trans ha')
  obtain ⟨b, hmem, hfind, hfirst⟩ := exists_find?_of_mem hb'
  rw [hsame] at hfind
  -- the first asset of the name is the same source as the one that is in the way
  have hb : b.filepath ≠ a.filepath := by
    rw [hps.filepath_eq b hmem b' hb' hfirst]
    exact hpath
  refine ⟨b, hfind, ?_⟩
  rw [ofPaths_append_cons hps, addPaths, ha]
  simp only [add, find?, find?_firstOfEach, hfind, if_neg hb]

/-- A catalog has the first asset of every name, if no path is refused, and else it fails with the
    first path that is. -/
theorem ofPaths_first_come (root : Path) (ps : List Path) :
    (NoneRefused root ps →
      ∃ c, ofPaths root ps = .ok c ∧
        c.assets = firstOfEach (assetsOf root ps) ∧
        (c.assets.map Asset.name).Nodup ∧
        ∀ p ∈ ps, ∃ a, Asset.ofPath? root p = some a ∧
          ∃ b, c.find? a.name = some b ∧ b.filepath = a.filepath) ∧
    ∀ (i : Nat) (h : i < ps.length),
      NoneRefused root (ps.take i) → IsRefused root (ps.take i) ps[i] →
        (ps[i].hasTextName = false ∧ ofPaths root ps = .error (.invalidPath ps[i])) ∨
        ∃ a b, Asset.ofPath? root ps[i] = some a ∧
          (assetsOf root (ps.take i)).find? (fun b => b.name = a.name) = some b ∧
          ofPaths root ps = .error (.duplicateName a.category a.name a.filename b.filepath) := by
  constructor
  · intro h
    have hcatalog := ofPaths_of_noneRefused h
    refine ⟨_, hcatalog, rfl, nodup_names_ofPaths hcatalog, ?_⟩
    intro p hp
    obtain ⟨i, hi, rfl⟩ := List.mem_iff_getElem.1 hp
    obtain ⟨a, ha, -⟩ := not_isRefused_iff.1 (h i hi)
    have ha' : a ∈ assetsOf root ps := List.mem_filterMap.2 ⟨_, hp, ha⟩
    obtain ⟨b, hb, hfind, hname⟩ := exists_find?_of_mem ha'
    refine ⟨a, ha, b, ?_, h.filepath_eq b hb a ha' hname⟩
    rw [find?, find?_firstOfEach, hfind]
  · intro i hi hfront hrefused
    have hsplit : ps = ps.take i ++ ps[i] :: ps.drop (i + 1) := by
      rw [List.getElem_cons_drop, List.take_append_drop]
    -- a path that is refused has no asset, or one that is another source
    cases ha : Asset.ofPath? root ps[i] with
    | none =>
      have hname : ps[i].hasTextName = false := by rw [← Asset.isSome_ofPath? root, ha]; rfl
      have herror := ofPaths_of_invalid_path hfront hname (ps.drop (i + 1))
      rw [← hsplit] at herror
      exact .inl ⟨hname, herror⟩
    | some a =>
      obtain ⟨b, hb, herror⟩ := ofPaths_of_duplicate_name hfront ha hrefused (ps.drop (i + 1))
      rw [← hsplit] at herror
      exact .inr ⟨a, b, rfl, hb, herror⟩

/-- A source that is found again is listed once, and another one of its name is refused. -/
theorem ofPaths_first_come_repeated :
    let root := Path.ofString "p"
    let found := ["p/s/a/x-y.svg", "p/s/b/z.svg", "p/s/./a/x-y.svg"].map Path.ofString
    let other := Path.ofString "p/s/b/x y.svg"
    (∃ c, ofPaths root found = .ok c ∧ c.assets.map Asset.filepath = ["s/a/x-y.svg", "s/b/z.svg"]) ∧
      ofPaths root (found ++ [other]) =
        .error (.duplicateName "b" "XY" "x y.svg" "s/a/x-y.svg") := by
  intro root found other
  have hnone : NoneRefused root found := by decide +kernel
  obtain ⟨c, hc, hassets, -⟩ := (ofPaths_first_come root found).1 hnone
  refine ⟨⟨c, hc, ?_⟩, ?_⟩
  · rw [hassets]
    decide +kernel
  · have hrefused : IsRefused root found other := by decide +kernel
    have hfirst := (ofPaths_first_come root (found ++ [other])).2 3 (by decide)
      hnone hrefused
    obtain ⟨hname, -⟩ | ⟨a, b, ha, hb, herror⟩ := hfirst
    · exact absurd hname (by decide +kernel)
    · have ha' : Asset.ofPath? root other =
          some ⟨"x y", "XY", "b", "x y.svg", "s/b/x y.svg"⟩ := by decide +kernel
      obtain rfl := Option.some.inj (ha.symm.trans ha')
      have hb' : (assetsOf root found).find? (fun b => b.name = "XY") =
          some ⟨"x-y", "XY", "a", "x-y.svg", "s/a/x-y.svg"⟩ := by decide +kernel
      obtain rfl := Option.some.inj (hb.symm.trans hb')
      exact herror

end Catalog

end IconCompiler
