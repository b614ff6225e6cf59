import IconCompiler.Catalog
import IconCompiler.Proofs.Json.Records

/-!
# Manifests that are written and read

A manifest is a list of records whose fields are texts, one on each line. Lists and records are
written alike: every part has the same white space in front, and a comma stands before it unless it
is the first one. What is written this way is what the readers take.

## Key results

- `toList_manifest`: the manifest as a list of records
- `takes_record_assetText`: an asset is read back
- `ofManifest_manifest`: a catalog is read back
-/

namespace IconCompiler

open Json Json.Reader

/-! ## The text of a manifest -/

/-- A field of a record as it is written, without what stands in front. -/
def entryText (e : String × String) : List Char :=
  quote e.1 ++ [':', ' '] ++ quote e.2

/-- An asset as it is written, without what stands in front. -/
def assetText (a : Asset) : List Char :=
  '{' :: (elementsText entryText "\n    ".toList true a.entries ++ "\n  ".toList ++ ['}'])

/-- Parts on lines of their own, with commas between them. -/
private theorem elementsText_eq_intercalate {α : Type} (write : α → List Char) (indent : List Char)
    {as : List α} (has : as ≠ []) : elementsText write ('\n' :: indent) true as =
      '\n' :: [',', '\n'].intercalate (as.map fun a => indent ++ write a) := by
  match as with
  | [a] => simp [elementsText, separator]
  | a :: b :: bs =>
    have ih := elementsText_eq_intercalate write indent (List.cons_ne_nil b bs)
    have hcomma : elementsText write ('\n' :: indent) false (b :: bs) =
        ',' :: elementsText write ('\n' :: indent) true (b :: bs) := rfl
    rw [elementsText, hcomma, ih]
    simp [separator]

/-- The record of an asset is written as a list of fields, indented by two. -/
theorem renderAsset_eq (a : Asset) : Catalog.renderAsset a = "  ".toList ++ assetText a := by
  have hentry : Catalog.renderEntry = fun e => "    ".toList ++ entryText e := by
    funext e
    delta Catalog.renderEntry entryText
    simp only [List.append_assoc]
  have hentries : elementsText entryText "\n    ".toList true a.entries =
      '\n' :: [',', '\n'].intercalate (a.entries.map fun e => "    ".toList ++ entryText e) :=
    elementsText_eq_intercalate entryText "    ".toList (List.cons_ne_nil _ _)
  -- definitions with texts in them are opened as they are: their equations are slow to derive
  delta Catalog.renderAsset assetText
  rw [hentry, hentries]
  generalize [',', '\n'].intercalate (a.entries.map fun e => "    ".toList ++ entryText e) = body
  show ' ' :: ' ' :: '{' :: '\n' :: (body ++ "\n  \x7d".toList) =
    ' ' :: ' ' :: '{' :: '\n' :: (body ++ "\n  ".toList ++ ['}'])
  rw [List.append_assoc]
  rfl

/-- The manifest of a catalog that has assets. -/
theorem toList_manifest {c : Catalog} (hassets : c.assets ≠ []) : c.manifest.toList =
    '[' :: (elementsText assetText "\n  ".toList true c.assets ++ ['\n'] ++ [']']) := by
  have hrender : Catalog.renderAsset = fun a => "  ".toList ++ assetText a :=
    funext renderAsset_eq
  have hlist : elementsText assetText "\n  ".toList true c.assets =
      '\n' :: [',', '\n'].intercalate (c.assets.map fun a => "  ".toList ++ assetText a) :=
    elementsText_eq_intercalate assetText "  ".toList hassets
  rw [Catalog.manifest, if_neg (by simpa using hassets), String.toList_ofList, hlist, hrender]
  simp only [List.append_assoc, List.cons_append, List.nil_append]

/-! ## Reading it -/

private theorem isSpaces_toList {s : String} (h : (s.toList.all isSpace) = true) :
    IsSpaces s.toList :=
  List.all_eq_true.1 h

variable {ρ : Type}

/-- A text, after the space behind its key, of which a record is made. -/
private theorem takes_text (expected : String) (s : String) (f : String → ρ) (rest : List Char) :
    Takes (string expected >>= fun s => pure (f s)) (' ' :: quote s) rest (f s) := by
  refine (takes_string expected (isSpaces_toList (s := " ") rfl) s rest).bind_last ?_
  exact takes_pure (f s) rest

/-- A field that is a text, and the fields behind it. -/
private theorem takes_objectFields_text {size keys : Nat} {fields : List (RecordField ρ)}
    {first : Bool} {indent last rest : List Char} {e : String × String}
    {es : List (String × String)} {field : RecordField ρ} {expected : String} {f : String → ρ}
    {r r' : ρ} (hindent : IsSpaces indent)
    (hfield : fields.find? (fun f => f.name = e.1) = some field) (hset : field.isSet r = false)
    (hread : field.read r = string expected >>= fun s => pure (f s))
    (hrest : Takes (objectFields size fields false (f e.2) keys)
      (elementsText entryText indent false es ++ last) rest r') :
    Takes (objectFields size fields first r (keys + 1))
      (elementsText entryText indent first (e :: es) ++ last) rest r' := by
  have htext : elementsText entryText indent first (e :: es) ++ last =
      separator first indent ++ (quote e.1 ++ (':' :: ((' ' :: quote e.2) ++
        (elementsText entryText indent false es ++ last)))) := by
    simp only [elementsText, entryText, List.append_assoc, List.cons_append, List.nil_append]
  rw [htext]
  refine takes_objectFields_cons hindent hfield hset ?_ hrest
  rw [hread]
  exact takes_text expected e.2 f _

/-- All fields of an asset. -/
def Asset.Fields.ofAsset (a : Asset) : Asset.Fields :=
  ⟨a.id, a.name, a.category, a.filename, a.filepath⟩

/-- The fields of an asset are read back one after another. -/
private theorem takes_fields (a : Asset) (size keys : Nat) (rest : List Char) :
    Takes (objectFields size Asset.fields true .none (keys + 6))
      (elementsText entryText "\n    ".toList true a.entries ++ "\n  ".toList) ('}' :: rest)
      (.ofAsset a) := by
  have hindent : IsSpaces "\n    ".toList := isSpaces_toList rfl
  have hlast : IsSpaces "\n  ".toList := isSpaces_toList rfl
  -- one step for each of the five fields, and then the end of the record
  refine takes_objectFields_text hindent rfl rfl rfl ?_
  refine takes_objectFields_text hindent rfl rfl rfl ?_
  refine takes_objectFields_text hindent rfl rfl rfl ?_
  refine takes_objectFields_text hindent rfl rfl rfl ?_
  refine takes_objectFields_text hindent rfl rfl rfl ?_
  exact takes_objectFields_nil _ hlast rest

/-- An asset is read back, in a text that is long enough for its fields. -/
theorem takes_record_assetText (a : Asset) {size : Nat} (hsize : 5 ≤ size) (rest : List Char) :
    Takes (record size Asset.format) (assetText a) rest a := by
  obtain ⟨keys, rfl⟩ := Nat.exists_eq_add_of_le' hsize
  exact takes_record (takes_fields a (keys + 5) keys _) rfl

/-- A written asset has at least as many characters as fields. -/
private theorem le_length_assetText (a : Asset) : 5 ≤ (assetText a).length := by
  have hentry : ∀ e, 1 ≤ (entryText e).length := by
    intro e
    rw [entryText, quote]
    exact Nat.succ_pos _
  have hentries := le_length_elementsText hentry "\n    ".toList true a.entries
  have hfive : a.entries.length = 5 := rfl
  delta assetText
  rw [List.length_cons, List.length_append, List.length_append]
  omega

/-- A manifest is long enough for the fields of its assets, and for the assets. -/
private theorem le_length_manifest {c : Catalog} (hassets : c.assets ≠ []) :
    5 ≤ c.manifest.length ∧ c.assets.length ≤ c.manifest.length := by
  have hlist := le_length_elementsText le_length_assetText "\n  ".toList true c.assets
  have hpos := List.length_pos_iff.2 hassets
  rw [← String.length_toList, toList_manifest hassets, List.length_cons, List.length_append,
    List.length_append]
  omega

/-- A manifest is read back as the assets it was written of, within the room that its text gives. -/
theorem run_manifest (c : Catalog) :
    run (fun size => .list size (.record size Asset.format)) c.manifest = .ok c.assets := by
  have hopen : ∀ a, ∃ d text, assetText a = d :: text ∧ isSpace d = false ∧ d ≠ ']' :=
    fun a => ⟨'{', _, rfl, rfl, by decide⟩
  apply run_eq_ok
  by_cases hassets : c.assets = []
  · -- without assets the two brackets stand next to each other
    have hmanifest : c.manifest = "[]" := by rw [Catalog.manifest, hassets]; rfl
    rw [hmanifest, hassets]
    exact takes_list (List.forall_mem_nil _) (List.forall_mem_nil _) hopen (List.forall_mem_nil _)
      (Nat.zero_le _) []
  · obtain ⟨hfields, hsize⟩ := le_length_manifest hassets
    rw [toList_manifest hassets]
    exact takes_list (isSpaces_toList rfl) (isSpaces_toList (s := "\n") rfl) hopen
      (fun a _ rest => takes_record_assetText a hfields rest) hsize []

/-- Reading a manifest undoes writing it: the catalog is read back with the same assets in the same
    order. -/
theorem ofManifest_manifest (c : Catalog) : Catalog.ofManifest c.manifest = .ok c := by
  rw [Catalog.ofManifest, run_manifest]

end IconCompiler
