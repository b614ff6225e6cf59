import IconCompiler.Proofs.Build.WriteDiscipline
import IconCompiler.Proofs.Catalog
import IconCompiler.Proofs.FileSystem.Joining

/-!
# Where the outputs of a run lie

Every asset that is rendered gets a directory of its own, named after it, inside that of the output.
Names are distinct and hold no slash, so the files of a run lie apart and inside, and keep their
texts, as long as the names are those of entries. The empty name and the single dot stand for the
directory of the output itself, where the index of the asset is then replaced by that of the
package; the double dot leads out of it.

## Key results

- `pairwise_apart_allWrites`: with names of entries, all files lie apart
- `not_separate_of_not_isEntryName`: with any other name they do not
- `separate_outputs_iff`: what a successful run leaves
-/

namespace IconCompiler

open IconCompiler.Path FileSystem Build

/-! ## Keys of outputs -/

/-- The name of a file or directory with a text. -/
def nameOf (s : String) : FileName :=
  .ofChars s.toList

/-- Whether a name is that of an entry in any directory, rather than a way of writing the directory
    itself or the one above it. -/
def IsEntryName (name : String) : Prop :=
  name ≠ "" ∧ name ≠ "." ∧ name ≠ ".."

instance (name : String) : Decidable (IsEntryName name) :=
  inferInstanceAs (Decidable (_ ∧ _ ∧ _))

/-- Different texts are different names. -/
private theorem nameOf_injective {s t : String} (h : nameOf s = nameOf t) : s = t := by
  have htext := congrArg FileName.display h
  rw [nameOf, nameOf, FileName.display_ofChars, FileName.display_ofChars] at htext
  exact String.toList_injective htext

/-- A name with an extension is that of an entry, whatever stands before the extension. -/
private theorem isEntryName_append_tsx (name : String) : IsEntryName (name ++ ".tsx") := by
  have hlength : 4 ≤ (name ++ ".tsx").length := by
    rw [String.length_append]
    exact Nat.le_add_left _ _
  refine ⟨?_, ?_, ?_⟩ <;>
  · intro h
    rw [h] at hlength
    exact absurd hlength (by decide)

/-- No component file is called like the index beside it. -/
private theorem append_tsx_ne_index (name : String) : name ++ ".tsx" ≠ "index.ts" := by
  intro h
  have hlast := congrArg (fun s => s.toList.getLast?) h
  simp [String.toList_append, List.getLast?_append] at hlast

/-- The extension brings no slash into a name. -/
private theorem slash_not_mem_append_tsx {name : String} (h : '/' ∉ name.toList) :
    '/' ∉ (name ++ ".tsx").toList := by
  rw [String.toList_append, List.mem_append]
  rintro (hname | hext)
  · exact h hname
  · exact absurd hext (by decide)

/-- The name of an entry leads into the directory, to what has this name there. -/
private theorem keyAfter_nameOf {name : String} (h : IsEntryName name) (dir : FileKey) :
    keyAfter dir (nameOf name) = dir ++ [nameOf name] := by
  have hne : ∀ s, name ≠ s → nameOf name ≠ nameOf s := fun s hs heq => hs (nameOf_injective heq)
  -- neither of the two special names is meant, and the name is not empty
  rw [keyAfter, if_neg, if_neg (show nameOf name ≠ FileName.dotDot from hne ".." h.2.2)]
  rw [isVoid, Bool.or_eq_true, decide_eq_true_eq, decide_eq_true_eq]
  rintro (hempty | hdot)
  · exact hne "" h.1 hempty
  · exact hne "." h.2.1 hdot

variable {fs : FileSystem}

/-- A text without slashes leads on from a directory. -/
private theorem key_of_join {p : Path} {dir k : FileKey} {name : String} (hdir : fs.LeadsTo p dir)
    (hname : '/' ∉ name.toList) (h : fs.LeadsTo (p.join (.ofString name)) k) :
    k = keyAfter dir (nameOf name) := by
  obtain ⟨dir', hdir', -, rfl⟩ := h.exists_of_join (FileName.slash_not_mem_ofChars hname)
  rw [hdir.unique hdir']
  rfl

/-- The key of a file in the directory of an asset. -/
private theorem key_of_output {out : Path} {outKey k : FileKey} {name file : String}
    (hout : fs.LeadsTo out outKey) (hname : '/' ∉ name.toList) (hfile : '/' ∉ file.toList)
    (hentry : IsEntryName file)
    (h : fs.LeadsTo ((out.join (.ofString name)).join (.ofString file)) k) :
    k = keyAfter outKey (nameOf name) ++ [nameOf file] := by
  obtain ⟨dir, hdir, -, -⟩ := h.exists_of_join (FileName.slash_not_mem_ofChars hfile)
  rw [key_of_join hdir hfile h, keyAfter_nameOf hentry, key_of_join hout hname hdir]

/-! ## Names of what is rendered -/

/-- What is rendered has the name of its asset. -/
private theorem name_of_renderAsset {root : Path} {a : Asset} {viewBox : String}
    {cleaner : Markup.Cleaner} {r : Rendered}
    (h : renderAsset fs root a viewBox cleaner = .ok r) : r.name = a.name := by
  unfold renderAsset at h
  split at h
  · cases h
  · split at h
    · cases h
    · rw [← Except.ok.inj h]

/-- What names have to be for the outputs of different assets to lie apart, whatever else. -/
structure ProperNames (results : List (Except BuildError Rendered)) : Prop where
  no_slash : ∀ r, .ok r ∈ results → '/' ∉ r.name.toList
  distinct : results.Pairwise fun x y => ∀ r r', x = .ok r → y = .ok r' → r.name ≠ r'.name

/-- What is rendered for the assets of a catalog has proper names. -/
private theorem properNames_renderCatalog {config : Config} {fs₀ : FileSystem} {catalog : Catalog}
    (hcatalog : catalogOf fs₀ config = .ok catalog) (cleaner : Markup.Cleaner) :
    ProperNames (renderCatalog fs config catalog cleaner) := by
  obtain ⟨paths, -, hpaths⟩ := ok_of_bind hcatalog
  -- base names hold no slash, and the names of a catalog are distinct
  constructor
  · intro r hr
    obtain ⟨a, ha, hrender⟩ := List.mem_map.1 hr
    obtain ⟨p, -, hp⟩ := Catalog.exists_path_of_mem_ofPaths hpaths a ha
    rw [name_of_renderAsset hrender]
    exact Asset.slash_not_mem_name hp
  · refine List.pairwise_map.2 ((List.pairwise_map.1 (Catalog.nodup_names_ofPaths hpaths)).imp ?_)
    intro a b hab r r' hr hr'
    rw [name_of_renderAsset hr, name_of_renderAsset hr']
    exact hab

/-- The names of what was rendered are those of the results that are no errors. -/
private theorem mem_renderedNames {results : List (Except BuildError Rendered)} {name : String} :
    name ∈ renderedNames results ↔ ∃ r, .ok r ∈ results ∧ r.name = name := by
  rw [renderedNames, List.mem_filterMap]
  constructor
  · rintro ⟨x, hx, hname⟩
    obtain ⟨r, hr, rfl⟩ := Option.map_eq_some_iff.1 hname
    rw [ok_of_toOption hr] at hx
    exact ⟨r, hx, rfl⟩
  · rintro ⟨r, hr, rfl⟩
    exact ⟨.ok r, hr, rfl⟩

/-! ## Files that lie apart -/

section

variable {config : Config} {catalog : Catalog} {results : List (Except BuildError Rendered)}
  {outKey : FileKey}

/-- The manifest lies in the directory of the output. -/
private theorem key_of_manifest (hmanifest : config.manifest = "db.json")
    (hout : fs.LeadsTo config.outPath outKey) {k : FileKey}
    (h : fs.Names config.manifestPath k) : k = outKey ++ [nameOf "db.json"] := by
  rw [Config.manifestPath, hmanifest] at h
  rw [key_of_join hout (by decide) (names_iff.1 h).2, keyAfter_nameOf (by decide)]

/-- The index of the package lies in the directory of the output. -/
private theorem key_of_packageIndex (hout : fs.LeadsTo config.outPath outKey) {k : FileKey}
    (h : fs.Names (config.outPath.join indexFile) k) : k = outKey ++ [nameOf "index.ts"] := by
  rw [key_of_join hout (by decide) (names_iff.1 h).2, keyAfter_nameOf (by decide)]

/-- The component of an asset lies where the name of the asset leads from the output. -/
private theorem key_of_component {r : Rendered} (hname : '/' ∉ r.name.toList)
    (hout : fs.LeadsTo config.outPath outKey) {k : FileKey}
    (h : fs.Names (componentPath config.outPath r.name) k) :
    k = keyAfter outKey (nameOf r.name) ++ [nameOf (r.name ++ ".tsx")] :=
  key_of_output hout hname (slash_not_mem_append_tsx hname) (isEntryName_append_tsx _)
    (names_iff.1 h).2

/-- The index of an asset lies beside its component. -/
private theorem key_of_index {r : Rendered} (hname : '/' ∉ r.name.toList)
    (hout : fs.LeadsTo config.outPath outKey) {k : FileKey}
    (h : fs.Names (indexPath config.outPath r.name) k) :
    k = keyAfter outKey (nameOf r.name) ++ [nameOf "index.ts"] :=
  key_of_output hout hname (by decide) (by decide) (names_iff.1 h).2

/-- The files of an asset whose name is that of an entry lie in its own directory. -/
private theorem key_of_mem_outputs {x : Except BuildError Rendered}
    (hname : ∀ r, x = .ok r → '/' ∉ r.name.toList ∧ IsEntryName r.name)
    (hout : fs.LeadsTo config.outPath outKey) {w : Path × String}
    (hw : w ∈ outputs config.outPath x) {k : FileKey} (h : fs.Names w.1 k) :
    ∃ r file, x = .ok r ∧ k = outKey ++ [nameOf r.name, file] := by
  cases x with
  | error e => cases hw
  | ok r =>
    obtain ⟨hslash, hentry⟩ := hname r rfl
    have hdir : keyAfter outKey (nameOf r.name) = outKey ++ [nameOf r.name] :=
      keyAfter_nameOf hentry outKey
    simp only [outputs, List.mem_cons, List.not_mem_nil, or_false] at hw
    rcases hw with rfl | rfl
    · refine ⟨r, nameOf (r.name ++ ".tsx"), rfl, ?_⟩
      rw [key_of_component hslash hout h, hdir, List.append_assoc]
      rfl
    · refine ⟨r, nameOf "index.ts", rfl, ?_⟩
      rw [key_of_index hslash hout h, hdir, List.append_assoc]
      rfl

/-- If the names are those of entries, all files of a run lie apart. -/
theorem pairwise_apart_allWrites (hmanifest : config.manifest = "db.json")
    (hnames : ProperNames results) (hentry : ∀ name ∈ renderedNames results, IsEntryName name)
    (hout : fs.LeadsTo config.outPath outKey) :
    (allWrites config catalog results).Pairwise (Apart fs) := by
  have houtputs : ∀ x ∈ results, ∀ w ∈ outputs config.outPath x, ∀ k, fs.Names w.1 k →
      ∃ r file, x = .ok r ∧ k = outKey ++ [nameOf r.name, file] := by
    intro x hx w hw k hk
    refine key_of_mem_outputs ?_ hout hw hk
    rintro r rfl
    exact ⟨hnames.no_slash r hx, hentry _ (mem_renderedNames.2 ⟨r, hx, rfl⟩)⟩
  refine List.pairwise_cons.2 ⟨?_, List.pairwise_append.2
    ⟨List.pairwise_flatMap.2 ⟨?_, ?_⟩, List.pairwise_singleton _ _, ?_⟩⟩
  · -- the manifest and anything else
    intro w hw k hk hwk
    rw [key_of_manifest hmanifest hout hk] at hwk
    rcases List.mem_append.1 hw with hw | hw
    · obtain ⟨x, hx, hw⟩ := List.mem_flatMap.1 hw
      obtain ⟨r, file, -, heq⟩ := houtputs x hx w hw _ hwk
      cases (List.cons.inj (List.append_cancel_left heq)).2
    · obtain rfl := List.mem_singleton.1 hw
      have heq := List.append_cancel_left (key_of_packageIndex hout hwk)
      exact absurd heq (by decide)
  · -- the two files of one asset
    intro x hx
    cases x with
    | error e => exact .nil
    | ok r =>
      apply List.pairwise_pair.2
      intro k hk hwk
      have hslash := hnames.no_slash r hx
      rw [key_of_component hslash hout hk] at hwk
      have heq := List.append_cancel_left (key_of_index hslash hout hwk)
      exact append_tsx_ne_index r.name (nameOf_injective (List.cons.inj heq).1)
  · -- files of different assets
    apply hnames.distinct.imp_of_mem
    intro x y hx hy hxy v hv w hw k hk hwk
    obtain ⟨r, file, rfl, rfl⟩ := houtputs x hx v hv k hk
    obtain ⟨r', file', rfl, heq⟩ := houtputs y hy w hw _ hwk
    have hname := (List.cons.inj (List.append_cancel_left heq)).1
    exact hxy r r' rfl rfl (nameOf_injective hname)
  · -- a file of an asset and the index of the package
    intro v hv w hw k hk hwk
    obtain rfl := List.mem_singleton.1 hw
    obtain ⟨x, hx, hv⟩ := List.mem_flatMap.1 hv
    obtain ⟨r, file, -, rfl⟩ := houtputs x hx v hv k hk
    cases (List.cons.inj (List.append_cancel_left (key_of_packageIndex hout hwk))).2

/-- If the names are those of entries, all files of a run lie inside its output. -/
private theorem prefix_of_mem_allWrites (hmanifest : config.manifest = "db.json")
    (hnames : ProperNames results) (hentry : ∀ name ∈ renderedNames results, IsEntryName name)
    (hout : fs.LeadsTo config.outPath outKey) {w : Path × String}
    (hw : w ∈ allWrites config catalog results) {k : FileKey} (hk : fs.Names w.1 k) :
    outKey <+: k := by
  rcases List.mem_cons.1 hw with rfl | hw
  · rw [key_of_manifest hmanifest hout hk]
    exact List.prefix_append _ _
  · rcases List.mem_append.1 hw with hw | hw
    · obtain ⟨x, hx, hw⟩ := List.mem_flatMap.1 hw
      obtain ⟨r, file, -, rfl⟩ := key_of_mem_outputs (x := x) (fun r hr => by
        subst hr
        exact ⟨hnames.no_slash r hx, hentry _ (mem_renderedNames.2 ⟨r, hx, rfl⟩)⟩) hout hw hk
      exact List.prefix_append _ _
    · obtain rfl := List.mem_singleton.1 hw
      rw [key_of_packageIndex hout hk]
      exact List.prefix_append _ _

end

/-! ## What a successful run leaves -/

/-- Whether writes went to different files, all inside a directory, and each file holds the text
    that was written to it. -/
structure Separate (fs : FileSystem) (out : Path) (ws : List (Path × String)) : Prop where
  apart : ws.Pairwise (Apart fs)
  inside : ∃ outKey, fs.LeadsTo out outKey ∧ ∀ w ∈ ws, ∃ k, fs.Names w.1 k ∧ outKey <+: k
  holds : ∀ w ∈ ws, fs.readBytes w.1 = .ok w.2.toUTF8

section

variable {config : Config} {catalog : Catalog} {results : List (Except BuildError Rendered)}
  {s₀ s : Session}

/-- The output of a run leads to a directory, since its manifest lies there. -/
private theorem exists_outKey (hmanifest : config.manifest = "db.json")
    (hlog : Logs s₀ (allWrites config catalog results) s) :
    ∃ outKey, s.files.LeadsTo config.outPath outKey ∧ s.files.IsDirAt outKey := by
  obtain ⟨k, hk, -⟩ := hlog.exists_file List.mem_cons_self
  rw [Config.manifestPath, hmanifest] at hk
  obtain ⟨outKey, hout, hdir, -⟩ := LeadsTo.exists_of_join
    (FileName.slash_not_mem_ofChars (by decide)) (names_iff.1 hk).2
  exact ⟨outKey, hout, hdir⟩

/-- With names of entries the files of a successful run are separate. -/
private theorem separate_of_isEntryName (hmanifest : config.manifest = "db.json")
    (hnames : ProperNames results) (hentry : ∀ name ∈ renderedNames results, IsEntryName name)
    (hlog : Logs s₀ (allWrites config catalog results) s) :
    Separate s.files config.outPath (allWrites config catalog results) := by
  obtain ⟨outKey, hout, -⟩ := exists_outKey hmanifest hlog
  have hapart : (allWrites config catalog results).Pairwise (Apart s.files) :=
    pairwise_apart_allWrites hmanifest hnames hentry hout
  refine ⟨hapart, ⟨outKey, hout, ?_⟩, ?_⟩
  · -- what is written names a file, and a file of the run lies inside
    intro w hw
    obtain ⟨k, hk, -⟩ := hlog.exists_file hw
    exact ⟨k, hk, prefix_of_mem_allWrites hmanifest hnames hentry hout hw hk⟩
  · intro w hw
    obtain ⟨k, hk, hcontent⟩ := hlog.holds_of_apart hapart hw
    exact readBytes_of_names hk hcontent

/-- With any other name the index of the asset takes the place of that of the package, or lies
    outside. -/
theorem not_separate_of_not_isEntryName (hmanifest : config.manifest = "db.json")
    (hnames : ProperNames results) {name : String} (hname : name ∈ renderedNames results)
    (hentry : ¬IsEntryName name) (hlog : Logs s₀ (allWrites config catalog results) s) :
    ¬Separate s.files config.outPath (allWrites config catalog results) := by
  intro hseparate
  obtain ⟨r, hr, rfl⟩ := mem_renderedNames.1 hname
  obtain ⟨outKey, hout, hdir⟩ := exists_outKey hmanifest hlog
  -- the index of the asset, and that of the package
  have hown : (indexPath config.outPath r.name, r.index) ∈
      results.flatMap (outputs config.outPath) :=
    List.mem_flatMap.2 ⟨.ok r, hr, by simp [outputs]⟩
  obtain ⟨k, hk, hfile⟩ := hlog.exists_file
    (List.mem_cons_of_mem _ (List.mem_append_left _ hown))
  obtain ⟨k', hk', -⟩ := hlog.exists_file
    (List.mem_cons_of_mem _ (List.mem_append_right _ (List.mem_singleton_self _)))
  have hkey := key_of_index (hnames.no_slash r hr) hout hk
  have hkey' := key_of_packageIndex hout hk'
  have hdifferent : k ≠ k' := by
    rintro rfl
    have hcross := (List.pairwise_append.1 (List.pairwise_cons.1 hseparate.apart).2).2.2
    exact hcross _ hown _ (List.mem_singleton_self _) k hk hk'
  have hcases : r.name = "" ∨ r.name = "." ∨ r.name = ".." := by
    simpa only [IsEntryName, ne_eq, not_and_or, not_not] using hentry
  rcases hcases with hname | hname | hname
  · -- the empty name and the single dot lead back to the directory of the output
    exact hdifferent (by rw [hkey, hkey', hname]; rfl)
  · exact hdifferent (by rw [hkey, hkey', hname]; rfl)
  · -- the index lies above the directory of the output, which is no file itself
    have hup : k = outKey.dropLast ++ [nameOf "index.ts"] := by
      rw [hkey, hname]
      rfl
    obtain ⟨outKey', hout', hinside⟩ := hseparate.inside
    obtain ⟨k'', hk'', hpre⟩ := hinside _ (List.mem_cons_of_mem _ (List.mem_append_left _ hown))
    rw [hout'.unique hout, hk''.unique hk, hup] at hpre
    by_cases hroot : outKey = []
    · -- nothing is above the root, where both indexes are one file
      exact hdifferent (by rw [hup, hkey', hroot]; rfl)
    · obtain ⟨above, last, rfl⟩ : ∃ above last, outKey = above ++ [last] :=
        ⟨_, _, (List.dropLast_concat_getLast hroot).symm⟩
      rw [List.dropLast_concat] at hpre hup
      obtain rfl : last = nameOf "index.ts" := by
        simpa using (List.prefix_append_right_inj above).1 hpre
      rw [hup, fileAt?_of_isDirAt hdir] at hfile
      cases hfile

end

/-- A successful run has performed all writes. -/
private theorem logs_of_run {fs : FileSystem} {config : Config} {report : Report} {s : Session}
    (hrun : exec (run config) fs = (.ok report, s)) :
    catalogOf fs config = .ok report.catalog ∧ report.written = s.written ∧
      Logs ⟨fs, []⟩ (allWrites config report.catalog
        (resultsOf fs config (cleanerOf config) report.catalog)) s := by
  obtain ⟨hcatalog, hwritten, -, hlog⟩ := logs_of_runWith hrun
  exact ⟨hcatalog, hwritten, hlog⟩

/-- What a successful run leaves: its files lie apart, inside the output, with their texts, exactly
    if the name of every asset that was written is that of an entry. -/
theorem separate_outputs_iff {fs : FileSystem} {config : Config} {report : Report} {s : Session}
    (hmanifest : config.manifest = "db.json")
    (hrun : exec (run config) fs = (.ok report, s)) :
    let results := resultsOf fs config (cleanerOf config) report.catalog
    let ws := allWrites config report.catalog results
    catalogOf fs config = .ok report.catalog ∧ report.written = ws.map Prod.fst ∧
      (Separate s.files config.outPath ws ↔ ∀ name ∈ renderedNames results, IsEntryName name) := by
  obtain ⟨hcatalog, hwritten, hlog⟩ := logs_of_run hrun
  have hnames : ProperNames (resultsOf fs config (cleanerOf config) report.catalog) :=
    properNames_renderCatalog hcatalog _
  refine ⟨hcatalog, by rw [hwritten, hlog.written]; rfl, ?_, ?_⟩
  · intro hseparate name hname
    by_contra hentry
    exact not_separate_of_not_isEntryName hmanifest hnames hname hentry hlog hseparate
  · intro hentry
    exact separate_of_isEntryName hmanifest hnames hentry hlog

/-- A project in the current directory `w`, with one source without text. -/
def projectOf (file : String) : FileSystem :=
  (FileSystem.fresh [.ofChars ['w']]).putFile
    [.ofChars ['w'], .ofChars "source".toList, nameOf file] ByteArray.empty

/-- The outputs of a plain name lie apart and inside. -/
theorem separate_outputs_of_home :
    let fs := projectOf "home.svg"
    ∃ report s, exec (run {}) fs = (.ok report, s) ∧
      report.written.map Path.display =
        ["./dist/db.json", "./dist/Home/Home.tsx", "./dist/Home/index.ts", "./dist/index.ts"] ∧
      Separate s.files (Config.outPath {})
        (allWrites {} report.catalog (resultsOf fs {} .standard report.catalog)) := by
  intro fs
  have hcatalog : catalogOf fs {} =
      .ok ⟨[⟨"home", "Home", "source", "home.svg", "source/home.svg"⟩]⟩ :=
    ok_of_toOption (by decide +kernel)
  obtain ⟨report, hrun⟩ : ∃ report, exec (run {}) fs = (.ok report, (exec (run {}) fs).2) :=
    exists_exec_eq_ok (by decide +kernel)
  obtain ⟨hsame, hwritten, hiff⟩ := separate_outputs_iff (by decide) hrun
  rw [hcatalog] at hsame
  refine ⟨report, _, hrun, ?_, hiff.2 ?_⟩
  · rw [hwritten, ← Except.ok.inj hsame]
    decide +kernel
  · rw [← Except.ok.inj hsame]
    decide +kernel

/-- A source whose base name is a double dot is written outside the output. -/
theorem not_separate_outputs_of_dots :
    let fs := projectOf "...svg"
    let config : Config := { outDir := .ofString "out/dist" }
    ∃ report s, exec (run config) fs = (.ok report, s) ∧
      report.written.map Path.display = ["./out/dist/db.json", "./out/dist/../...tsx",
        "./out/dist/../index.ts", "./out/dist/index.ts"] ∧
      s.files.isFile (.ofString "out/index.ts") = true ∧
      ¬Separate s.files config.outPath
        (allWrites config report.catalog (resultsOf fs config .standard report.catalog)) := by
  intro fs config
  have hcatalog : catalogOf fs config = .ok ⟨[⟨"..", "..", "source", "...svg", "source/...svg"⟩]⟩ :=
    ok_of_toOption (by decide +kernel)
  obtain ⟨report, hrun⟩ : ∃ report,
      exec (run config) fs = (.ok report, (exec (run config) fs).2) :=
    exists_exec_eq_ok (by decide +kernel)
  obtain ⟨hsame, hwritten, hlog⟩ := logs_of_run hrun
  rw [hcatalog] at hsame
  refine ⟨report, _, hrun, ?_, by decide +kernel, ?_⟩
  · rw [hwritten, hlog.written, ← Except.ok.inj hsame]
    decide +kernel
  · have hnames : ProperNames (resultsOf fs config .standard report.catalog) :=
      properNames_renderCatalog (hsame ▸ hcatalog) _
    have hdots : ".." ∈ renderedNames (resultsOf fs config .standard report.catalog) := by
      rw [← Except.ok.inj hsame]
      decide +kernel
    exact not_separate_of_not_isEntryName (by decide) hnames hdots (by decide) hlog

end IconCompiler
