import IconCompiler.Proofs.Build.WriteLog
import Mathlib.Data.List.TakeWhile

/-!
# Which files a run writes

What a run writes is settled once its assets are rendered: the manifest, then for every result in
the order of the catalog the two files of its asset, then the index of the package. A result that is
an error is left out or ends the run, and then nothing that comes after it is written. Whatever else
fails on the way, what is written is a beginning of this list.

## Key results

- `Follows.writeAll`: the loop over the results writes up to the first fatal one
- `follows_runWith`: a run follows its plan
- `exec_runWith_writes`: what a run writes, whatever its outcome
-/

namespace IconCompiler

open FileSystem Build

/-! ## The plan of a run -/

/-- The catalog of the sources that are found. -/
def catalogOf (fs : FileSystem) (config : Config) : Except BuildError Catalog :=
  (discover fs config).bind (Catalog.ofPaths config.root)

/-- The file system after the manifest was written, or after the attempt. -/
def afterManifest (fs : FileSystem) (config : Config) (catalog : Catalog) : FileSystem :=
  (exec (writeManifest catalog config.manifestPath) fs).2.files

/-- What is rendered for the assets of a catalog, once the manifest is written. -/
def resultsOf (fs : FileSystem) (config : Config) (cleaner : Markup.Cleaner) (catalog : Catalog) :
    List (Except BuildError Rendered) :=
  renderCatalog (afterManifest fs config catalog) config catalog cleaner

/-- Whether a result is an error that ends the run. Without `continueOnError` every error does, with
    it those that are not the fault of one asset. -/
def isFatal (continueOnError : Bool) : Except BuildError Rendered → Bool
  | .ok _ => false
  | .error e => !(e.isAsset && continueOnError)

/-- The files of a result with their texts. -/
def outputs (out : Path) : Except BuildError Rendered → List (Path × String)
  | .ok r => [(componentPath out r.name, r.component), (indexPath out r.name, r.index)]
  | .error _ => []

/-- The names of the assets that were rendered. -/
def renderedNames (results : List (Except BuildError Rendered)) : List String :=
  results.filterMap fun r => r.toOption.map Rendered.name

/-- The failure to report for an asset with its result. -/
def failure? : Asset × Except BuildError Rendered → Option Failure
  | (_, .ok _) => none
  | (a, .error e) => some ⟨a.name, e⟩

/-- What a run writes, in order, if it comes to its end. -/
def allWrites (config : Config) (catalog : Catalog)
    (results : List (Except BuildError Rendered)) : List (Path × String) :=
  (config.manifestPath, catalog.manifest) ::
    (results.flatMap (outputs config.outPath) ++
      [(config.outPath.join indexFile, Component.packageIndex (renderedNames results))])

/-- What a run writes, in order, if no write fails: nothing comes after a fatal result. -/
def plannedWrites (config : Config) (catalog : Catalog)
    (results : List (Except BuildError Rendered)) : List (Path × String) :=
  let fatal := isFatal config.continueOnError
  (config.manifestPath, catalog.manifest) ::
    ((results.takeWhile (!fatal ·)).flatMap (outputs config.outPath) ++
      if results.any fatal then []
      else [(config.outPath.join indexFile, Component.packageIndex (renderedNames results))])

/-- Without a fatal result the plan is all that a run can write. -/
private theorem plannedWrites_eq_allWrites {config : Config}
    {results : List (Except BuildError Rendered)}
    (h : results.any (isFatal config.continueOnError) = false) (catalog : Catalog) :
    plannedWrites config catalog results = allWrites config catalog results := by
  have hall : ∀ r ∈ results, (!isFatal config.continueOnError r) = true := by
    simpa using h
  simp only [plannedWrites, allWrites, List.takeWhile_eq_self_iff.2 hall, h, Bool.false_eq_true,
    if_false]

/-! ## Following the plan -/

namespace Follows

variable {s : Session}

/-- A step that was computed beforehand writes nothing. -/
theorem ofExcept {α : Type} {r : Except BuildError α} {a : α} (h : r = .ok a) :
    Follows (Build.ofExcept r) s [] fun b s' => a = b ∧ s = s' := by
  rw [h]
  exact .pure ⟨rfl, rfl⟩

/-- Writing a manifest plans one write, whether or not its directory has to be made. -/
theorem writeManifest (catalog : Catalog) (p : Path) :
    Follows (Build.writeManifest catalog p) s [(p, catalog.manifest)] fun _ _ => True := by
  unfold Build.writeManifest
  cases p.parent? with
  | none => exact Follows.writeText p catalog.manifest
  | some dir => exact (Follows.createDirs dir).bind fun _ _ _ => .writeText p catalog.manifest

/-- Writing what was rendered for an asset plans the component and then its index. -/
theorem writeRendered (out : Path) (r : Rendered) :
    Follows (Build.writeRendered out r) s (outputs out (.ok r)) fun _ _ => True := by
  refine (Follows.createDirs _).bind fun _ _ _ => ?_
  refine (Follows.writeText _ _).bind fun _ _ _ => ?_
  exact .writeText _ _

/-- The loop over the results writes up to the first fatal one. It gives a result only if there is
    none, and then the names and failures of all. -/
theorem writeAll (out : Path) (continueOnError : Bool)
    (results : List (Asset × Except BuildError Rendered)) :
    Follows (Build.writeAll out continueOnError results) s
      (((results.map Prod.snd).takeWhile (!isFatal continueOnError ·)).flatMap (outputs out))
      fun r _ => (results.map Prod.snd).any (isFatal continueOnError) = false ∧
        r = (renderedNames (results.map Prod.snd), results.filterMap failure?) := by
  -- over the results, each from the session that the ones before it leave
  induction results generalizing s with
  | nil => exact .pure ⟨rfl, rfl⟩
  | cons result results ih =>
    obtain ⟨a, e | r⟩ := result
    · -- an error writes nothing, and the loop goes on only if it is left out
      unfold Build.writeAll
      cases hskip : e.isAsset && continueOnError with
      | true =>
        have hfatal : isFatal continueOnError (.error e) = false := by simp [isFatal, hskip]
        simp only [if_true, List.map_cons, List.takeWhile_cons, hfatal, Bool.not_false,
          List.flatMap_cons, outputs, List.nil_append]
        apply ih.map
        rintro _ _ ⟨hnone, rfl⟩
        exact ⟨by simp [hfatal, hnone], rfl⟩
      | false => exact .throw e _ _
    · -- the files of the asset, and then those of the rest
      simp only [List.map_cons, List.takeWhile_cons, isFatal, Bool.not_false, if_true,
        List.flatMap_cons]
      refine (Follows.writeRendered out r).bind fun _ _ _ => ?_
      apply ih.map
      rintro _ _ ⟨hnone, rfl⟩
      exact ⟨by simp [isFatal, hnone], rfl⟩

end Follows

/-! ## Runs -/

/-- A run without a catalog writes nothing. -/
theorem exec_runWith_of_no_catalog {fs : FileSystem} {config : Config} {e : BuildError}
    (cleaner : Markup.Cleaner) (h : catalogOf fs config = .error e) :
    exec (runWith config cleaner) fs = (.error e, ⟨fs, []⟩) := by
  show resume (runWith config cleaner) ⟨fs, []⟩ = _
  rw [runWith, resume_bind, resume_get]
  dsimp only
  rw [resume_bind]
  -- either nothing was found, or a path that was found is refused
  unfold catalogOf at h
  cases hpaths : discover fs config with
  | error e' =>
    rw [hpaths] at h
    cases h
    rfl
  | ok paths =>
    rw [hpaths] at h
    show resume (Build.ofExcept (Catalog.ofPaths config.root paths) >>= _) ⟨fs, []⟩ = _
    rw [resume_bind, show Catalog.ofPaths config.root paths = .error e from h]
    rfl

/-- The part of a run after everything is rendered. -/
def conclude (config : Config) (catalog : Catalog)
    (results : List (Except BuildError Rendered)) : Build Report := do
  let (names, failures) ←
    writeAll config.outPath config.continueOnError (catalog.assets.zip results)
  writeText (config.outPath.join indexFile) (Component.packageIndex names)
  return ⟨catalog, (← get).written, failures⟩

/-- The part of a run after the catalog stands. -/
def fromCatalog (config : Config) (cleaner : Markup.Cleaner) (catalog : Catalog) :
    Build Report := do
  writeManifest catalog config.manifestPath
  conclude config catalog (renderCatalog (← get).files config catalog cleaner)

/-- With a catalog, a run is what comes after it: finding and reading paths writes nothing. -/
theorem exec_runWith_of_catalog {fs : FileSystem} {config : Config} {catalog : Catalog}
    (cleaner : Markup.Cleaner) (h : catalogOf fs config = .ok catalog) :
    exec (runWith config cleaner) fs = resume (fromCatalog config cleaner catalog) ⟨fs, []⟩ := by
  obtain ⟨paths, hpaths, hcatalog⟩ := ok_of_bind h
  show resume (runWith config cleaner) ⟨fs, []⟩ = _
  rw [runWith, resume_bind, resume_get]
  dsimp only
  rw [hpaths]
  show resume (Build.ofExcept (Catalog.ofPaths config.root paths) >>= _) ⟨fs, []⟩ = _
  rw [hcatalog]
  rfl

/-- A run with a catalog follows its plan. -/
theorem follows_runWith {fs : FileSystem} {config : Config} {catalog : Catalog}
    (cleaner : Markup.Cleaner) (h : catalogOf fs config = .ok catalog) :
    let results := resultsOf fs config cleaner catalog
    Follows (runWith config cleaner) ⟨fs, []⟩ (plannedWrites config catalog results)
      fun report s => results.any (isFatal config.continueOnError) = false ∧
        report = ⟨catalog, s.written, (catalog.assets.zip results).filterMap failure?⟩ := by
  intro results
  obtain ⟨paths, hpaths, hcatalog⟩ := ok_of_bind h
  have hzip : (catalog.assets.zip results).map Prod.snd = results :=
    List.map_snd_zip (by simp [results, resultsOf, renderCatalog])
  -- what comes before the manifest reads the file system only
  show Follows _ _ ([] ++ ([] ++ ([] ++ plannedWrites config catalog results))) _
  apply Follows.get.bind
  rintro _ _ ⟨rfl, rfl⟩
  apply (Follows.ofExcept hpaths).bind
  rintro _ _ ⟨rfl, rfl⟩
  apply (Follows.ofExcept hcatalog).bind
  rintro _ _ ⟨rfl, rfl⟩
  apply (Follows.writeManifest catalog config.manifestPath).exactly.bind
  rintro _ s ⟨-, hs⟩
  show Follows _ _ ([] ++ _) _
  apply Follows.get.bind
  rintro _ _ ⟨rfl, rfl⟩
  have hresults : renderCatalog s.files config catalog cleaner = results := by
    rw [hs]
    rfl
  rw [hresults]
  have hloop := Follows.writeAll config.outPath config.continueOnError (catalog.assets.zip results)
    (s := s)
  rw [hzip] at hloop
  -- past the loop there was no fatal result, and the index is all that is left to write
  apply hloop.bind
  rintro _ s' ⟨hnone, rfl⟩
  rw [hnone]
  refine (Follows.writeText _ _).bind fun _ s'' _ => ?_
  apply Follows.get.map
  rintro _ _ ⟨rfl, rfl⟩
  exact ⟨rfl, rfl⟩

/-- A run that succeeds has a catalog, and it has performed all writes. -/
theorem logs_of_runWith {fs : FileSystem} {config : Config} {cleaner : Markup.Cleaner}
    {report : Report} {s : Session} (hrun : exec (runWith config cleaner) fs = (.ok report, s)) :
    let results := resultsOf fs config cleaner report.catalog
    catalogOf fs config = .ok report.catalog ∧ report.written = s.written ∧
      report.failures = (report.catalog.assets.zip results).filterMap failure? ∧
      Logs ⟨fs, []⟩ (allWrites config report.catalog results) s := by
  cases hcatalog : catalogOf fs config with
  | error e =>
    rw [exec_runWith_of_no_catalog cleaner hcatalog] at hrun
    cases (Prod.mk.inj hrun).1
  | ok catalog =>
    obtain ⟨ws, -, hlog, hok⟩ := follows_runWith cleaner hcatalog
    rw [show resume (runWith config cleaner) ⟨fs, []⟩ = (.ok report, s) from hrun] at hlog hok
    -- the plan has been performed, and the report is the one that it gives
    obtain ⟨rfl, hnone, hreport⟩ := hok report rfl
    obtain rfl : report.catalog = catalog := congrArg Report.catalog hreport
    rw [plannedWrites_eq_allWrites hnone] at hlog
    exact ⟨rfl, congrArg Report.written hreport, congrArg Report.failures hreport, hlog⟩

/-- An error of a result that is not fatal is the fault of the asset's source, and it is located
    there. -/
private theorem exists_asset_of_mem_failures {fs : FileSystem} {config : Config} {catalog : Catalog}
    {cleaner : Markup.Cleaner}
    (hnone : (renderCatalog fs config catalog cleaner).any (isFatal config.continueOnError) = false)
    {f : Failure}
    (hf : f ∈ (catalog.assets.zip (renderCatalog fs config catalog cleaner)).filterMap failure?) :
    ∃ a ∈ catalog.assets, f.name = a.name ∧
      ∃ e, f.error = .asset a.filepath e ∧ e.location.file = some a.filepath := by
  unfold renderCatalog at hf hnone
  rw [← List.map_prod_left_eq_zip, List.filterMap_map] at hf
  obtain ⟨a, ha, hfailure⟩ := List.mem_filterMap.1 hf
  have hresult := List.any_eq_false.1 hnone _ (List.mem_map_of_mem ha)
  refine ⟨a, ha, ?_⟩
  simp only [Function.comp, failure?] at hfailure
  split at hfailure
  · cases hfailure
  · rename_i a' e heq
    obtain ⟨rfl, he⟩ := Prod.mk.inj heq
    obtain rfl := (Option.some.inj hfailure).symm
    rw [he] at hresult
    refine ⟨rfl, ?_⟩
    -- of the two kinds of errors that rendering has, one is fatal in any run
    unfold renderAsset at he
    split at he
    · cases he
      exact absurd rfl hresult
    · split at he
      · rename_i fault _
        cases he
        refine ⟨_, rfl, ?_⟩
        cases fault <;> rfl
      · cases he

/-- Every result is a success or a failure. -/
private theorem length_failures_add_renderedNames (assets : List Asset)
    (render : Asset → Except BuildError Rendered) :
    ((assets.zip (assets.map render)).filterMap failure?).length +
      (renderedNames (assets.map render)).length = assets.length := by
  -- each asset adds one to one of the two lists
  induction assets with
  | nil => rfl
  | cons a assets ih =>
    rw [List.map_cons, List.zip_cons_cons, List.length_cons]
    cases render a with
    | error e =>
      show (Failure.mk a.name e :: (assets.zip (assets.map render)).filterMap failure?).length +
        (renderedNames (assets.map render)).length = assets.length + 1
      rw [List.length_cons]
      omega
    | ok r =>
      show ((assets.zip (assets.map render)).filterMap failure?).length +
        (r.name :: renderedNames (assets.map render)).length = assets.length + 1
      rw [List.length_cons]
      omega

/-! ## What a run leaves -/

/-- What writes leave. Nothing is lost, every path that was written to names a file, and a file
    holds the text of the last write to it, or what it held before if there is none. -/
structure Leaves (fs : FileSystem) (ws : List (Path × String)) (fs' : FileSystem) : Prop where
  keeps : Keeps fs fs'
  named : ∀ w ∈ ws, ∃ k, fs'.Names w.1 k ∧ (fs'.fileAt? k).isSome
  content : ∀ k, ((∀ w ∈ ws, ¬fs'.Names w.1 k) ∧ fs'.fileAt? k = fs.fileAt? k) ∨
    ∃ front w back, ws = front ++ w :: back ∧ fs'.Names w.1 k ∧
      fs'.fileAt? k = some w.2.toUTF8 ∧ ∀ v ∈ back, ¬fs'.Names v.1 k

/-- A list of writes leaves what such a list has to leave. -/
private theorem Logs.leaves {s s' : Session} {ws : List (Path × String)} (h : Logs s ws s') :
    Leaves s.files ws s'.files :=
  ⟨h.keeps, fun _ hw => h.exists_file hw, h.exists_last_write⟩

/-- A run without a catalog leaves the file system as it was. A run with one performs the planned
    writes up to some point and changes nothing else; if it succeeds, there was no fatal result, it
    has performed them all, and it reports them, the failures in the order of the catalog and their
    number. -/
theorem exec_runWith_writes {fs : FileSystem} {config : Config} {cleaner : Markup.Cleaner}
    {outcome : Except BuildError Report} {s : Session}
    (hrun : exec (runWith config cleaner) fs = (outcome, s)) :
    (∀ e, catalogOf fs config = .error e → outcome = .error e ∧ s = ⟨fs, []⟩) ∧
    ∀ catalog, catalogOf fs config = .ok catalog →
      let results := resultsOf fs config cleaner catalog
      (∃ ws, ws <+: plannedWrites config catalog results ∧ s.written = ws.map Prod.fst ∧
        Leaves fs ws s.files) ∧
      ∀ report, outcome = .ok report →
        results.any (isFatal config.continueOnError) = false ∧
        s.written = (allWrites config catalog results).map Prod.fst ∧
        report.written = s.written ∧ report.catalog = catalog ∧
        report.failures = (catalog.assets.zip results).filterMap failure? ∧
        (∀ f ∈ report.failures, ∃ a ∈ catalog.assets, f.name = a.name ∧
          ∃ e, f.error = .asset a.filepath e ∧ e.location.file = some a.filepath) ∧
        report.total = catalog.assets.length ∧
        report.succeeded = report.total - report.failures.length ∧
        report.succeeded = (renderedNames results).length := by
  constructor
  · intro e he
    rw [exec_runWith_of_no_catalog cleaner he] at hrun
    obtain ⟨rfl, rfl⟩ := Prod.mk.inj hrun
    exact ⟨rfl, rfl⟩
  · intro catalog hcatalog results
    obtain ⟨ws, hpre, hlog, hok⟩ := follows_runWith cleaner hcatalog
    rw [show resume (runWith config cleaner) ⟨fs, []⟩ = (outcome, s) from hrun] at hlog hok
    -- the session starts with an empty list of what was written
    have hwritten : s.written = ws.map Prod.fst := by
      rw [hlog.written, List.nil_append]
    refine ⟨⟨ws, hpre, hwritten, hlog.leaves⟩, ?_⟩
    intro report hreport
    obtain ⟨hall, hnone, rfl⟩ := hok report hreport
    rw [plannedWrites_eq_allWrites hnone] at hall
    -- each asset has one result, so the failures and the names add up
    have hcount := length_failures_add_renderedNames catalog.assets fun a =>
      renderAsset (afterManifest fs config catalog) config.root a config.viewBox cleaner
    refine ⟨hnone, by rw [hwritten, hall], rfl, rfl, rfl,
      fun f hf => exists_asset_of_mem_failures hnone hf, rfl, rfl, ?_⟩
    show catalog.assets.length - ((catalog.assets.zip results).filterMap failure?).length = _
    exact Nat.sub_eq_of_eq_add' hcount.symm

/-- Sources that are found in the order of their texts are discovered in it. -/
theorem discover_of_pairwise {fs : FileSystem} {config : Config} {found : List Path}
    (hfound : (Glob.Pattern.read config.sourceGlob).toOption.map
      (fun pattern => (pattern.paths fs).filter fs.isFile) = some found)
    (hsorted : found.Pairwise fun p q => (!(q.display < p.display)) = true) :
    discover fs config = .ok found := by
  rw [discover]
  cases hread : Glob.Pattern.read config.sourceGlob with
  | error e =>
    rw [hread] at hfound
    cases hfound
  | ok pattern =>
    rw [hread] at hfound
    obtain rfl := Option.some.inj hfound
    exact congrArg Except.ok (List.mergeSort_of_pairwise hsorted)

/-- A project `p` in the current directory `w` whose only source has an open tag. -/
def brokenSource : FileSystem :=
  (FileSystem.fresh [.ofChars ['w']]).putFile
    [.ofChars ['w'], .ofChars ['p'], .ofChars "source".toList, .ofChars "b.svg".toList]
    "<a>".toUTF8

/-- The project `brokenSource` with a second source, which is not faulty. -/
def mixedSources : FileSystem :=
  brokenSource.putFile
    [.ofChars ['w'], .ofChars ['p'], .ofChars "source".toList, .ofChars "c.svg".toList]
    "<path/>".toUTF8

/-- A run that leaves the faulty source out lists it, and writes the files of the other one between
    the manifest and the index. -/
theorem exec_runWith_writes_mixedSources :
    let config : Config := { root := .ofString "p", continueOnError := true }
    let run := exec (runWith config .standard) mixedSources
    catalogOf mixedSources config = .ok ⟨[⟨"b", "B", "source", "b.svg", "source/b.svg"⟩,
        ⟨"c", "C", "source", "c.svg", "source/c.svg"⟩]⟩ ∧
      (∃ report, run.1 = .ok report ∧ report.failures.map Failure.name = ["B"]) ∧
      run.2.written.map Path.display =
        ["p/dist/db.json", "p/dist/C/C.tsx", "p/dist/C/index.ts", "p/dist/index.ts"] := by
  intro config run
  let catalog : Catalog := ⟨[⟨"b", "B", "source", "b.svg", "source/b.svg"⟩,
    ⟨"c", "C", "source", "c.svg", "source/c.svg"⟩]⟩
  have hfound : discover mixedSources config =
      .ok [.ofString "p/source/b.svg", .ofString "p/source/c.svg"] :=
    discover_of_pairwise (by decide +kernel) (by decide +kernel)
  have hcatalog : catalogOf mixedSources config = .ok catalog := by
    rw [catalogOf, hfound]
    exact ok_of_toOption (by decide +kernel)
  have hparts : run = resume (fromCatalog config .standard catalog) ⟨mixedSources, []⟩ :=
    exec_runWith_of_catalog _ hcatalog
  obtain ⟨report, hrun⟩ : ∃ report, run = (.ok report, run.2) := by
    apply exists_exec_eq_ok
    show run.1.toOption.isSome = true
    rw [hparts]
    decide +kernel
  obtain ⟨-, hwritten, -, -, hfailures, -⟩ :=
    ((exec_runWith_writes hrun).2 _ hcatalog).2 report rfl
  refine ⟨hcatalog, ⟨report, by rw [hrun], ?_⟩, ?_⟩
  · rw [hfailures]
    decide +kernel
  · rw [hwritten]
    decide +kernel

end IconCompiler
