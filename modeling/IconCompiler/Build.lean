import IconCompiler.Catalog
import IconCompiler.Config
import IconCompiler.Glob.Walk
import IconCompiler.Markup.Fragment

/-!
# Builds

A build finds the sources, catalogs them, writes the manifest, renders every asset and writes what
was rendered. It runs in a session, which holds the file system and the files written so far; both
also outlive a build that fails.
-/

namespace IconCompiler

/-- The paths of the sources, in the order of their texts. A path that the pattern matches in
    several ways is listed several times. -/
def discover (fs : FileSystem) (config : Config) : Except BuildError (List Path) :=
  match Glob.Pattern.read config.sourceGlob with
  | .error f => .error (.pattern config.sourceGlob f)
  | .ok pattern =>
    .ok (((pattern.paths fs).filter fs.isFile).mergeSort fun p q => !(q.display < p.display))

/-! ## Rendering -/

/-- What is generated for an asset. -/
structure Rendered where
  name : String
  /-- The text of the component module. -/
  component : String
  /-- The text of the index beside it. -/
  index : String
  deriving Repr, DecidableEq

/-- Generates the texts for an asset of the project at `root`. -/
def renderAsset (fs : FileSystem) (root : Path) (a : Asset) (viewBox : String)
    (cleaner : Markup.Cleaner) : Except BuildError Rendered :=
  match fs.readText (a.sourcePath root) with
  | .error e => .error (.io (a.sourcePath root) e)
  | .ok source =>
    match Markup.compileFragment source cleaner with
    | .error e => .error (.asset a.filepath (e.inFile a.filepath))
    | .ok fragment =>
      .ok ⟨a.name, Component.moduleText ⟨a.name, fragment, viewBox⟩, Component.moduleIndex a.name⟩

/-- Generates the texts for all assets of a catalog, in order. -/
def renderCatalog (fs : FileSystem) (config : Config) (catalog : Catalog)
    (cleaner : Markup.Cleaner) : List (Except BuildError Rendered) :=
  catalog.assets.map fun a => renderAsset fs config.root a config.viewBox cleaner

/-! ## Sessions -/

/-- A file system and the files written to it, the first one first. -/
structure Session where
  files : FileSystem
  written : List Path

/-- A step of a build. -/
abbrev Build := ExceptT BuildError (StateM Session)

namespace Build

/-- Goes on with the result, or fails with the error, of a computation that touches no files. -/
def ofExcept {α : Type} : Except BuildError α → Build α
  | .ok a => pure a
  | .error e => throw e

/-- Makes a directory and those above it that are missing. -/
def createDirs (p : Path) : Build Unit := do
  let s ← get
  let (fs, fault?) := s.files.createDirs p
  set { s with files := fs }
  match fault? with
  | none => pure ()
  | some e => throw (.io p e)

/-- Writes a text to a file. -/
def writeText (p : Path) (text : String) : Build Unit := do
  let s ← get
  match s.files.write p text.toUTF8 with
  | .ok fs => set ({ files := fs, written := s.written ++ [p] } : Session)
  | .error e => throw (.io p e)

/-- Writes the manifest of a catalog, into a directory that is made if it is missing. -/
def writeManifest (catalog : Catalog) (p : Path) : Build Unit := do
  match p.parent? with
  | some dir => createDirs dir
  | none => pure ()
  writeText p catalog.manifest

/-- The name of index files. -/
def indexFile : Path := .ofString "index.ts"

/-- The path of an asset's component module. -/
def componentPath (out : Path) (name : String) : Path :=
  (out.join (.ofString name)).join (.ofString (name ++ ".tsx"))

/-- The path of the index beside an asset's component module. -/
def indexPath (out : Path) (name : String) : Path :=
  (out.join (.ofString name)).join indexFile

/-- Writes what was rendered for an asset into a directory of its own. -/
def writeRendered (out : Path) (r : Rendered) : Build Unit := do
  createDirs (out.join (.ofString r.name))
  writeText (componentPath out r.name) r.component
  writeText (indexPath out r.name) r.index

end Build

/-! ## Runs -/

/-- An asset that was left out. -/
structure Failure where
  name : String
  error : BuildError
  deriving Repr, DecidableEq

/-- What a build did. -/
structure Report where
  catalog : Catalog
  /-- The files written, in order. -/
  written : List Path
  /-- The assets left out, in the order of the catalog. -/
  failures : List Failure
  deriving Repr, DecidableEq

namespace Report

/-- How many assets were cataloged. -/
def total (r : Report) : Nat := r.catalog.size

/-- How many assets were left out. -/
def failed (r : Report) : Nat := r.failures.length

/-- How many assets were written. -/
def succeeded (r : Report) : Nat := r.total - r.failed

/-- Whether any asset was left out. -/
def hasFailures (r : Report) : Bool := !r.failures.isEmpty

end Report

namespace Build

/-- Writes what was rendered, asset by asset, and gives the names that were written and the assets
    that were left out. The first error that is not left out ends the build. -/
def writeAll (out : Path) (continueOnError : Bool) :
    List (Asset × Except BuildError Rendered) → Build (List String × List Failure)
  | [] => pure ([], [])
  | (_, .ok r) :: rest => do
    writeRendered out r
    let (names, failures) ← writeAll out continueOnError rest
    return (r.name :: names, failures)
  | (a, .error e) :: rest => do
    if e.isAsset && continueOnError then
      let (names, failures) ← writeAll out continueOnError rest
      return (names, ⟨a.name, e⟩ :: failures)
    else throw e

/-- A build with a given cleaner. Everything is rendered after the manifest is written and before
    any component is. -/
def runWith (config : Config) (cleaner : Markup.Cleaner) : Build Report := do
  let start ← get
  -- nothing is written before the catalog stands
  let paths ← ofExcept (discover start.files config)
  let catalog ← ofExcept (Catalog.ofPaths config.root paths)
  writeManifest catalog config.manifestPath
  let rendered := renderCatalog (← get).files config catalog cleaner
  let out := config.outPath
  let (names, failures) ← writeAll out config.continueOnError (catalog.assets.zip rendered)
  writeText (out.join indexFile) (Component.packageIndex names)
  return ⟨catalog, (← get).written, failures⟩

/-- The cleaner that a configuration asks for. -/
def cleanerOf (config : Config) : Markup.Cleaner :=
  if config.clean then .standard else .identity

/-- A build with the cleaner that its configuration asks for. -/
def run (config : Config) : Build Report :=
  runWith config (cleanerOf config)

/-- Starts a build, with nothing written, and gives its outcome and the session it leaves. -/
def exec {α : Type} (b : Build α) (fs : FileSystem) : Except BuildError α × Session :=
  (ExceptT.run b).run ⟨fs, []⟩

end Build

end IconCompiler
