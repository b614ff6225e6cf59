import IconCompiler.BuildError
import IconCompiler.Component
import IconCompiler.Json.Record

/-!
# Configurations

What a build is told: where the sources lie, which of them count, and where the output goes. A
configuration file is a JSON record whose missing fields have their default values.
-/

namespace IconCompiler

/-- The settings of a build. -/
structure Config where
  /-- The project, from which the other paths are seen. -/
  root : Path := .dot
  /-- The directory of the sources. -/
  sourceDir : Path := .ofString "source"
  /-- The pattern of the sources inside their directory. -/
  pattern : String := "**/*.svg"
  /-- The directory of the output. -/
  outDir : Path := .ofString "dist"
  /-- The manifest inside the output directory. -/
  manifest : String := "db.json"
  /-- The view box of the components. -/
  viewBox : String := Component.defaultViewBox
  /-- Whether sources are cleaned. -/
  clean : Bool := true
  /-- Whether assets that fail are left out. -/
  continueOnError : Bool := false
  /-- How many assets may be worked on at a time. -/
  jobs : Option Nat := none
  deriving Repr, DecidableEq, Inhabited

namespace Config

/-- The directory of the sources. -/
def sourcePath (c : Config) : Path :=
  c.root.join c.sourceDir

/-- The pattern of the sources. What the pattern means inside the directory's own name is escaped,
    and slashes at the end of that are dropped. -/
def sourceGlob (c : Config) : String :=
  let base := Glob.escape c.sourcePath.display.toList
  String.ofList ((base.reverse.dropWhile (· = '/')).reverse ++ '/' :: c.pattern.toList)

/-- The directory of the output. -/
def outPath (c : Config) : Path :=
  c.root.join c.outDir

/-- The path of the manifest. -/
def manifestPath (c : Config) : Path :=
  c.outPath.join (.ofString c.manifest)

/-- The directories in which a build reads and writes. -/
def places (c : Config) : List Path :=
  [c.root, c.sourcePath, c.outPath]

/-! ## Configuration files -/

/-- The fields of a configuration as far as they were read. -/
structure Fields where
  root : Option String := none
  sourceDir : Option String := none
  pattern : Option String := none
  outDir : Option String := none
  manifest : Option String := none
  viewBox : Option String := none
  clean : Option Bool := none
  continueOnError : Option Bool := none
  jobs : Option (Option Nat) := none

/-- The fields of a configuration in the order in which they are written. -/
def fields : List (Json.RecordField Fields) :=
  let text := Json.Reader.string "a string"
  let path := Json.Reader.string "path string"
  [⟨"root", fun r => r.root.isSome, fun r => return { r with root := some (← path) }⟩,
    ⟨"sourceDir", fun r => r.sourceDir.isSome,
      fun r => return { r with sourceDir := some (← path) }⟩,
    ⟨"pattern", fun r => r.pattern.isSome, fun r => return { r with pattern := some (← text) }⟩,
    ⟨"outDir", fun r => r.outDir.isSome, fun r => return { r with outDir := some (← path) }⟩,
    ⟨"manifest", fun r => r.manifest.isSome, fun r => return { r with manifest := some (← text) }⟩,
    ⟨"viewBox", fun r => r.viewBox.isSome, fun r => return { r with viewBox := some (← text) }⟩,
    ⟨"clean", fun r => r.clean.isSome,
      fun r => return { r with clean := some (← Json.Reader.boolean) }⟩,
    ⟨"continueOnError", fun r => r.continueOnError.isSome,
      fun r => return { r with continueOnError := some (← Json.Reader.boolean) }⟩,
    ⟨"jobs", fun r => r.jobs.isSome,
      fun r => return { r with jobs := some (← Json.Reader.optionalCount) }⟩]

/-- The configuration with the given fields, and defaults for the others. -/
def ofFields (r : Fields) : Config :=
  let default : Config := {}
  { root := (r.root.map Path.ofString).getD default.root
    sourceDir := (r.sourceDir.map Path.ofString).getD default.sourceDir
    pattern := r.pattern.getD default.pattern
    outDir := (r.outDir.map Path.ofString).getD default.outDir
    manifest := r.manifest.getD default.manifest
    viewBox := r.viewBox.getD default.viewBox
    clean := r.clean.getD default.clean
    continueOnError := r.continueOnError.getD default.continueOnError
    jobs := r.jobs.getD default.jobs }

/-- How a configuration is read: no field is needed. -/
def format : Json.RecordFormat Fields Config where
  expected := "struct CompilerConfig"
  fields := fields
  start := {}
  ofObject := fun r => .ok (ofFields r)
  ofList := fun r => .ok (ofFields r)

/-- The configuration that a JSON text holds. -/
def ofJson (text : String) : Except Json.Fault Config :=
  Json.Reader.run (fun size => .record size format) text

/-- The configuration that the text of a configuration file holds; it has to allow a job. -/
def ofFileText (text : String) : Except ConfigFault Config :=
  match ofJson text with
  | .error f => .error (.json f)
  | .ok c => if c.jobs = some 0 then .error .noJobs else .ok c

/-- The configuration in a file. -/
def ofFile (fs : FileSystem) (path : Path) : Except BuildError Config :=
  match fs.readText path with
  | .error e => .error (.io path e)
  | .ok text =>
    match ofFileText text with
    | .error f => .error (.config path f)
    | .ok c => .ok c

/-- A field as it is written. -/
def renderField (name value : String) : String :=
  String.ofList (Json.quote name) ++ ":" ++ value

/-- A configuration as a JSON text without white space. -/
def render (c : Config) : String :=
  let text := fun s => String.ofList (Json.quote s)
  "\x7b" ++ ",".intercalate [
    renderField "root" (text c.root.display),
    renderField "sourceDir" (text c.sourceDir.display),
    renderField "pattern" (text c.pattern),
    renderField "outDir" (text c.outDir.display),
    renderField "manifest" (text c.manifest),
    renderField "viewBox" (text c.viewBox),
    renderField "clean" (toString c.clean),
    renderField "continueOnError" (toString c.continueOnError),
    renderField "jobs" (match c.jobs with | some n => toString n | none => "null")] ++ "\x7d"

end Config

end IconCompiler
