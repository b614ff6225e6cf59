import IconCompiler.Json.Record
import IconCompiler.Naming
import IconCompiler.Path

/-!
# Assets

An asset is the record of one icon source. It is derived from the path of the source, and it can be
read from a manifest.
-/

namespace IconCompiler

/-- The record of an icon source. -/
structure Asset where
  /-- The file name without its extension. -/
  id : String
  /-- The name of the component. -/
  name : String
  /-- The name of the directory that holds the source. -/
  category : String
  /-- The file name. -/
  filename : String
  /-- The path of the source relative to the project. -/
  filepath : String
  deriving Repr, DecidableEq, Inhabited

namespace Asset

/-- The name of the directory that holds what a path names. -/
def directoryName? (p : Path) : Option FileName :=
  match p.components.dropLast.getLast? with
  | some (.name n) => some n
  | _ => none

/-- The asset of a path in a project. A path without a file name that is a text has none; a
    directory whose name is no text counts as none. -/
def ofPath? (root p : Path) : Option Asset :=
  match p.fileName? with
  | none => none
  | some name =>
    match name.text?, name.stem.text? with
    | some filename, some id =>
      some {
        id := String.ofList id
        name := Naming.componentName (String.ofList id)
        category := String.ofList (((directoryName? p).bind FileName.text?).getD [])
        filename := String.ofList filename
        filepath := p.relativeText root }
    | _, _ => none

/-- Where the source of an asset lies, for a project at `root`. -/
def sourcePath (a : Asset) (root : Path) : Path :=
  root.join (.ofString a.filepath)

/-! ## Manifest records -/

/-- The fields of an asset as far as they were read. -/
structure Fields where
  id : Option String
  name : Option String
  category : Option String
  filename : Option String
  filepath : Option String

/-- No field read. -/
def Fields.none : Fields :=
  ⟨.none, .none, .none, .none, .none⟩

/-- The fields of an asset in the order in which they are written. -/
def fields : List (Json.RecordField Fields) :=
  let text := Json.Reader.string "a string"
  [⟨"id", fun r => r.id.isSome, fun r => return { r with id := some (← text) }⟩,
    ⟨"name", fun r => r.name.isSome, fun r => return { r with name := some (← text) }⟩,
    ⟨"category", fun r => r.category.isSome, fun r => return { r with category := some (← text) }⟩,
    ⟨"filename", fun r => r.filename.isSome, fun r => return { r with filename := some (← text) }⟩,
    ⟨"filepath", fun r => r.filepath.isSome, fun r => return { r with filepath := some (← text) }⟩]

/-- The asset with the given fields, or what `missing` makes of the first field that is not given,
    by its place and name. -/
def ofFields (missing : Nat → String → Json.Cause) (r : Fields) : Except Json.Cause Asset :=
  match r.id, r.name, r.category, r.filename, r.filepath with
  | some id, some name, some category, some filename, some filepath =>
    .ok ⟨id, name, category, filename, filepath⟩
  | .none, _, _, _, _ => .error (missing 0 "id")
  | _, .none, _, _, _ => .error (missing 1 "name")
  | _, _, .none, _, _ => .error (missing 2 "category")
  | _, _, _, .none, _ => .error (missing 3 "filename")
  | _, _, _, _, .none => .error (missing 4 "filepath")

/-- How an asset is read: every field is needed. -/
def format : Json.RecordFormat Fields Asset where
  expected := "struct Asset"
  fields := fields
  start := .none
  ofObject := ofFields fun _ name => .missingField name
  ofList := ofFields fun k _ => .invalidLength k "struct Asset with 5 elements"

/-- The fields of an asset with their names, in the order in which they are written. -/
def entries (a : Asset) : List (String × String) :=
  [("id", a.id), ("name", a.name), ("category", a.category), ("filename", a.filename),
    ("filepath", a.filepath)]

end Asset

end IconCompiler
