import IconCompiler.Asset
import IconCompiler.BuildError

/-!
# Catalogs

A catalog lists assets. Built from paths, it names every component once; a manifest is a catalog
written as JSON.
-/

namespace IconCompiler

/-- A list of assets. -/
structure Catalog where
  assets : List Asset
  deriving Repr, DecidableEq, Inhabited

namespace Catalog

/-- The catalog without assets. -/
def empty : Catalog := ⟨[]⟩

/-- How many assets the catalog has. -/
def size (c : Catalog) : Nat :=
  c.assets.length

/-- The first asset with a component name. -/
def find? (c : Catalog) (name : String) : Option Asset :=
  c.assets.find? fun a => a.name = name

/-- Adds an asset at the end. A name that is known has to stand for the same source, which is then
    not listed again. -/
def add (c : Catalog) (a : Asset) : Except BuildError Catalog :=
  match c.find? a.name with
  | none => .ok ⟨c.assets ++ [a]⟩
  | some b =>
    -- the same source, found a second time
    if b.filepath = a.filepath then .ok c
    else .error (.duplicateName a.category a.name a.filename b.filepath)

/-- Adds the assets of paths, up to the first that fails. -/
def addPaths (root : Path) (c : Catalog) : List Path → Except BuildError Catalog
  | [] => .ok c
  | p :: ps =>
    match Asset.ofPath? root p with
    | none => .error (.invalidPath p)
    | some a =>
      match c.add a with
      | .ok c' => addPaths root c' ps
      | .error e => .error e

/-- The catalog of the sources at the given paths, in their order. -/
def ofPaths (root : Path) (paths : List Path) : Except BuildError Catalog :=
  addPaths root empty paths

/-! ## Manifests -/

/-- An entry of an asset as it is written, on a line of its own. -/
def renderEntry (e : String × String) : List Char :=
  "    ".toList ++ Json.quote e.1 ++ [':', ' '] ++ Json.quote e.2

/-- An asset as it is written. -/
def renderAsset (a : Asset) : List Char :=
  "  \x7b\n".toList ++ [',', '\n'].intercalate (a.entries.map renderEntry) ++ "\n  \x7d".toList

/-- The manifest of a catalog: a list with one record for every asset, indented by two spaces. -/
def manifest (c : Catalog) : String :=
  if c.assets.isEmpty then "[]"
  else
    String.ofList (['[', '\n'] ++ [',', '\n'].intercalate (c.assets.map renderAsset) ++
      ['\n', ']'])

/-- The catalog that a manifest holds. Its names need not be distinct. -/
def ofManifest (text : String) : Except BuildError Catalog :=
  match Json.Reader.run (fun size => .list size (.record size Asset.format)) text with
  | .ok assets => .ok ⟨assets⟩
  | .error f => .error (.manifest f)

end Catalog

end IconCompiler
