import IconCompiler.Markup.Cleaning
import IconCompiler.Markup.Document
import IconCompiler.Markup.Jsx
import IconCompiler.Text.Replace

/-!
# From a source to a fragment

A source is cleaned, parsed, freed of its outer `svg`, given property names and written.
-/

namespace IconCompiler.Markup

/-- What is done to a source before it is parsed. -/
abbrev Cleaner := String → Except SourceError String

namespace Cleaner

/-- Takes out what a component does not need. -/
def standard : Cleaner :=
  clean

/-- Leaves the source as it is. -/
def identity : Cleaner :=
  .ok

/-- Replaces every occurrence of one text by another. -/
def replacing (old new : String) : Cleaner :=
  fun text => .ok (String.ofList (Text.replaceAll old.toList new.toList text.toList))

end Cleaner

/-- The fragment of a document. -/
def Document.fragment (doc : Document) : String :=
  renderNodes (nodesWithPropNames doc.content)

/-- The fragment of a source. -/
def compileFragment (source : String) (cleaner : Cleaner) : Except SourceError String :=
  match cleaner source with
  | .error e => .error e
  | .ok cleaned =>
    match Document.parse cleaned with
    | .error e => .error e
    | .ok doc => .ok doc.fragment

end IconCompiler.Markup
