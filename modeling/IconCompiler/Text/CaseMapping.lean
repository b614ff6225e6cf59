import IconCompiler.Text.CaseTables
import IconCompiler.Text.Cased

/-!
# Case mapping

Full case mapping of single characters, and lower-casing of whole texts. The two differ for one
letter only: in a text, a capital sigma that ends a word becomes a final sigma.
-/

namespace IconCompiler.Text

/-- The image of a character: its expansion if it has one, else its code point moved by the run it
    lies in, else the character itself. -/
def mapCase (expansions : List (Nat × List Nat)) (runs : List CaseRun) (c : Char) : List Char :=
  match expansions.lookup c.toNat with
  | some image => image.map Char.ofNat
  | none =>
    match runs.find? fun r => r.contains c.toNat with
    | some r => [Char.ofNat (c.toNat + r.shift).toNat]
    | none => [c]

/-- The upper-case form of a character, which may have several characters. -/
def upperChar (c : Char) : List Char :=
  mapCase upperExpansions upperRuns c

/-- The lower-case form of a character taken on its own. -/
def lowerChar (c : Char) : List Char :=
  mapCase lowerExpansions lowerRuns c

/-- Whether the first character that is not case-ignorable is cased. -/
def meetsCased (cs : List Char) : Bool :=
  match cs.dropWhile isCaseIgnorable with
  | [] => false
  | c :: _ => isCased c

/-- The lower-case form of a text that follows the characters `before`, the nearest first. A
    capital sigma is final if a cased letter stands before it and none after it. -/
def lowerAfter (before : List Char) : List Char → List Char
  | [] => []
  | c :: rest =>
    let image :=
      -- the nearest character before is the first of `before`
      if c = 'Σ' then [if meetsCased before && !meetsCased rest then 'ς' else 'σ']
      else lowerChar c
    image ++ lowerAfter (c :: before) rest

/-- The lower-case form of a text. -/
def lower (cs : List Char) : List Char :=
  lowerAfter [] cs

end IconCompiler.Text
