import IconCompiler.Text.CaseMapping
import IconCompiler.Text.Numeric
import IconCompiler.Text.WhiteSpace

/-!
# Names of components, attributes and style keys

Hyphenated names become one word. Component names start every word with a capital, camel-case names
all but the first, and style keys follow the one or the other rule by their vendor mark.
-/

namespace IconCompiler.Naming

open IconCompiler.Text

/-- Whether a character ends a word of a component name. -/
def isSeparator (c : Char) : Bool :=
  c = '-' || isWhiteSpace c

/-- The component name of a text that starts a word (`fresh`) or stands inside one. -/
def componentChars : (fresh : Bool) → List Char → List Char
  | _, [] => []
  | fresh, c :: cs =>
    if isSeparator c then componentChars true cs
    else (if fresh then upperChar c else lowerChar c) ++ componentChars false cs

/-- The component name of a base name: words are parted by hyphens and white space, and each is
    written with a capital and the rest in lower case. -/
def componentName (name : String) : String :=
  String.ofList (componentChars true name.toList)

/-- The parts of a text between hyphens; there is one more than there are hyphens. -/
def segments : List Char → List (List Char)
  | [] => [[]]
  | c :: cs =>
    if c = '-' then [] :: segments cs
    else
      match segments cs with
      | [] => [[c]]
      | s :: rest => (c :: s) :: rest

/-- A segment with a capital at its front and the rest in lower case. -/
def capitalize : List Char → List Char
  | [] => []
  | c :: cs => upperChar c ++ lower cs

/-- The camel-case form of a hyphenated text: the first segment in lower case, the others
    capitalized. -/
def camelChars (cs : List Char) : List Char :=
  match segments cs with
  | [] => []
  | s :: rest => lower s ++ rest.flatMap capitalize

/-- The camel-case form of a hyphenated name. -/
def camelCase (name : String) : String :=
  String.ofList (camelChars name.toList)

/-- The style-object key of a trimmed property name. Custom properties are kept; a vendor mark other
    than `-ms-` capitalizes the whole name. -/
def stylePropertyChars : List Char → List Char
  | '-' :: '-' :: rest => '-' :: '-' :: rest
  | '-' :: rest =>
    if ['m', 's', '-'].isPrefixOf rest then camelChars rest else componentChars true rest
  | cs => camelChars cs

/-- The style-object key of a property name. -/
def stylePropertyName (name : String) : String :=
  String.ofList (stylePropertyChars (trim name.toList))

/-- Whether a character can start a bare object key. -/
def startsIdentifier (c : Char) : Bool :=
  isAlphabetic c || c = '_' || c = '$'

/-- Whether a character can follow in a bare object key. -/
def continuesIdentifier (c : Char) : Bool :=
  isAlphanumeric c || c = '_' || c = '$'

/-- Whether a text can be written as an object key without quotes. -/
def isIdentifier : List Char → Bool
  | [] => false
  | c :: cs => startsIdentifier c && cs.all continuesIdentifier

end IconCompiler.Naming
