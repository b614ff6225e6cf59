import IconCompiler.Markup.Attribute

/-!
# The events of a source

A source is a sequence of events: tags, texts and the constructs between them. `scanMarkup` reads
the one construct that an opening angle bracket starts.
-/

namespace IconCompiler.Markup

/-- A tag that can have attributes. -/
structure Tag where
  /-- The name, which may be empty. -/
  name : String
  /-- The text after the name, in which the attributes stand. -/
  body : List Char
  deriving Repr, DecidableEq

/-- The attributes of a tag, up to the first fault. -/
def Tag.attributes (tag : Tag) : AttributeList :=
  readAttributes [] (byteLength tag.name.toList) tag.body

/-- A piece of a source. -/
inductive Event where
  /-- A start tag. -/
  | start (tag : Tag)
  /-- An empty-element tag. -/
  | empty (tag : Tag)
  /-- A closing tag. -/
  | close (name : String)
  /-- A text between tags, as it stands in the source. -/
  | text (s : String)
  /-- The content of a CDATA section. -/
  | cdata (s : String)
  /-- A comment. -/
  | comment (s : String)
  /-- A processing instruction, or the declaration at the front of a source. -/
  | instruction (s : String)
  /-- A document type. -/
  | doctype (s : String)
  deriving Repr, DecidableEq

/-- What an opening angle bracket starts. -/
inductive Construct where
  /-- An event that takes `size` bytes, and the text that follows it. -/
  | event (e : Event) (size : Nat) (rest : List Char)
  /-- A fault, which is found `shift` bytes after the angle bracket. -/
  | fault (f : Fault) (shift : Nat)

/-- The name at the front of a tag's content, and the text after it. -/
def splitTagName (content : List Char) : List Char × List Char :=
  (content.takeWhile fun c => !isMarkupSpace c, content.dropWhile fun c => !isMarkupSpace c)

/-- The tag with the given content. -/
def Tag.ofContent (content : List Char) : Tag :=
  let p := splitTagName content
  ⟨String.ofList p.1, p.2⟩

/-- The event of a tag that is no closing tag: a slash at the end makes it an empty element. -/
def tagEvent (content : List Char) : Event :=
  if content.getLast? = some '/' then .empty (.ofContent content.dropLast)
  else .start (.ofContent content)

/-- The name that a closing tag with the given content after its slash closes: the content without
    the space at its end, unless there is nothing else. -/
def closeName (content : List Char) : String :=
  String.ofList (if content.all isMarkupSpace then content else trimMarkupEnd content)

/-- Whether closing a name is possible, given the open names, the innermost first. -/
def closeFault? (opened : List String) (name : String) : Option Fault :=
  match opened with
  | [] => some (.unmatchedClose name)
  | innermost :: _ => if innermost = name then none else some (.mismatchedClose innermost name)

/-- Reads a comment after `<!`. -/
def scanComment (cs : List Char) : Construct :=
  if ['-', '-'].isPrefixOf cs then
    match cutAt ['-', '-', '>'] (cs.drop 2) with
    | some (body, rest) => .event (.comment (String.ofList body)) (byteLength body + 7) rest
    | none => .fault .commentNotClosed 0
  else .fault .commentNotClosed 0

/-- The mark that opens a CDATA section, after `<!`. -/
def cdataOpen : List Char :=
  ['[', 'C', 'D', 'A', 'T', 'A', '[']

/-- Reads a CDATA section after `<!`. -/
def scanCData (cs : List Char) : Construct :=
  if cdataOpen.isPrefixOf cs then
    match cutAt [']', ']', '>'] (cs.drop 7) with
    | some (body, rest) => .event (.cdata (String.ofList body)) (byteLength body + 12) rest
    | none => .fault .cdataNotClosed 0
  else .fault .cdataNotClosed 0

/-- The word that a document type starts with, after `<!` and in capitals. -/
def doctypeWord : List Char :=
  ['D', 'O', 'C', 'T', 'Y', 'P', 'E']

/-- Reads a document type after `<!`. Its word may be written in either case; angle brackets inside
    have to match, and something other than space has to follow the word. -/
def scanDoctype (cs : List Char) : Construct :=
  match cutBalanced 0 cs with
  | some (body, rest) =>
    if (body.take 7).map Char.toUpper = doctypeWord then
      if (body.drop 7).all isMarkupSpace then .fault .doctypeWithoutName (byteLength body + 2)
      else .event (.doctype (String.ofList (body.drop 7))) (byteLength body + 3) rest
    else .fault .doctypeNotClosed 0
  | none => .fault .doctypeNotClosed 0

/-- Reads a processing instruction after `<?`. The question mark that ends it is not the one that
    starts it. -/
def scanInstruction (cs : List Char) : Construct :=
  match cs with
  -- in `<?>` the question mark that starts the instruction also ends it
  | '>' :: _ => .fault .instructionNotClosed 0
  | _ =>
    match cutAt ['?', '>'] cs with
    | some (body, rest) => .event (.instruction (String.ofList body)) (byteLength body + 4) rest
    | none => .fault .instructionNotClosed 0

/-- Reads a closing tag after `</`. -/
def scanClose (opened : List String) (cs : List Char) : Construct :=
  match cutTag none cs with
  | some (content, rest) =>
    match closeFault? opened (closeName content) with
    | some f => .fault f 0
    | none => .event (.close (closeName content)) (byteLength content + 3) rest
  | none => .fault .tagNotClosed 0

/-- Reads a start tag or an empty-element tag after `<`. -/
def scanTag (cs : List Char) : Construct :=
  match cutTag none cs with
  | some (content, rest) => .event (tagEvent content) (byteLength content + 2) rest
  | none => .fault .tagNotClosed 0

/-- Reads the construct that follows an opening angle bracket; `opened` holds the open names, the
    innermost first. -/
def scanMarkup (opened : List String) : List Char → Construct
  | [] => .fault .tagNotClosed 0
  | '!' :: '[' :: cs => scanCData ('[' :: cs)
  | '!' :: '-' :: cs => scanComment ('-' :: cs)
  | '!' :: 'D' :: cs => scanDoctype ('D' :: cs)
  | '!' :: 'd' :: cs => scanDoctype ('d' :: cs)
  | '!' :: _ => .fault .unknownMarkup 0
  | '?' :: cs => scanInstruction cs
  | '/' :: cs => scanClose opened cs
  | c :: cs => scanTag (c :: cs)

section

variable {cs rest : List Char} {e : Event} {size : Nat}

/-- What follows a comment is no longer than the text behind the opening bracket. -/
private theorem scanComment_length (h : scanComment cs = .event e size rest) :
    rest.length ≤ cs.length := by
  unfold scanComment at h
  split at h
  · split at h
    · rename_i hc
      cases h
      have := cutAt_length hc
      simp only [List.length_drop] at this
      omega
    · cases h
  · cases h

/-- What follows a character data section is no longer than the text behind the opening bracket. -/
private theorem scanCData_length (h : scanCData cs = .event e size rest) :
    rest.length ≤ cs.length := by
  unfold scanCData at h
  split at h
  · split at h
    · rename_i hc
      cases h
      have := cutAt_length hc
      simp only [List.length_drop] at this
      omega
    · cases h
  · cases h

/-- What follows a document type is no longer than the text behind the opening bracket. -/
private theorem scanDoctype_length (h : scanDoctype cs = .event e size rest) :
    rest.length ≤ cs.length := by
  unfold scanDoctype at h
  split at h
  · rename_i hc
    split at h
    · split at h
      · cases h
      · cases h
        exact Nat.le_of_lt (cutBalanced_length hc)
    · cases h
  · cases h

/-- What follows an instruction is no longer than the text behind the opening bracket. -/
private theorem scanInstruction_length (h : scanInstruction cs = .event e size rest) :
    rest.length ≤ cs.length := by
  unfold scanInstruction at h
  split at h
  · cases h
  · split at h
    · rename_i hc
      cases h
      exact cutAt_length hc
    · cases h

/-- What follows a closing tag is no longer than the text behind the opening bracket. -/
private theorem scanClose_length {opened : List String}
    (h : scanClose opened cs = .event e size rest) : rest.length ≤ cs.length := by
  unfold scanClose at h
  split at h
  · rename_i hc
    split at h
    · cases h
    · cases h
      exact Nat.le_of_lt (cutTag_length hc)
  · cases h

/-- What follows a start tag is no longer than the text behind the opening bracket. -/
private theorem scanTag_length (h : scanTag cs = .event e size rest) : rest.length ≤ cs.length := by
  unfold scanTag at h
  split at h
  · rename_i hc
    cases h
    exact Nat.le_of_lt (cutTag_length hc)
  · cases h

/-- What follows a construct is no longer than the construct and what follows it, so readers of
    constructs come to an end. -/
theorem scanMarkup_length {opened : List String} (h : scanMarkup opened cs = .event e size rest) :
    rest.length ≤ cs.length := by
  unfold scanMarkup at h
  split at h
  · cases h
  · exact Nat.le_succ_of_le (scanCData_length h)
  · exact Nat.le_succ_of_le (scanComment_length h)
  · exact Nat.le_succ_of_le (scanDoctype_length h)
  · exact Nat.le_succ_of_le (scanDoctype_length h)
  · cases h
  · exact Nat.le_succ_of_le (scanInstruction_length h)
  · exact Nat.le_succ_of_le (scanClose_length h)
  · exact scanTag_length h

end

end IconCompiler.Markup
