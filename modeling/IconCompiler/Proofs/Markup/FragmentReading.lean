import IconCompiler.Markup.Fragment
import IconCompiler.Proofs.Jsx.Styles
import IconCompiler.Proofs.Markup.PropNames
import IconCompiler.Proofs.Markup.WrittenTokens
import IconCompiler.Proofs.Naming

/-!
# Reading written fragments

A fragment is written token by token, every character in a role: of a text, of a name, of a value.
A reader finds the same roles exactly if names and texts hold no syntax and the strings end where
they are meant to. Then every brace outside strings is one of a style.

## Key results

- `map_fst_marks`: a token is written with the characters of its marks
- `follow_marks`: where a token can be followed
- `readFragment_renderTokens_iff`: where tokens are read in the roles in which they are written
- `readFragment_of_compileFragment`: the fragments of sources
-/

namespace IconCompiler.Markup

open Jsx

/-! ## The roles that are meant -/

/-- The value of a property: a text between quotes, or an object in an expression. -/
def AttrValue.marks : AttrValue → List (Char × Role)
  | .text s => marked .quote ['"'] ++ marked .quoted s.toList ++ marked .quote ['"']
  | .style declarations =>
    marked .brace ['{', '{'] ++ marked .code [' '] ++
      declarations.entries.flatMap declarationMarks ++ marked .code [' '] ++
        marked .brace ['}', '}']

/-- A property with the space before it. -/
def propertyMarks (e : String × AttrValue) : List (Char × Role) :=
  marked .tag (' ' :: e.1.toList ++ ['=']) ++ e.2.marks

/-- A token with the roles in which it is written. -/
def Token.marks : Token → List (Char × Role)
  | .start tag attrs =>
    marked .bracket ['<'] ++ (marked .tag tag.toList ++ attrs.flatMap propertyMarks ++
      marked .bracket ['>'])
  | .stop tag => marked .bracket ['<', '/'] ++ marked .tag tag.toList ++ marked .bracket ['>']
  | .text s => marked .text s.toList

/-- A property is written with the characters of its marks. -/
private theorem map_fst_propertyMarks (e : String × AttrValue) :
    (propertyMarks e).map Prod.fst = renderEntry e := by
  obtain ⟨name, value⟩ := e
  cases value with
  | text s =>
    simp [propertyMarks, AttrValue.marks, map_fst_marked, renderEntry, AttrValue.renderChars]
  | style declarations =>
    simp [propertyMarks, AttrValue.marks, map_fst_marked, renderEntry, AttrValue.renderChars,
      Style.renderChars, List.map_flatMap, map_fst_declarationMarks]

/-- A token is written with the characters of its marks. -/
theorem Token.map_fst_marks (t : Token) : t.marks.map Prod.fst = t.renderChars := by
  cases t with
  | text s => exact map_fst_marked _ _
  | stop tag => simp [Token.marks, map_fst_marked, Token.renderChars]
  | start tag attrs =>
    simp [Token.marks, map_fst_marked, Token.renderChars, startText, List.map_flatMap,
      map_fst_propertyMarks]

/-! ## Names, texts and strings -/

/-- The characters that are no part of a text. -/
def textSyntax : List Char :=
  ['<', '>', '{', '}']

/-- The characters that are no part of a name. -/
def tagSyntax : List Char :=
  ['<', '>', '{', '}', '"', '\'', '/']

/-- Whether the names and texts of a token hold no syntax. -/
def Token.isPlain : Token → Bool
  | .start tag attrs =>
    avoids tagSyntax tag.toList && attrs.all fun e => avoids tagSyntax e.1.toList
  | .stop tag => avoids tagSyntax tag.toList
  | .text s => avoids textSyntax s.toList

/-- Whether the strings of a value end where they are meant to: no double quote stands in a text,
    and no end of a line between the quotes of a style. -/
def AttrValue.closesStrings : AttrValue → Bool
  | .text s => avoids ['"'] s.toList
  | .style declarations =>
    declarations.entries.all fun e => keyIsOnOneLine e.1 && valueIsOnOneLine e.2

/-- Whether the strings of a token end where they are meant to. -/
def Token.closesStrings : Token → Bool
  | .start _ attrs => attrs.all fun e => e.2.closesStrings
  | .stop _ | .text _ => true

/-- Whether the numbers of a value are number literals. -/
def AttrValue.HasNumberLiterals : AttrValue → Prop
  | .text _ => True
  | .style declarations =>
    ∀ e ∈ declarations.entries, ∀ s, e.2 = .number s → Style.isNumberLiteral s.toList = true

/-- Whether the numbers of a token are number literals. -/
def Token.HasNumberLiterals : Token → Prop
  | .start _ attrs => ∀ e ∈ attrs, e.2.HasNumberLiterals
  | .stop _ | .text _ => True

/-- A text is followed to its end exactly if it holds no brackets or braces. -/
private theorem follow_text (cs : List Char) :
    follow .text (marked .text cs) = if avoids textSyntax cs then some .text else none := by
  -- any other character leads back into the text
  refine follow_marked_of_avoids (fun c hc => ?_) (by decide) cs
  simp only [textSyntax, List.mem_cons, List.not_mem_nil, or_false, not_or] at hc
  simp [Reader.step, hc]

/-- A tag goes on over all characters that neither end it nor open a value. -/
private theorem follow_tag (cs : List Char) :
    follow .tag (marked .tag cs) = if avoids tagSyntax cs then some .tag else none := by
  refine follow_marked_of_avoids (fun c hc => ?_) (by decide) cs
  simp only [tagSyntax, List.mem_cons, List.not_mem_nil, or_false, not_or] at hc
  simp [Reader.step, Reader.stepTag, hc]

/-- A value is followed to its end exactly if it holds no double quote. -/
private theorem follow_value (cs : List Char) :
    follow (.value '"') (marked .quoted cs) =
      if avoids ['"'] cs then some (.value '"') else none := by
  refine follow_marked_of_avoids (fun c hc => ?_) (by decide) cs
  simp [Reader.step, List.mem_singleton.not.1 hc]

/-- A value is followed exactly if its strings end where they are meant to. -/
theorem AttrValue.follow_marks {value : AttrValue} (h : value.HasNumberLiterals) :
    follow .tag value.marks = if value.closesStrings then some .tag else none := by
  cases value with
  | text s =>
    have hopen : follow .tag (marked .quote ['"']) = some (.value '"') := rfl
    rw [AttrValue.marks, follow_append, follow_append, hopen, Option.bind_some, follow_value,
      AttrValue.closesStrings]
    cases avoids ['"'] s.toList <;> rfl
  | style declarations =>
    -- the second brace is open inside the expression
    have hopen : follow .tag (marked .brace ['{', '{'] ++ marked .code [' ']) =
        some (.code true 1) := rfl
    rw [AttrValue.marks, follow_append, follow_append, follow_append, hopen, Option.bind_some,
      follow_flatMap fun e he => follow_declarationMarks true 1 (h e he), AttrValue.closesStrings]
    cases declarations.entries.all fun e => keyIsOnOneLine e.1 && valueIsOnOneLine e.2 <;> rfl

/-- A property is followed exactly if its name holds no syntax and its strings end where they are
    meant to. -/
private theorem follow_propertyMarks {e : String × AttrValue} (h : e.2.HasNumberLiterals) :
    follow .tag (propertyMarks e) =
      if avoids tagSyntax e.1.toList && e.2.closesStrings then some .tag else none := by
  -- the space and the equals sign are no syntax
  have hname : avoids tagSyntax (' ' :: e.1.toList ++ ['=']) = avoids tagSyntax e.1.toList := by
    simp [avoids, tagSyntax]
  rw [propertyMarks, follow_append, follow_tag, hname]
  cases avoids tagSyntax e.1.toList with
  | false => rfl
  | true => rw [if_pos rfl, Option.bind_some, AttrValue.follow_marks h, Bool.true_and]

/-- Behind the bracket that opens a tag, only a slash is read otherwise than in the tag. -/
private theorem follow_opening {m : Char × Role} (hm : m ≠ ('/', .bracket))
    (ms : List (Char × Role)) :
    follow .opening (m :: ms) = follow .tag (m :: ms) := by
  obtain ⟨c, r⟩ := m
  by_cases hc : c = '/'
  · -- in the tag a slash is refused, and here it is not what is marked
    subst hc
    have hr : Role.bracket ≠ r := fun h => hm (by rw [h])
    simp [follow, Reader.step, Reader.stepTag, hr]
  · simp [follow, Reader.step, hc]

/-- A start tag is read behind its bracket as it would be read inside the tag, for its first mark is
    no slash that closes. -/
private theorem follow_opening_startMarks (tag : String) (attrs : List (String × AttrValue)) :
    follow .opening (marked .tag tag.toList ++ attrs.flatMap propertyMarks ++
      marked .bracket ['>']) = follow .tag (marked .tag tag.toList ++
        attrs.flatMap propertyMarks ++ marked .bracket ['>']) := by
  cases tag.toList with
  | cons c cs => exact follow_opening (by simp) _
  | nil =>
    cases attrs with
    | nil => exact follow_opening (by simp) _
    | cons e es => exact follow_opening (by simp) _

/-- A token is followed to its end, back into the text around it, exactly if its names and texts
    hold no syntax and its strings end where they are meant to. -/
theorem Token.follow_marks {t : Token} (h : t.HasNumberLiterals) :
    follow .text t.marks = if t.isPlain && t.closesStrings then some .text else none := by
  cases t with
  | text s =>
    rw [Token.marks, follow_text, Token.isPlain, Token.closesStrings, Bool.and_true]
  | stop tag =>
    have hopen : follow .text (marked .bracket ['<', '/']) = some .tag := rfl
    rw [Token.marks, follow_append, follow_append, hopen, Option.bind_some, follow_tag,
      Token.isPlain, Token.closesStrings, Bool.and_true]
    cases avoids tagSyntax tag.toList <;> rfl
  | start tag attrs =>
    have hopen : follow .text (marked .bracket ['<']) = some .opening := rfl
    -- the name, then all properties from the tag back into the tag
    rw [Token.marks, follow_append, hopen, Option.bind_some, follow_opening_startMarks,
      follow_append, follow_append, follow_tag, Token.isPlain, Token.closesStrings]
    cases avoids tagSyntax tag.toList with
    | false => rfl
    | true =>
      -- every property leads from the tag back into the tag
      have hproperties := follow_flatMap fun e he => follow_propertyMarks (h e he)
      have hall : (attrs.all fun e => avoids tagSyntax e.1.toList && e.2.closesStrings) =
          ((attrs.all fun e => avoids tagSyntax e.1.toList) &&
            attrs.all fun e => e.2.closesStrings) := by
        rw [Bool.eq_iff_iff]
        simp only [Bool.and_eq_true, List.all_eq_true, forall₂_and]
      rw [if_pos rfl, Option.bind_some, hproperties, hall, Bool.true_and]
      cases (attrs.all fun e => avoids tagSyntax e.1.toList) &&
        attrs.all fun e => e.2.closesStrings <;> rfl

/-- Tokens are read in the roles in which they are written exactly if their names and texts hold no
    syntax and their strings end where they are meant to. -/
theorem readFragment_renderTokens_iff {ts : List Token} (h : ∀ t ∈ ts, t.HasNumberLiterals) :
    readFragment (String.ofList (renderTokens ts)) = some (ts.flatMap Token.marks) ↔
      ∀ t ∈ ts, t.isPlain = true ∧ t.closesStrings = true := by
  -- the marks spell the tokens, so only the roles are in question
  have hchars : (ts.flatMap Token.marks).map Prod.fst = renderTokens ts := by
    simp [renderTokens, List.map_flatMap, Token.map_fst_marks]
  rw [readFragment, String.toList_ofList, readFrom_eq_some_iff,
    follow_flatMap fun t ht => Token.follow_marks (h t ht)]
  simp [hchars]

/-- A brace in a text opens an expression. -/
example : readFragment "<text>\x7b</text>" = none := by
  decide

/-! ## Fragments of sources -/

/-- The tokens of the fragment of a document. -/
def Document.fragmentTokens (doc : Document) : List Token :=
  nodesTokens (nodesWithPropNames doc.content)

/-- The numbers of a parsed document are number literals. -/
private theorem hasNumberLiterals_of_mem_tokens {x : String} {doc : Document}
    (h : Document.parse x = .ok doc) {t : Token} (ht : t ∈ doc.tokens) : t.HasNumberLiterals := by
  cases t with
  | stop | text => trivial
  | start tag attrs =>
    intro e he
    obtain ⟨a, ha⟩ := exists_attribute_of_mem_tokens h ht he
    -- a style was read from the value, and anything else is a text
    rw [Attribute.entry?] at ha
    split at ha
    · obtain ⟨s, -, rfl⟩ := Option.map_eq_some_iff.1 ha
      exact fun d hd _ hs => isNumberLiteral_of_mem_read hd hs
    · cases ha
      trivial

set_option maxRecDepth 4000 in
/-- A property name holds no syntax that the name of the attribute does not hold. -/
private theorem avoids_tagSyntax_propName {name : String}
    (h : avoids tagSyntax name.toList = true) :
    avoids tagSyntax (propName name).toList = true := by
  rw [propName]
  split
  · exact h
  · split
    · rename_i target hlookup
      have htable : ∀ e ∈ renamedAttributes, avoids tagSyntax e.2.toList = true := by decide
      exact htable (name, target) (mem_of_lookup_eq_some hlookup)
    · have hcaseless : tagSyntax.all Text.isCaseless = true := by decide
      rw [avoids, List.all_eq_true] at h ⊢
      rw [Naming.camelCase, String.toList_ofList]
      intro c hc
      by_cases hmem : c ∈ tagSyntax
      · -- syntax has no case, so it was in the name already
        exact h c (Naming.mem_of_mem_camelChars (List.all_eq_true.1 hcaseless c hmem) hc)
      · simpa using hmem

section

variable {t : Token}

/-- Renaming properties leaves numbers as they are. -/
theorem Token.HasNumberLiterals.withPropNames (h : t.HasNumberLiterals) :
    t.withPropNames.HasNumberLiterals := by
  cases t with
  | stop | text => exact h
  | start tag attrs =>
    intro p hp
    obtain ⟨e, he, rfl⟩ := exists_of_mem_propEntries hp
    exact h e he

/-- Renaming properties brings no syntax into names. -/
private theorem Token.isPlain_withPropNames (h : t.isPlain = true) :
    t.withPropNames.isPlain = true := by
  cases t with
  | stop | text => exact h
  | start tag attrs =>
    simp only [Token.isPlain, Token.withPropNames, Bool.and_eq_true, List.all_eq_true] at h ⊢
    refine ⟨h.1, fun p hp => ?_⟩
    obtain ⟨e, he, rfl⟩ := exists_of_mem_propEntries hp
    exact avoids_tagSyntax_propName (h.2 e he)

/-- Renaming properties leaves strings as they are. -/
private theorem Token.closesStrings_withPropNames (h : t.closesStrings = true) :
    t.withPropNames.closesStrings = true := by
  cases t with
  | stop | text => exact h
  | start tag attrs =>
    simp only [Token.closesStrings, Token.withPropNames, List.all_eq_true] at h ⊢
    intro p hp
    obtain ⟨e, he, rfl⟩ := exists_of_mem_propEntries hp
    exact h e he

end

/-- A fragment is its tokens as they are written. -/
private theorem toList_fragment (doc : Document) :
    doc.fragment.toList = renderTokens doc.fragmentTokens := by
  rw [Document.fragment, renderNodes, String.toList_ofList, renderNodesChars_eq]
  rfl

/-- The numbers of the fragment of a parsed document are number literals. -/
private theorem hasNumberLiterals_of_mem_fragmentTokens {x : String} {doc : Document}
    (h : Document.parse x = .ok doc) : ∀ t ∈ doc.fragmentTokens, t.HasNumberLiterals := by
  rw [Document.fragmentTokens, nodesTokens_withPropNames, List.forall_mem_map]
  intro t ht
  exact (hasNumberLiterals_of_mem_tokens h (Document.mem_tokens_of_mem_content ht)).withPropNames

/-- A fragment spells the tokens of a document with texts and values as they stand. Where its
    strings end as they are meant to, it is read in the roles in which it was written, with every
    brace outside strings one of a style, exactly if its names and texts hold no syntax. All of that
    is so for a source whose own names, texts and strings are such. -/
theorem readFragment_of_compileFragment {x jsx : String} {cleaner : Cleaner}
    (h : compileFragment x cleaner = .ok jsx) :
    ∃ c doc, cleaner x = .ok c ∧ Document.parse c = .ok doc ∧
      jsx.toList = renderTokens doc.fragmentTokens ∧
      ((∀ t ∈ doc.fragmentTokens, t.closesStrings = true) →
        (readFragment jsx = some (doc.fragmentTokens.flatMap Token.marks) ↔
          ∀ t ∈ doc.fragmentTokens, t.isPlain = true)) ∧
      ((∀ t ∈ doc.tokens, t.isPlain = true ∧ t.closesStrings = true) →
        readFragment jsx = some (doc.fragmentTokens.flatMap Token.marks)) := by
  unfold compileFragment at h
  split at h
  · cases h
  · rename_i c hc
    split at h
    · cases h
    · rename_i doc hdoc
      cases h
      -- for the tokens of the fragment as for any others
      have hread := readFragment_renderTokens_iff (hasNumberLiterals_of_mem_fragmentTokens hdoc)
      rw [← toList_fragment, String.ofList_toList, forall₂_and] at hread
      refine ⟨c, doc, hc, hdoc, toList_fragment doc, ?_, ?_⟩
      · intro hstrings
        rw [hread]
        exact and_iff_left hstrings
      · -- the names of the source hold no syntax, so those of its properties do not either
        intro hsource
        rw [hread, ← forall₂_and, Document.fragmentTokens, nodesTokens_withPropNames,
          List.forall_mem_map]
        intro t ht
        have hplain := hsource t (Document.mem_tokens_of_mem_content ht)
        exact ⟨Token.isPlain_withPropNames hplain.1, Token.closesStrings_withPropNames hplain.2⟩

/-- A source with a quoted key, an escaped value and a number in a style. -/
def labelledSource : String :=
  "<svg><!-- c --><g style='--a: \"b\"; opacity:.5' fill-rule='x'>1 &lt; 2</g></svg>"

/-- The fragment of `labelledSource`. -/
def labelledFragment : String :=
  "<g style=\x7b\x7b \"--a\": \"\\\"b\\\"\", opacity: .5,  \x7d\x7d fillRule=\"x\">1 &lt; 2</g>"

/-- A comment is left out, a name is changed, and everything that stays is read in its role. -/
theorem readFragment_labelledSource :
    ∃ c doc, Cleaner.standard labelledSource = .ok c ∧ Document.parse c = .ok doc ∧
      readFragment labelledFragment = some (doc.fragmentTokens.flatMap Token.marks) := by
  have hcompile : (compileFragment labelledSource .standard).toOption = some labelledFragment := by
    decide +kernel
  obtain ⟨c, doc, hc, hdoc, -, -, hsource⟩ :=
    readFragment_of_compileFragment (ok_of_toOption hcompile)
  refine ⟨c, doc, hc, hdoc, hsource ?_⟩
  have htokens : ((Cleaner.standard labelledSource).toOption.bind sourceTokens?).map
      (fun ts => ts.all fun t => t.isPlain && t.closesStrings) = some true := by
    decide +kernel
  rw [hc] at htokens
  simpa [Except.toOption, (parse_eq_ok_iff.1 hdoc).2] using htokens

/-- Texts are written as they stand, braces and all. -/
theorem not_isPlain_of_braces :
    ¬∀ (x jsx : String) (cleaner : Cleaner), cleaner = .standard ∨ cleaner = .identity →
      compileFragment x cleaner = .ok jsx →
      ∀ c doc, cleaner x = .ok c → Document.parse c = .ok doc →
        (∀ s, .text s ∈ doc.fragmentTokens → avoids textSyntax s.toList = true) ∧
          ∀ t ∈ doc.fragmentTokens, t.closesStrings = true := by
  intro hall
  have hcompile : (compileFragment "<text>\x7ba\x7d</text>" .identity).toOption =
      some "<text>\x7ba\x7d</text>" := by
    decide +kernel
  have hparse : (Document.parse "<text>\x7ba\x7d</text>").toOption =
      some ⟨[.element "text" .empty [.text "\x7ba\x7d"]]⟩ := by
    decide +kernel
  have hplain := hall _ _ _ (.inr rfl) (ok_of_toOption hcompile) _ _ rfl (ok_of_toOption hparse)
  exact absurd (hplain.1 "\x7ba\x7d" (by decide +kernel)) (by decide +kernel)

end IconCompiler.Markup
