import IconCompiler.Markup.Jsx
import IconCompiler.Proofs.Markup.Building

/-!
# Writing and reading tokens

Nodes are written token by token, with every value between double quotes. A text that is read while
some elements are open has tokens, too, if it is complete and closes these elements.

## Key results

- `renderNodesChars_eq`: nodes are written token by token
- `readTokens?_event`, `readTokens?_append_text`: what is read in front, and what is read behind it
- `exists_of_readTokens?`: what markup that is read starts with
-/

namespace IconCompiler.Markup

open EventView Reading

/-! ## Written tokens -/

/-- An entry as it is written in a tag, after a space. -/
def renderEntry (e : String × AttrValue) : List Char :=
  ' ' :: e.1.toList ++ e.2.renderChars

/-- A start tag as it is written between its brackets. -/
def startText (tag : String) (attrs : List (String × AttrValue)) : List Char :=
  tag.toList ++ attrs.flatMap renderEntry

/-- A token as it is written. -/
def Token.renderChars : Token → List Char
  | .start tag attrs => '<' :: (startText tag attrs ++ ['>'])
  | .stop tag => '<' :: '/' :: (tag.toList ++ ['>'])
  | .text s => s.toList

/-- Tokens as they are written, in order. -/
def renderTokens (ts : List Token) : List Char :=
  ts.flatMap Token.renderChars

theorem renderTokens_cons (t : Token) (ts : List Token) :
    renderTokens (t :: ts) = t.renderChars ++ renderTokens ts :=
  rfl

mutual

/-- A node is written as its tokens. -/
private theorem Node.renderChars_eq (n : Node) : n.renderChars = renderTokens n.tokens := by
  cases n with
  | text s => simp [Node.renderChars_text, Node.tokens, renderTokens, Token.renderChars]
  | element tag attrs children =>
    have hattrs : Attributes.renderChars attrs = attrs.entries.flatMap renderEntry := rfl
    rw [Node.renderChars_element, renderNodesChars_eq children, hattrs]
    simp [Node.tokens, renderTokens, Token.renderChars, startText]

/-- Nodes are written token by token. -/
theorem renderNodesChars_eq (ns : List Node) :
    renderNodesChars ns = renderTokens (nodesTokens ns) := by
  cases ns with
  | nil => rfl
  | cons n ns =>
    rw [renderNodesChars_cons, Node.renderChars_eq n, renderNodesChars_eq ns]
    simp [nodesTokens, renderTokens]

end

/-! ## Tokens of a text -/

/-- The tokens of a text that is read while the elements `opened` are open, if the text is complete
    and closes all of them. -/
def readTokens? (opened : List String) (cs : List Char) : Option (List Token) :=
  if (run opened 0 cs).ending = .complete [] then
    tokensFrom? opened.length (run opened 0 cs).views
  else none

/-- At the end of a text the tokens are complete if no element is open. -/
theorem readTokens?_nil (opened : List String) :
    readTokens? opened [] = if opened = [] then some [] else none := by
  simp [readTokens?, run_nil, Reading.views, tokensFrom?_nil]

/-- A construct that breaks off stands for nothing. -/
private theorem readTokens?_fault {opened : List String} {cs : List Char} {f : Fault} {shift : Nat}
    (h : scanMarkup opened cs = .fault f shift) : readTokens? opened ('<' :: cs) = none := by
  simp [readTokens?, run_fault h]

/-- A construct stands for its tokens, and what follows is read with the names
    that it leaves open. -/
theorem readTokens?_event {opened : List String} {cs rest : List Char} {e : Event} {size : Nat}
    (h : scanMarkup opened cs = .event e size rest) :
    readTokens? opened ('<' :: cs) = (tokensFrom? opened.length [e.view]).bind fun ts =>
      (readTokens? (e.openedAfter opened) rest).map (ts ++ ·) := by
  -- what follows is read at another offset, which its tokens do not show
  obtain ⟨hviews, hending⟩ := run_shift (e.openedAfter opened) (0 + size) 0 rest
  rw [readTokens?, run_event h, readTokens?]
  show (if (run (e.openedAfter opened) (0 + size) rest).ending = .complete [] then
    tokensFrom? opened.length (e.view :: (run (e.openedAfter opened) (0 + size) rest).views)
      else none) = _
  rw [tokensFrom?_cons, hviews, Builder.length_openedAfter]
  -- the rest is complete from either offset
  by_cases hcomplete : (run (e.openedAfter opened) 0 rest).ending = .complete []
  · rw [if_pos ((hending []).2 hcomplete), if_pos hcomplete]
  · rw [if_neg (mt (hending []).1 hcomplete), if_neg hcomplete]
    cases tokensFrom? opened.length [e.view] <;> rfl

/-- A text up to the next bracket is one piece. -/
theorem readTokens?_append_text {s rest : List Char} (hs : s ≠ []) (hlt : '<' ∉ s)
    (hrest : ∀ c ∈ rest.head?, c = '<') (opened : List String) :
    readTokens? opened (s ++ rest) =
      (tokensFrom? opened.length [.text (String.ofList s)]).bind fun ts =>
        (readTokens? opened rest).map (ts ++ ·) := by
  obtain ⟨happend, hending⟩ := run_append_text hs hlt opened 0 rest
  obtain ⟨hviews, hshift⟩ := run_shift opened (0 + byteLength s) 0 rest
  -- a bracket follows, so no text is there to be joined with this one
  rw [hviews, consText_of_ne _ (views_run_ne_text hrest opened 0)] at happend
  rw [readTokens?, happend, hending, tokensFrom?_cons, readTokens?]
  by_cases hcomplete : (run opened 0 rest).ending = .complete []
  · rw [if_pos ((hshift []).2 hcomplete), if_pos hcomplete]
    rfl
  · rw [if_neg (mt (hshift []).1 hcomplete), if_neg hcomplete]
    cases tokensFrom? opened.length [.text (String.ofList s)] <;> rfl

/-- Markup that is read starts with a construct, and what follows that is read, too. -/
theorem exists_of_readTokens? {opened : List String} {cs : List Char} {ts : List Token}
    (h : readTokens? opened ('<' :: cs) = some ts) :
    ∃ e size rest us vs, scanMarkup opened cs = .event e size rest ∧
      tokensFrom? opened.length [e.view] = some us ∧
        readTokens? (e.openedAfter opened) rest = some vs ∧ ts = us ++ vs := by
  -- a construct that breaks off would have no tokens
  cases hscan : scanMarkup opened cs with
  | fault f shift =>
    rw [readTokens?_fault hscan] at h
    cases h
  | event e size rest =>
    rw [readTokens?_event hscan, Option.bind_eq_some_iff] at h
    obtain ⟨us, hus, hrest⟩ := h
    obtain ⟨vs, hvs, happ⟩ := Option.map_eq_some_iff.1 hrest
    exact ⟨e, size, rest, us, vs, rfl, hus, hvs, happ.symm⟩

end IconCompiler.Markup
