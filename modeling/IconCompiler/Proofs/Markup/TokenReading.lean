import Mathlib.Data.List.Chain
import IconCompiler.Proofs.Markup.StartTagReading

/-!
# Reading written tokens

What is written for tokens is read as the same tokens unless one of them cannot be told from others:
a start tag that is not legible, a name that opens a quote, a text that is empty, or one that is
blank and stands outside all elements. `LegibleTokens` rules these out, and nothing else has to be
ruled out for texts without angle brackets that stand apart from each other.

## Key results

- `readTokens?_stop`, `readTokens?_text`: exactly the legible tokens are read back, whatever follows
- `readTokens?_renderTokens`: written tokens are read back exactly if all of them are legible
-/

namespace IconCompiler.Markup

open EventView Reading

/-! ## End tags and texts -/

/-- A content of a closing tag that closes the name in front of it is that name. -/
private theorem eq_of_closeName {name : String} {content rest rest' : List Char}
    (hcs : name.toList ++ '>' :: rest = content ++ '>' :: rest') (h : closeName content = name) :
    content = name.toList := by
  rw [closeName] at h
  split at h
  · rw [← h, String.toList_ofList]
  · -- what is trimmed would be space, and behind the name stands the bracket
    obtain ⟨space, happ, hspace⟩ := trimMarkupEnd_append content
    have htrim : trimMarkupEnd content = name.toList := by rw [← h, String.toList_ofList]
    rw [htrim] at happ
    rw [happ, List.append_assoc, List.append_cancel_left_eq] at hcs
    cases space with
    | nil => simpa using happ
    | cons c space =>
      have hc : isMarkupSpace c = true := hspace c List.mem_cons_self
      rw [← (List.cons.inj hcs).1] at hc
      exact absurd hc (by decide)

/-- The end of an element is read back, and what follows it as before, exactly if it is legible. -/
theorem readTokens?_stop {name : String} (hname : IsTagName name) {opened : List String}
    (hopen : opened.head? = some name) (rest : List Char) (ts : List Token) :
    readTokens? opened ((Token.stop name).renderChars ++ rest) = some (.stop name :: ts) ↔
      (Token.stop name).IsLegible opened ∧ readTokens? opened.tail rest = some ts := by
  have htext : (Token.stop name).renderChars ++ rest =
      '<' :: ('/' :: name.toList ++ '>' :: rest) := by
    simp [Token.renderChars]
  have hclose := closeName_toList hname
  rw [htext, Token.IsLegible]
  constructor
  · intro h
    obtain ⟨e, size, rest', us, vs, hscan, hus, hvs, happ⟩ := exists_of_readTokens? h
    generalize hcs : '/' :: name.toList ++ '>' :: rest = cs at hscan
    cases scans_of_scanMarkup hscan with
    | cdata | comment | doctype | instruction => simp at hcs
    | @tag content rest' closed front =>
      -- a tag does not start with a slash
      cases content with
      | nil => simp at hcs
      | cons c content => exact absurd (List.cons.inj hcs).1.symm (front c rfl).2.2
    | @close content rest' closed hhead =>
      have hcs' : name.toList ++ '>' :: rest = content ++ '>' :: rest' := by simpa using hcs
      have hcontent : content = name.toList :=
        eq_of_closeName hcs' (Option.some.inj (hhead.symm.trans hopen))
      subst hcontent
      obtain rfl : rest = rest' := (List.cons.inj (List.append_cancel_left hcs')).2
      obtain rfl := Option.some.inj hus
      obtain rfl : ts = vs := (List.cons.inj happ).2
      exact ⟨closed, hvs⟩
  · intro h
    obtain ⟨hclosed, hrest⟩ := h
    have hscan : scanMarkup opened ('/' :: name.toList ++ '>' :: rest) =
        .event (.close name) (byteLength name.toList + 3) rest := by
      rw [scanMarkup_close hclosed (by rw [hclose, hopen]), hclose]
    rw [readTokens?_event hscan, tokensFrom?_of_kept rfl rfl]
    simp [Event.view, EventView.tokens?, Event.openedAfter, hrest]

/-- Markup that is neither a section nor an aside stands for no text. -/
private theorem readTokens?_ne_text {opened : List String} {cs : List Char}
    (h : ∀ c ∈ cs.head?, c ≠ '!' ∧ c ≠ '?') (s : String) (ts : List Token) :
    readTokens? opened ('<' :: cs) ≠ some (.text s :: ts) := by
  intro hread
  obtain ⟨e, size, rest, us, vs, hscan, hus, -, happ⟩ := exists_of_readTokens? hread
  cases scans_of_scanMarkup hscan with
  | cdata | comment | doctype => exact absurd rfl (h '!' rfl).1
  | instruction => exact absurd rfl (h '?' rfl).2
  | close =>
    obtain rfl := Option.some.inj hus
    cases happ
  | @tag content =>
    -- whether it is empty or not, a tag gives the start of its element first
    unfold tagEvent at hus
    split at hus
    · rw [tokensFrom?_of_kept rfl rfl] at hus
      obtain ⟨es, -, rfl⟩ := Option.map_eq_some_iff.1 hus
      cases happ
    · rw [tokensFrom?_of_kept rfl rfl] at hus
      obtain ⟨es, -, rfl⟩ := Option.map_eq_some_iff.1 hus
      cases happ

/-- A text is read back, and what follows it as before, exactly if it is legible, unless what
    follows is text, too. -/
theorem readTokens?_text {s : String} (hlt : '<' ∉ s.toList) {opened : List String}
    {rest : List Char} (hrest : ∀ c ∈ rest.head?, c = '<')
    (hne : ∀ t us, readTokens? opened rest ≠ some (.text t :: us)) (ts : List Token) :
    readTokens? opened ((Token.text s).renderChars ++ rest) = some (.text s :: ts) ↔
      (Token.text s).IsLegible opened ∧ readTokens? opened rest = some ts := by
  rw [Token.renderChars, Token.IsLegible]
  by_cases hs : s = ""
  · -- nothing is written for an empty text
    subst hs
    simp [hne]
  · have hs' : s.toList ≠ [] := by simpa using hs
    rw [readTokens?_append_text hs' hlt hrest, String.ofList_toList, tokensFrom?_singleton]
    by_cases hblank : opened = [] ∧ Text.isBlank s.toList = true
    · -- a blank text outside all elements is skipped
      obtain ⟨rfl, hblank⟩ := hblank
      have houter : isOuterBlank 0 (.text s) = true := by simp [isOuterBlank, hblank]
      simp [houter, hblank, hne]
    · have houter : isOuterBlank opened.length (.text s) = false := by
        simpa [isOuterBlank] using hblank
      have hlegible : s ≠ "" ∧ (opened = [] → Text.isBlank s.toList = false) :=
        ⟨hs, by simpa using hblank⟩
      rw [houter, and_iff_right hlegible]
      cases readTokens? opened rest <;> simp [isAside, EventView.tokens?]

/-- A text that is read in front goes on to the first bracket. -/
private theorem eq_of_readTokens?_text {s : List Char} (hlt : '<' ∉ s) {opened : List String}
    {rest : List Char} (hrest : ∀ c ∈ rest.head?, c = '<')
    (hne : ∀ t us, readTokens? opened rest ≠ some (.text t :: us)) {t : String} {us : List Token}
    (h : readTokens? opened (s ++ rest) = some (.text t :: us)) : t.toList = s := by
  by_cases hs : s = []
  · subst hs
    exact absurd h (hne t us)
  · rw [readTokens?_append_text hs hlt hrest, tokensFrom?_singleton] at h
    split at h
    · simp [hne] at h
    · obtain ⟨ws, -, hws⟩ := Option.map_eq_some_iff.1 h
      have ht : String.ofList s = t := Token.text.inj (List.cons.inj hws).1
      rw [← ht, String.toList_ofList]

/-! ## One token after another -/

/-- Whether a token is a text. -/
def Token.isText : Token → Bool
  | .text _ => true
  | _ => false

/-- Whether a token can stand where the elements `opened` are open. -/
def Token.IsWritable (opened : List String) : Token → Prop
  | .start tag attrs => IsTagName tag ∧ ∃ items, ArePlain items ∧ attrs = plainEntries items
  | .stop tag => IsTagName tag ∧ opened.head? = some tag
  | .text s => '<' ∉ s.toList

/-- The open names after a token, the innermost first. -/
def Token.openedAfter (opened : List String) : Token → List String
  | .start tag _ => tag :: opened
  | .stop _ => opened.tail
  | .text _ => opened

/-- Whether tokens can stand one after another, with `opened` open at the first and nothing open
    behind the last. -/
def WritableTokens : (opened : List String) → List Token → Prop
  | opened, [] => opened = []
  | opened, t :: ts => t.IsWritable opened ∧ WritableTokens (t.openedAfter opened) ts

/-- Whether all tokens are legible, with `opened` open at the first. -/
def LegibleTokens : (opened : List String) → List Token → Prop
  | _, [] => True
  | opened, t :: ts => t.IsLegible opened ∧ LegibleTokens (t.openedAfter opened) ts

/-- Whether no text stands right behind another one. -/
def ApartTexts (ts : List Token) : Prop :=
  ts.IsChain fun t u => t.isText = true → u.isText = false

/-- Written tokens that are no texts start with markup that is neither a section nor an aside. -/
private theorem renderTokens_eq_cons {opened : List String} {t : Token} (ts : List Token)
    (hw : t.IsWritable opened) (ht : t.isText = false) :
    ∃ cs, renderTokens (t :: ts) = '<' :: cs ∧ ∀ c ∈ cs.head?, c ≠ '!' ∧ c ≠ '?' := by
  cases t with
  | text s => cases ht
  | stop tag => exact ⟨'/' :: (tag.toList ++ ['>'] ++ renderTokens ts), rfl, by simp⟩
  | start tag attrs =>
    obtain ⟨hname, items, -, rfl⟩ := hw
    have htext : renderTokens (.start tag (plainEntries items) :: ts) =
        '<' :: (startText tag (plainEntries items) ++ '>' :: renderTokens ts) := by
      simp [renderTokens_cons, Token.renderChars]
    refine ⟨_, htext, ?_⟩
    intro c hc
    have hfront := front_startText hname _ c hc
    exact ⟨hfront.1, hfront.2.1⟩

/-- What is written for tokens that do not start with a text is not read as if they did. -/
private theorem front_renderTokens {opened : List String} {ts : List Token}
    (hw : WritableTokens opened ts) (hfront : ∀ t ∈ ts.head?, t.isText = false) :
    (∀ c ∈ (renderTokens ts).head?, c = '<') ∧
      ∀ s us, readTokens? opened (renderTokens ts) ≠ some (.text s :: us) := by
  cases ts with
  | nil =>
    have hnil : renderTokens [] = [] := rfl
    rw [hnil, readTokens?_nil]
    exact ⟨by simp, fun s us => by split <;> simp⟩
  | cons t ts =>
    obtain ⟨cs, hcs, hmarks⟩ := renderTokens_eq_cons ts hw.1 (hfront t rfl)
    rw [hcs]
    exact ⟨by simp, readTokens?_ne_text hmarks⟩

/-- Written tokens are read back exactly if all of them are legible. -/
theorem readTokens?_renderTokens {opened : List String} {ts : List Token}
    (hw : WritableTokens opened ts) (hapart : ApartTexts ts) :
    readTokens? opened (renderTokens ts) = some ts ↔ LegibleTokens opened ts := by
  -- over the tokens, for all open names: each token is read back by itself, whatever follows it
  induction ts generalizing opened with
  | nil =>
    obtain rfl : opened = [] := hw
    simp [renderTokens, readTokens?_nil, LegibleTokens]
  | cons t ts ih =>
    obtain ⟨ht, hts⟩ := hw
    obtain ⟨hnext, hapart⟩ := List.isChain_cons.1 hapart
    have ih' := ih hts hapart
    rw [renderTokens_cons, LegibleTokens, ← ih']
    cases t with
    | start tag attrs =>
      obtain ⟨hname, items, hitems, rfl⟩ := ht
      exact readTokens?_start hname hitems opened _ ts
    | stop tag => exact readTokens?_stop ht.1 ht.2 _ ts
    | text s =>
      -- a text ends where the next token is written, which is no text
      obtain ⟨hbracket, hne⟩ := front_renderTokens hts fun u hu => hnext u hu rfl
      exact readTokens?_text ht hbracket hne ts

/-- What is written for tokens is not read as the same tokens without the first character of a text
    in front. -/
theorem readTokens?_tail_ne {opened : List String} {ts : List Token}
    (hw : WritableTokens opened ts) (hapart : ApartTexts ts) {c : Char} {cs : List Char}
    (hc : c ≠ '<') (hcs : renderTokens ts = c :: cs) : readTokens? opened cs ≠ some ts := by
  intro hread
  cases ts with
  | nil => cases hcs
  | cons t ts =>
    cases t with
    | start tag attrs => exact hc (List.cons.inj hcs).1.symm
    | stop tag => exact hc (List.cons.inj hcs).1.symm
    | text s =>
      obtain ⟨hlt, hts⟩ := hw
      obtain ⟨hbracket, hne⟩ :=
        front_renderTokens hts fun u hu => hapart.rel_head? hu rfl
      rw [renderTokens_cons, Token.renderChars] at hcs
      cases hs : s.toList with
      | nil =>
        rw [hs, List.nil_append] at hcs
        exact hc (hbracket c (by rw [hcs]; rfl))
      | cons d s' =>
        rw [hs, List.cons_append] at hcs
        obtain ⟨rfl, rfl⟩ := List.cons.inj hcs
        have hlt' : '<' ∉ s' := fun hmem => hlt (hs ▸ List.mem_cons_of_mem _ hmem)
        -- the text that is read ends at the same bracket, so it is shorter
        have hlength := eq_of_readTokens?_text hlt' hbracket hne hread
        rw [hs] at hlength
        simpa using congrArg List.length hlength

end IconCompiler.Markup
