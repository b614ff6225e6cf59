import IconCompiler.Proofs.Glob.SourcePattern

/-!
# The pattern of icons

The pattern that takes every icon below a directory is read, behind the escaped text of that
directory, as the names of the directory, any directories, and a name with the ending of icons.

## Key results

- `read_escape_iconPattern`: the pattern as it is read
- `matchesFileName_iconItems`: the names that its last component matches
-/

namespace IconCompiler.Glob

open IconCompiler.Path

/-- Any icon, however deep. -/
def iconPattern : List Char :=
  "**/*.svg".toList

/-- The ending of icons. -/
def iconEnding : List Char :=
  ".svg".toList

/-- The items of a name with the ending of icons. -/
def iconItems : List Token :=
  .sequence :: iconEnding.map exactToken

/-- The components of the pattern. -/
def iconParts : List Part :=
  [.directories, .wild iconItems]

/-! ## Reading -/

/-- The items of an icon's name. -/
private theorem tokensFrom_iconItems (pos : Nat) (before? : Option Char) :
    tokensFrom pos before? ('*' :: iconEnding) = .ok iconItems := by
  have htake : takeToken pos before? '*' iconEnding =
      .ok ⟨.sequence, pos + 1, '*', iconEnding⟩ := rfl
  have hending : tokensFrom (pos + 1) (some '*') iconEnding = .ok (iconEnding.map exactToken) :=
    tokensFrom_escape iconEnding _ _
  rw [tokensFrom_cons htake, hending]
  rfl

/-- The items of the pattern, behind a slash. -/
private theorem tokensFrom_iconPattern (pos : Nat) (before? : Option Char) :
    tokensFrom pos before? ('/' :: iconPattern) = .ok (.char '/' :: .directories :: iconItems) := by
  have hslash : takeToken pos before? '/' iconPattern =
      .ok ⟨.char '/', pos + 1, '/', '*' :: '*' :: '/' :: '*' :: iconEnding⟩ := rfl
  have hdirectories : takeToken (pos + 1) (some '/') '*' ('*' :: '/' :: '*' :: iconEnding) =
      .ok ⟨.directories, pos + 4, '/', '*' :: iconEnding⟩ := rfl
  rw [tokensFrom_cons hslash, tokensFrom_cons hdirectories, tokensFrom_iconItems]
  rfl

/-- Escaped names are read as their items, whatever components follow. -/
private theorem mapM_tokens_escape (names : List (List Char)) {texts : List (List Char)}
    {ts : List (List Token)} (h : texts.mapM tokens = .ok ts) :
    (names.map escape ++ texts).mapM tokens =
      .ok (names.map (fun name => name.map exactToken) ++ ts) := by
  induction names with
  | nil => exact h
  | cons name names ih =>
    rw [List.map_cons, List.cons_append, List.mapM_cons, tokens, tokensFrom_escape, ih]
    rfl

/-- The texts of the components: those of the escaped text and the two of the pattern. -/
private theorem partTexts_escape_iconPattern (front : List Char) :
    partTexts (escape front ++ '/' :: iconPattern) =
      (splitSlashes front).map escape ++ [['*', '*'], '*' :: iconEnding] := by
  have hne : (escape front ++ '/' :: iconPattern).isEmpty = false := by simp
  have hicon : splitSlashes iconPattern = [['*', '*'], '*' :: iconEnding] := by decide
  have hlast : ((splitSlashes front).map escape ++ [['*', '*'], '*' :: iconEnding]).getLast? =
      some ('*' :: iconEnding) := by
    rw [List.getLast?_append]
    rfl
  rw [partTexts, hne, if_neg Bool.false_ne_true, splitSlashes_append_slash, splitSlashes_escape,
    hicon]
  dsimp only
  -- the pattern does not end in a slash
  rw [hlast, if_neg (by decide)]

/-- Behind an escaped text that does not start with a slash, the pattern is read as the names of the
    text, any directories and the name of an icon. -/
theorem read_escape_iconPattern {s : String} {front : List Char}
    (hs : s.toList = escape front ++ '/' :: iconPattern) (hrel : s.toList.head? ≠ some '/') :
    Pattern.read s =
      .ok ⟨false, (splitSlashes front).map sourcePart ++ iconParts, false⟩ := by
  -- the pattern passes as a whole, and then each component on its own
  have hwhole : ∃ ts, tokens s.toList = .ok ts := by
    obtain ⟨pos, before?, h⟩ := tokensFrom_escape_append front ('/' :: iconPattern) 0 none
    rw [tokens, hs, h, tokensFrom_iconPattern]
    exact ⟨_, rfl⟩
  have hdirectories : tokens ['*', '*'] = .ok [.directories] := by
    have htake : takeToken 0 none '*' ['*'] = .ok ⟨.directories, 2, '*', []⟩ := rfl
    rw [tokens, tokensFrom_cons htake, tokensFrom]
    rfl
  have hicon : [['*', '*'], '*' :: iconEnding].mapM tokens = .ok [[.directories], iconItems] := by
    rw [List.mapM_cons, hdirectories, List.mapM_cons, tokens, tokensFrom_iconItems]
    rfl
  -- a slash at the end would ask for directories only
  have hlast : s.toList.getLast? = some 'g' := by
    rw [hs, List.getLast?_append]
    rfl
  obtain ⟨ts, hts⟩ := hwhole
  rw [Pattern.read, hts]
  simp only [decide_eq_false hrel, if_neg hrel, hlast]
  rw [hs, partTexts_escape_iconPattern, mapM_tokens_escape _ hicon]
  simp only [List.map_append, List.map_map]
  rfl

/-! ## Matching -/

/-- Some end of a text passes a test. -/
private theorem anySuffix_iff {test : List Char → Bool} {cs : List Char} :
    anySuffix test cs = true ↔ ∃ s, s <:+ cs ∧ test s = true := by
  induction cs with
  | nil => simp [anySuffix]
  | cons c cs ih =>
    -- an end of the text is the whole of it, or an end of what follows the first character
    rw [anySuffix, Bool.or_eq_true, ih]
    simp only [List.suffix_cons_iff, or_and_right, exists_or, exists_eq_left]

/-- The items of an icon match the names with its ending. -/
theorem matchesFileName_iconItems {name : FileName} (h : name.IsText) :
    matchesFileName iconItems name = true ↔ FileName.ofChars iconEnding <:+ name := by
  obtain ⟨cs, rfl⟩ := h
  rw [matchesFileName_ofChars, iconItems, matchName_sequence, anySuffix_iff]
  -- the asterisk stands for whatever is in front of the ending
  simp only [matchName_map_exactToken, decide_eq_true_eq, exists_eq_right]
  constructor
  · exact fun h => h.map _
  · intro h
    have hdisplay : FileName.display (FileName.ofChars iconEnding) <:+
        FileName.display (FileName.ofChars cs) := h.map _
    rwa [FileName.display_ofChars, FileName.display_ofChars] at hdisplay

end IconCompiler.Glob
