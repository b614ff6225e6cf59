import IconCompiler.Proofs.Glob.Walking

/-!
# Patterns that start with an escaped text

Read as a pattern, an escaped text gives its own names as components, whatever pattern follows it
after a slash; no component has a slash in it.

## Key results

- `parts_of_read`: the names of the escaped text come first
- `isSlashFree_of_read`: no component is a name with a slash
- `innerOf_trimSlashes`: slashes at the end of the text say nothing
-/

namespace IconCompiler.Glob

open IconCompiler.Path

/-! ## Patterns of escaped names -/

/-- A list that was read has a first element that was, and a rest that was. -/
private theorem ok_of_mapM_cons {ε α β : Type} {f : α → Except ε β} {x : α} {xs : List α}
    {ys : List β} (h : (x :: xs).mapM f = .ok ys) :
    ∃ y ys', f x = .ok y ∧ xs.mapM f = .ok ys' ∧ ys = y :: ys' := by
  rw [List.mapM_cons] at h
  obtain ⟨y, hy, h⟩ := ok_of_bind h
  obtain ⟨ys', hys, h⟩ := ok_of_bind h
  exact ⟨y, ys', hy, hys, (Except.ok.inj h).symm⟩

/-- Escaped names are read as components of their own. -/
private theorem parts_of_mapM_tokens {names texts : List (List Char)} {ts : List (List Token)}
    (h : (names.map escape ++ texts).mapM tokens = .ok ts) :
    ∃ more, ts.map Part.ofTokens = names.map sourcePart ++ more := by
  -- over the names; the components behind them are whatever is read there
  induction names generalizing ts with
  | nil => exact ⟨ts.map Part.ofTokens, rfl⟩
  | cons name names ih =>
    obtain ⟨t, ts', ht, hts, rfl⟩ := ok_of_mapM_cons h
    obtain ⟨more, hmore⟩ := ih hts
    rw [tokens, tokensFrom_escape] at ht
    obtain rfl := Except.ok.inj ht
    refine ⟨more, ?_⟩
    rw [List.map_cons, hmore]
    rfl

/-- A text is parted at the same slashes as a path and as a pattern. -/
theorem splitUnits_ofChars (cs : List Char) :
    splitUnits (FileName.ofChars cs) = (splitSlashes cs).map FileName.ofChars := by
  induction cs with
  | nil => rfl
  | cons c cs ih =>
    rw [FileName.ofChars] at ih
    simp only [FileName.ofChars, List.map_cons, splitUnits, splitSlashes, ih, slash,
      PathUnit.char.injEq]
    split
    · rfl
    · -- any character but a slash goes to the first part on both sides
      obtain ⟨text, texts, h⟩ := List.exists_cons_of_ne_nil (splitSlashes_ne_nil cs)
      rw [h]
      rfl

/-- No part holds a slash. -/
theorem slash_not_mem_of_mem_splitSlashes {cs : List Char} :
    ∀ text ∈ splitSlashes cs, '/' ∉ text := by
  intro text htext hslash
  -- the parts are those of a path with this text, of which none holds a slash
  have hseg : FileName.ofChars text ∈ splitUnits (FileName.ofChars cs) := by
    rw [splitUnits_ofChars]
    exact List.mem_map_of_mem htext
  exact slash_not_mem_of_mem_splitUnits _ hseg (List.mem_map_of_mem hslash)

/-- No component of a pattern holds a slash. -/
private theorem slash_not_mem_of_mem_partTexts {cs text : List Char} (h : text ∈ partTexts cs) :
    '/' ∉ text := by
  unfold partTexts at h
  split at h
  · -- an empty pattern has one component, the empty one
    rw [List.mem_singleton.1 h]
    exact List.not_mem_nil
  · dsimp only at h
    split at h
    · exact slash_not_mem_of_mem_splitSlashes text (List.dropLast_subset _ h)
    · exact slash_not_mem_of_mem_splitSlashes text h

/-- A component that is read from a text without slashes has none. -/
private theorem isSlashFree_ofTokens {text : List Char} {ts : List Token} (h : tokens text = .ok ts)
    (htext : '/' ∉ text) : (Part.ofTokens ts).IsSlashFree := by
  rw [Part.ofTokens]
  split
  · rename_i name hname
    intro hmem
    -- a character of the name is one of the text
    exact htext (mem_of_char_mem_tokensFrom h (mem_of_literal? hname '/' hmem))
  · split <;> trivial

/-- Components that are read from texts without slashes have none. -/
private theorem isSlashFree_of_mapM_tokens {texts : List (List Char)} {ts : List (List Token)}
    (h : texts.mapM tokens = .ok ts) (htexts : ∀ text ∈ texts, '/' ∉ text) :
    ∀ part ∈ ts.map Part.ofTokens, part.IsSlashFree := by
  induction texts generalizing ts with
  | nil =>
    obtain rfl := Except.ok.inj h
    simp
  | cons text texts ih =>
    obtain ⟨t, ts', ht, hts, rfl⟩ := ok_of_mapM_cons h
    rw [List.map_cons]
    refine List.forall_mem_cons.2 ⟨?_, ih hts fun t h => htexts t (List.mem_cons_of_mem _ h)⟩
    exact isSlashFree_ofTokens ht (htexts text List.mem_cons_self)

/-- What it takes for a pattern to be read: its components are, behind a slash at the front. -/
theorem read_eq_ok {s : String} {pattern : Pattern} (h : Pattern.read s = .ok pattern) :
    pattern.absolute = decide (s.toList.head? = some '/') ∧
      ∃ ts, (partTexts (if s.toList.head? = some '/' then s.toList.tail else s.toList)).mapM
        tokens = .ok ts ∧ pattern.parts = ts.map Part.ofTokens := by
  simp only [Pattern.read] at h
  split at h
  · cases h
  · split at h
    · cases h
    · rename_i ts hts
      obtain rfl := (Except.ok.inj h).symm
      refine ⟨by simp, ts, ?_, rfl⟩
      simpa using hts

/-- No component of a pattern is a name with a slash. -/
theorem isSlashFree_of_read {s : String} {pattern : Pattern} (h : Pattern.read s = .ok pattern) :
    ∀ part ∈ pattern.parts, part.IsSlashFree := by
  obtain ⟨-, ts, hts, hparts⟩ := read_eq_ok h
  rw [hparts]
  exact isSlashFree_of_mapM_tokens hts fun _ => slash_not_mem_of_mem_partTexts

/-- A relative pattern that starts with an escaped text has the names of that text first. -/
theorem parts_of_read {s : String} {pattern : Pattern} (h : Pattern.read s = .ok pattern)
    {front rest : List Char} (hs : s.toList = escape front ++ '/' :: rest)
    (hrel : s.toList.head? ≠ some '/') :
    ∃ more, pattern.parts = (splitSlashes front).map sourcePart ++ more := by
  obtain ⟨-, ts, hts, hparts⟩ := read_eq_ok h
  have htexts : ∃ texts, partTexts s.toList = (splitSlashes front).map escape ++ texts := by
    have hsplit : splitSlashes s.toList = (splitSlashes front).map escape ++ splitSlashes rest := by
      rw [hs, splitSlashes_append_slash, splitSlashes_escape]
    have hne : s.toList.isEmpty = false := by simp [hs]
    -- a slash at the end of the pattern takes away one of its own names at most
    rw [partTexts, hne, if_neg Bool.false_ne_true, hsplit]
    dsimp only
    split
    · exact ⟨_, List.dropLast_append_of_ne_nil (splitSlashes_ne_nil rest)⟩
    · exact ⟨_, rfl⟩
  obtain ⟨texts, htexts⟩ := htexts
  rw [if_neg hrel, htexts] at hts
  obtain ⟨more, hmore⟩ := parts_of_mapM_tokens hts
  exact ⟨more, hparts.trans hmore⟩

/-! ## The directory of the sources -/

/-- The names of a text between slashes say what a path with this text says. -/
theorem innerOf_splitSlashes (cs : List Char) :
    innerOf (splitSlashes cs) = (Path.mk (FileName.ofChars cs)).innerComponents := by
  rw [innerOf, ← splitUnits_ofChars]
  rfl

/-- Slashes at the end say nothing. -/
theorem innerOf_trimSlashes (cs : List Char) :
    innerOf (splitSlashes (trimSlashes cs)) = innerOf (splitSlashes cs) := by
  -- from the end, where a slash leaves an empty part behind it
  induction cs using List.reverseRecOn with
  | nil => rfl
  | append_singleton cs c ih =>
    by_cases hc : c = '/'
    · subst hc
      have hvoid : innerOf (splitSlashes []) = [] := rfl
      rw [trimSlashes_concat_slash, ih, splitSlashes_append_slash, innerOf, innerOf,
        List.map_append, List.filterMap_append, ← innerOf, ← innerOf, hvoid, List.append_nil]
    · rw [trimSlashes_concat hc]

end IconCompiler.Glob
