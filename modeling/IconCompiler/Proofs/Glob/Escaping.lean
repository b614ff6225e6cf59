import Mathlib.Data.List.Induction
import IconCompiler.Glob.Matching

/-!
# Escaped texts as patterns

An escaped text is read as one item for every character, and matches that text and no other one. The
parts of an escaped text between slashes are the parts of the text, escaped.

## Key results

- `tokensFrom_escape`: an escaped text is read character by character
- `matchName_map_exactToken`: the items match the text alone
- `splitSlashes_escape`, `trimSlashes_escape`: escaping leaves slashes where they are
- `mem_of_char_mem_tokensFrom`: a pattern names no characters that do not stand in it
-/

namespace IconCompiler.Glob

/-- Whether a character means something in a pattern. -/
def isSpecial (c : Char) : Bool :=
  c = '?' || c = '*' || c = '[' || c = ']'

/-- A character as `escape` writes it. -/
def escapeChar (c : Char) : List Char :=
  if isSpecial c then ['[', c, ']'] else [c]

private theorem escape_nil : escape [] = [] := rfl

private theorem escape_cons (c : Char) (cs : List Char) :
    escape (c :: cs) = escapeChar c ++ escape cs :=
  List.flatMap_cons

private theorem escape_append (a b : List Char) : escape (a ++ b) = escape a ++ escape b :=
  List.flatMap_append

/-- The item that an escaped character is read as. -/
def exactToken (c : Char) : Token :=
  if isSpecial c then .oneOf [.single c] else .char c

/-! ## Reading -/

/-- An escaped character is read as one item, whatever stands around it. -/
private theorem takeToken_escapeChar (c : Char) (pos : Nat) (before? : Option Char)
    (rest : List Char) :
    ∃ d ds pos' before', escapeChar c ++ rest = d :: ds ∧
      takeToken pos before? d ds = .ok ⟨exactToken c, pos', before', rest⟩ := by
  rw [escapeChar, exactToken]
  split
  · rename_i hc
    -- the first character of a class never ends it, even if it is a bracket
    have hbang : c ≠ '!' := by
      rintro rfl
      exact absurd hc (by decide)
    have hclass : takeClass (c :: ']' :: rest) = some (.oneOf [.single c], 2, rest) := by
      unfold takeClass
      split
      · rename_i heq
        exact absurd (List.cons.inj heq).1 hbang
      · rename_i heq
        exact absurd (List.cons.inj heq).1 hbang
      · rename_i d ds _ _ heq
        obtain ⟨rfl, rfl⟩ := List.cons.inj heq
        rfl
      · rename_i heq
        cases heq
    refine ⟨'[', c :: ']' :: rest, pos + 1 + 2, ']', rfl, ?_⟩
    simp [takeToken, hclass]
  · rename_i hc
    simp only [isSpecial, Bool.or_eq_true, decide_eq_true_eq, not_or] at hc
    obtain ⟨⟨⟨h₁, h₂⟩, h₃⟩, -⟩ := hc
    -- the three characters that open an item of their own are special
    refine ⟨c, rest, pos + 1, c, rfl, ?_⟩
    rw [takeToken, if_neg h₁, if_neg h₂, if_neg h₃]

/-- Items are read one after another. -/
theorem tokensFrom_cons {pos : Nat} {before? : Option Char} {c : Char} {cs : List Char}
    {s : TokenStep} (h : takeToken pos before? c cs = .ok s) :
    tokensFrom pos before? (c :: cs) =
      (tokensFrom s.position (some s.before) s.rest).map (s.token :: ·) := by
  rw [tokensFrom]
  split
  · rename_i f hf
    rw [h] at hf
    cases hf
  · rename_i s' hs
    rw [h] at hs
    obtain rfl := Except.ok.inj hs
    rfl

/-- An escaped text is read character by character, whatever follows. -/
theorem tokensFrom_escape_append (cs rest : List Char) (pos : Nat) (before? : Option Char) :
    ∃ pos' before'?, tokensFrom pos before? (escape cs ++ rest) =
      (tokensFrom pos' before'? rest).map (cs.map exactToken ++ ·) := by
  -- character by character; where the reader is and what it passed last changes with each
  induction cs generalizing pos before? with
  | nil =>
    refine ⟨pos, before?, ?_⟩
    cases h : tokensFrom pos before? rest <;> simp [escape_nil, h, Except.map]
  | cons c cs ih =>
    obtain ⟨d, ds, pos', before', htext, htake⟩ :=
      takeToken_escapeChar c pos before? (escape cs ++ rest)
    obtain ⟨pos'', before'', hrest⟩ := ih pos' (some before')
    refine ⟨pos'', before'', ?_⟩
    rw [escape_cons, List.append_assoc, htext, tokensFrom_cons htake, hrest]
    cases tokensFrom pos'' before'' rest <;> rfl

/-- An escaped text is read character by character. -/
theorem tokensFrom_escape (cs : List Char) (pos : Nat) (before? : Option Char) :
    tokensFrom pos before? (escape cs) = .ok (cs.map exactToken) := by
  obtain ⟨pos', before'?, h⟩ := tokensFrom_escape_append cs [] pos before?
  rw [List.append_nil, tokensFrom] at h
  rw [h]
  exact congrArg Except.ok (List.append_nil _)

/-! ## Matching -/

/-- An escaped character is no asterisk. -/
private theorem exactToken_ne_sequence (c : Char) : exactToken c ≠ .sequence := by
  rw [exactToken]
  split <;> simp

/-- An escaped character matches itself alone. -/
private theorem matchesChar_exactToken (c d : Char) :
    (exactToken c).matchesChar d = decide (d = c) := by
  rw [exactToken]
  split
  · simp [Token.matchesChar, ClassItem.covers]
  · rfl

/-- The items of an escaped text match that text alone. -/
theorem matchName_map_exactToken (cs name : List Char) :
    matchName (cs.map exactToken) name = decide (name = cs) := by
  induction cs generalizing name with
  -- without items, only the empty name matches
  | nil => cases name <;> rfl
  | cons c cs ih =>
    cases name with
    | nil =>
      rw [List.map_cons, matchName_cons_nil (exactToken_ne_sequence c)]
      exact (decide_eq_false (by simp)).symm
    | cons d name =>
      rw [List.map_cons, matchName_cons_cons (exactToken_ne_sequence c), matchesChar_exactToken, ih]
      by_cases hd : d = c <;> simp [hd]

/-- The items of an escaped text spell a name unless some character had to be escaped. -/
theorem literal?_map_exactToken (cs : List Char) :
    literal? (cs.map exactToken) = if cs.any isSpecial then none else some cs := by
  induction cs with
  | nil => rfl
  | cons c cs ih =>
    by_cases hc : isSpecial c = true
    · simp [exactToken, hc, literal?]
    · simp only [List.map_cons, exactToken, hc, List.any_cons]
      show (literal? (cs.map exactToken)).map (c :: ·) = _
      -- one special character among the rest is enough
      rw [ih]
      split <;> simp_all

/-! ## Slashes -/

/-- There is always a part, even if it is empty. -/
theorem splitSlashes_ne_nil (cs : List Char) : splitSlashes cs ≠ [] := by
  cases cs with
  | nil => exact List.cons_ne_nil _ _
  | cons c cs =>
    rw [splitSlashes]
    split
    · exact List.cons_ne_nil _ _
    · split <;> exact List.cons_ne_nil _ _

/-- A slash parts what is before it from what is behind it. -/
theorem splitSlashes_append_slash (a b : List Char) :
    splitSlashes (a ++ '/' :: b) = splitSlashes a ++ splitSlashes b := by
  induction a with
  | nil => simp [splitSlashes]
  | cons c a ih =>
    simp only [List.cons_append, splitSlashes, ih]
    split
    · rfl
    · -- any other character goes to the first part of the front
      cases h : splitSlashes a with
      | nil => exact absurd h (splitSlashes_ne_nil a)
      | cons s rest => rfl

/-- Characters other than slashes go to the first part. -/
private theorem splitSlashes_append_of_not_mem {a b s : List Char} {rest : List (List Char)}
    (ha : '/' ∉ a) (hb : splitSlashes b = s :: rest) :
    splitSlashes (a ++ b) = (a ++ s) :: rest := by
  induction a with
  | nil => exact hb
  | cons c a ih =>
    rw [List.mem_cons, not_or] at ha
    rw [List.cons_append, splitSlashes, if_neg (Ne.symm ha.1), ih ha.2]
    rfl

/-- Escaping brings no slash. -/
private theorem slash_not_mem_escapeChar {c : Char} (hc : c ≠ '/') : '/' ∉ escapeChar c := by
  rw [escapeChar]
  split <;> simp [Ne.symm hc]

/-- Escaping leaves slashes where they are. -/
theorem splitSlashes_escape (cs : List Char) :
    splitSlashes (escape cs) = (splitSlashes cs).map escape := by
  induction cs with
  | nil => rfl
  | cons c cs ih =>
    rw [escape_cons]
    by_cases hc : c = '/'
    · subst hc
      show splitSlashes ('/' :: escape cs) = _
      rw [splitSlashes, splitSlashes, if_pos rfl, if_pos rfl, ih]
      rfl
    · -- what is written for any other character stands in the first part
      obtain ⟨s, rest, hs⟩ := List.exists_cons_of_ne_nil (splitSlashes_ne_nil cs)
      rw [hs] at ih
      rw [splitSlashes_append_of_not_mem (slash_not_mem_escapeChar hc) ih, splitSlashes, if_neg hc,
        hs, List.map_cons, escape_cons]

/-- A text without the slashes at its end. -/
def trimSlashes (cs : List Char) : List Char :=
  (cs.reverse.dropWhile (· = '/')).reverse

/-- A slash at the end does not count. -/
theorem trimSlashes_concat_slash (cs : List Char) : trimSlashes (cs ++ ['/']) = trimSlashes cs := by
  simp [trimSlashes]

/-- Anything else at the end stays, with all in front of it. -/
theorem trimSlashes_concat {c : Char} (hc : c ≠ '/') (cs : List Char) :
    trimSlashes (cs ++ [c]) = cs ++ [c] := by
  simp [trimSlashes, hc]

/-- The equation of `trimSlashes` from the front: a slash goes if nothing but slashes follows. -/
private theorem trimSlashes_cons (c : Char) (cs : List Char) : trimSlashes (c :: cs) =
    if c = '/' ∧ trimSlashes cs = [] then [] else c :: trimSlashes cs := by
  simp only [trimSlashes, List.reverse_cons, List.dropWhile_append, List.reverse_eq_nil_iff,
    List.isEmpty_iff]
  -- the first character is the last to be dropped, once all behind it are
  by_cases hnil : cs.reverse.dropWhile (· = '/') = []
  · by_cases hc : c = '/' <;> simp [hnil, hc]
  · simp [hnil]

/-- An escaped text with a slash behind it starts with a slash if the text does, or is empty. -/
theorem head?_escape_trimSlashes (cs rest : List Char) :
    (escape (trimSlashes cs) ++ '/' :: rest).head? = some '/' ↔
      cs.head? = some '/' ∨ cs = [] := by
  cases cs with
  | nil => simp [trimSlashes, escape_nil]
  | cons c cs =>
    rw [trimSlashes_cons]
    split
    · -- nothing but slashes, of which the one behind is left
      rename_i h
      simp [escape_nil, h.1]
    · rw [escape_cons, escapeChar, isSpecial]
      split
      · rename_i hc
        have hne : c ≠ '/' := by
          rintro rfl
          exact absurd hc (by decide)
        simp [hne]
      · simp

/-- Slashes are taken off the end before or after escaping alike. -/
theorem trimSlashes_escape (cs : List Char) :
    trimSlashes (escape cs) = escape (trimSlashes cs) := by
  induction cs using List.reverseRecOn with
  | nil => rfl
  | append_singleton cs c ih =>
    by_cases hc : c = '/'
    · subst hc
      rw [escape_append, trimSlashes_concat_slash, ← ih]
      exact trimSlashes_concat_slash _
    · rw [trimSlashes_concat hc, escape_append, escape_cons, escape_nil, List.append_nil]
      rw [escapeChar]
      split
      · -- a class ends in its bracket
        have hsplit : escape cs ++ ['[', c, ']'] = escape cs ++ ['[', c] ++ [']'] := by simp
        rw [hsplit]
        exact trimSlashes_concat (by decide) _
      · exact trimSlashes_concat hc _

/-- A character at the end belongs to the last part. -/
private theorem splitSlashes_concat {c : Char} (hc : c ≠ '/') (cs : List Char) :
    ∃ init last, splitSlashes (cs ++ [c]) = init ++ [last ++ [c]] := by
  induction cs with
  | nil => exact ⟨[], [], by simp [splitSlashes, hc]⟩
  | cons d cs ih =>
    obtain ⟨init, last, h⟩ := ih
    rw [List.cons_append, splitSlashes, h]
    split
    · exact ⟨[] :: init, last, rfl⟩
    · cases init with
      | nil => exact ⟨[], d :: last, rfl⟩
      | cons text init => exact ⟨(d :: text) :: init, last, rfl⟩

/-- Without the slashes at its end, a text has the parts that are left without the empty ones at
    their end. -/
theorem splitSlashes_trimSlashes {cs : List Char} {texts : List (List Char)} {slashes : Nat}
    (h : splitSlashes cs = texts ++ List.replicate slashes []) (htexts : ∀ t ∈ texts, t ≠ [])
    (hne : texts ≠ []) : splitSlashes (trimSlashes cs) = texts := by
  -- over the text from its end: a slash there takes off one of the empty parts
  induction cs using List.reverseRecOn generalizing slashes with
  | nil =>
    have hempty : splitSlashes [] = [[]] := rfl
    obtain ⟨t, ht⟩ := List.exists_mem_of_ne_nil texts hne
    have hmem : t ∈ [[]] := by
      rw [← hempty, h]
      exact List.mem_append_left _ ht
    exact absurd (List.mem_singleton.1 hmem) (htexts t ht)
  | append_singleton cs c ih =>
    by_cases hc : c = '/'
    · subst hc
      rw [splitSlashes_append_slash cs []] at h
      rw [trimSlashes_concat_slash]
      cases slashes with
      | zero =>
        rw [List.replicate_zero, List.append_nil] at h
        refine absurd rfl (htexts [] ?_)
        rw [← h]
        exact List.mem_append_right _ (List.mem_singleton_self _)
      | succ slashes =>
        rw [List.replicate_succ', ← List.append_assoc] at h
        exact ih (List.append_cancel_right h)
    · rw [trimSlashes_concat hc, h]
      cases slashes with
      | zero => exact List.append_nil _
      | succ slashes =>
        obtain ⟨init, last, hlast⟩ := splitSlashes_concat hc cs
        rw [hlast, List.replicate_succ', ← List.append_assoc] at h
        have hnil := (List.append_inj' h rfl).2
        simp at hnil

/-! ## Characters of a pattern -/

/-- What follows the bracket is an end of the text. -/
private theorem suffix_of_cutAtBracket {cs a b : List Char} (h : cutAtBracket cs = some (a, b)) :
    b <:+ cs := by
  induction cs generalizing a with
  | nil => cases h
  | cons c cs ih =>
    rw [cutAtBracket] at h
    split at h
    · cases h
      exact List.suffix_cons _ _
    · obtain ⟨⟨a', b'⟩, hab, heq⟩ := Option.map_eq_some_iff.1 h
      cases heq
      exact (ih hab).trans (List.suffix_cons _ _)

/-- A class takes its text off the front, and is no character. -/
private theorem suffix_of_takeClass {cs rest : List Char} {t : Token} {n : Nat}
    (h : takeClass cs = some (t, n, rest)) : rest <:+ cs ∧ ∀ c, t ≠ .char c := by
  unfold takeClass at h
  split at h
  · obtain ⟨⟨a, b⟩, hab, heq⟩ := Option.map_eq_some_iff.1 h
    cases heq
    exact ⟨(suffix_of_cutAtBracket hab).trans (List.suffix_append ['!', _] _), by simp⟩
  · cases h
  · obtain ⟨⟨a, b⟩, hab, heq⟩ := Option.map_eq_some_iff.1 h
    cases heq
    exact ⟨(suffix_of_cutAtBracket hab).trans (List.suffix_cons _ _), by simp⟩
  · cases h

/-- Two asterisks take their text off the front, and are no character. -/
private theorem suffix_of_takeDirectories {pos : Nat} {before? : Option Char} {rest : List Char}
    {s : TokenStep} (h : takeDirectories pos before? rest = .ok s) :
    s.rest <:+ rest ∧ ∀ c, s.token ≠ .char c := by
  unfold takeDirectories at h
  split at h
  · split at h
    · cases h
      exact ⟨List.suffix_refl _, by simp⟩
    · split at h
      · cases h
        exact ⟨List.suffix_cons _ _, by simp⟩
      · cases h
  · cases h

/-- An item takes its text off the front, and a character stands for itself. -/
private theorem suffix_of_takeToken {pos : Nat} {before? : Option Char} {c : Char} {cs : List Char}
    {s : TokenStep} (h : takeToken pos before? c cs = .ok s) :
    s.rest <:+ cs ∧ ∀ d, s.token = .char d → d = c := by
  unfold takeToken at h
  split at h
  · cases h
    exact ⟨List.suffix_refl _, by simp⟩
  · split at h
    · split at h
      · cases h
        exact ⟨List.suffix_refl _, by simp⟩
      · obtain ⟨hrest, hne⟩ := suffix_of_takeDirectories h
        exact ⟨hrest.trans (List.dropWhile_suffix _), fun d hd => absurd hd (hne d)⟩
      · cases h
    · split at h
      · split at h
        · cases h
        · rename_i hclass
          cases h
          obtain ⟨hrest, hne⟩ := suffix_of_takeClass hclass
          exact ⟨hrest, fun d hd => absurd hd (hne d)⟩
      · cases h
        exact ⟨List.suffix_refl _, fun d hd => (Token.char.inj hd).symm⟩

/-- A pattern names no characters that do not stand in it. -/
theorem mem_of_char_mem_tokensFrom {pos : Nat} {before? : Option Char} {cs : List Char}
    {ts : List Token} (h : tokensFrom pos before? cs = .ok ts) {d : Char} (hd : .char d ∈ ts) :
    d ∈ cs := by
  fun_induction tokensFrom pos before? cs generalizing ts with
  | case1 =>
    cases h
    cases hd
  | case2 => cases h
  | case3 pos before? c rest s hs _ ih =>
    obtain ⟨hsuffix, hchar⟩ := suffix_of_takeToken hs
    cases hrest : tokensFrom s.position (some s.before) s.rest with
    | error f =>
      rw [hrest] at h
      cases h
    | ok ts' =>
      rw [hrest] at h
      obtain rfl := (Except.ok.inj h).symm
      -- the character is the first item, or one of the text behind it
      rcases List.mem_cons.1 hd with hd | hd
      · rw [hchar d hd.symm]
        exact List.mem_cons_self
      · exact List.mem_cons_of_mem _ (hsuffix.subset (ih hrest hd))

/-- The name that items spell is made of their characters. -/
theorem mem_of_literal? {ts : List Token} {name : List Char} (h : literal? ts = some name) :
    ∀ c ∈ name, .char c ∈ ts := by
  induction ts generalizing name with
  | nil =>
    cases h
    simp
  | cons t ts ih =>
    cases t with
    | char d =>
      obtain ⟨name', hname', rfl⟩ := Option.map_eq_some_iff.1 h
      intro c hc
      rcases List.mem_cons.1 hc with rfl | hc
      · exact List.mem_cons_self
      · exact List.mem_cons_of_mem _ (ih hname' c hc)
    | any | sequence | directories | oneOf | noneOf => cases h

end IconCompiler.Glob
