import IconCompiler.Location
import IconCompiler.Markup.Lexical
import Mathlib.Data.List.Induction
import Mathlib.Data.Nat.Find

/-!
# Locations of offsets

The location of an offset counts the line feeds in front of it, and the characters behind the last
of them. An offset inside a character stands for the start of that character, one past the end for
the end. Counting the same line feeds and characters again leads back to the place, so different
places have different locations.

## Key results

- `ofOffset_eq_behind`: the location of an offset is the one behind the characters in front of it
- `textFrom?_behind`: a location leads back to its place
- `ofOffset_exact`: locations are exact, in order and different for different places
-/

namespace IconCompiler

namespace Markup

/-! ## Bytes -/

theorem byteLength_cons (c : Char) (cs : List Char) :
    byteLength (c :: cs) = c.utf8Size + byteLength cs := rfl

theorem byteLength_cons_pos (c : Char) (cs : List Char) : 0 < byteLength (c :: cs) :=
  Nat.lt_of_lt_of_le c.utf8Size_pos (Nat.le_add_right _ _)

theorem byteLength_append (a b : List Char) :
    byteLength (a ++ b) = byteLength a + byteLength b := by
  induction a with
  | nil => exact (Nat.zero_add _).symm
  | cons c a ih =>
    rw [List.cons_append, byteLength_cons, byteLength_cons, ih]
    omega

/-- A text has no more characters than bytes. -/
theorem length_le_byteLength (cs : List Char) : cs.length ≤ byteLength cs := by
  induction cs with
  | nil => exact Nat.le_refl _
  | cons c cs ih =>
    have := c.utf8Size_pos
    rw [byteLength_cons, List.length_cons]
    omega

/-- Where two cuts of a text leave the same number of bytes in front, they are the same. -/
theorem append_inj_of_byteLength {a b a' b' : List Char} (h : a ++ b = a' ++ b')
    (hbytes : byteLength a = byteLength a') : a = a' ∧ b = b' := by
  -- one character at a time: a cut further on would have more bytes in front
  induction a generalizing a' with
  | nil =>
    cases a' with
    | nil => exact ⟨rfl, h⟩
    | cons c a' =>
      have hpos := byteLength_cons_pos c a'
      rw [← hbytes] at hpos
      exact absurd hpos (Nat.lt_irrefl 0)
  | cons c a ih =>
    cases a' with
    | nil =>
      have hpos := byteLength_cons_pos c a
      rw [hbytes] at hpos
      exact absurd hpos (Nat.lt_irrefl 0)
    | cons d a' =>
      obtain ⟨rfl, htail⟩ := List.cons.inj h
      rw [byteLength_cons, byteLength_cons] at hbytes
      obtain ⟨rfl, rfl⟩ := ih htail (by omega)
      exact ⟨rfl, rfl⟩

/-- The bytes of a string are those of its characters. -/
theorem byteLength_toList (s : String) : byteLength s.toList = s.utf8ByteSize := by
  -- strings are put together from characters as lists are
  have hofList : ∀ cs : List Char, byteLength cs = (String.ofList cs).utf8ByteSize := by
    intro cs
    induction cs with
    | nil => rfl
    | cons c cs ih =>
      rw [byteLength_cons, ih, String.ofList_cons, String.utf8ByteSize_append,
        String.utf8ByteSize_singleton]
  rw [hofList, String.ofList_toList]

end Markup

namespace Location

open Markup

/-! ## The location behind a text -/

/-- The location behind a text: one more than its line feeds, and one more than the characters
    behind the last of them. -/
def behind (cs : List Char) : Location :=
  ⟨none, cs.count '\n' + 1, (cs.reverse.takeWhile (· ≠ '\n')).length + 1⟩

/-- One more character goes to the next line if it is a line feed, and to the next column if not. -/
private theorem behind_concat (cs : List Char) (c : Char) :
    behind (cs ++ [c]) =
      if c = '\n' then ⟨none, (behind cs).line + 1, 1⟩
      else ⟨none, (behind cs).line, (behind cs).column + 1⟩ := by
  by_cases hc : c = '\n'
  · simp [behind, hc]
  · simp [behind, hc]

/-- Whether the characters `before`, in front of `after`, are those that end within `budget`
    bytes. -/
structure IsCut (before after : List Char) (budget : Nat) : Prop where
  fits : byteLength before ≤ budget
  next : ∀ c ∈ after.head?, budget < byteLength before + c.utf8Size

/-- The characters of a text that end within a number of bytes. -/
def within : (budget : Nat) → List Char → List Char
  | _, [] => []
  | budget, c :: cs => if c.utf8Size ≤ budget then c :: within (budget - c.utf8Size) cs else []

/-- Every text can be cut within a number of bytes. -/
private theorem exists_isCut_within (budget : Nat) (cs : List Char) :
    ∃ after, cs = within budget cs ++ after ∧ IsCut (within budget cs) after budget := by
  -- over the text, with less of the budget for each character
  induction cs generalizing budget with
  | nil => exact ⟨[], rfl, Nat.zero_le _, by simp⟩
  | cons c cs ih =>
    rw [within]
    split
    · -- the character fits, and the rest is cut within what it leaves of the bytes
      rename_i hfits
      obtain ⟨after, hcs, hcut⟩ := ih (budget - c.utf8Size)
      have hbefore := hcut.fits
      refine ⟨after, by rw [List.cons_append, ← hcs], ?_, fun d hd => ?_⟩
      · rw [byteLength_cons]
        omega
      · have hnext := hcut.next d hd
        rw [byteLength_cons]
        omega
    · rename_i hfits
      refine ⟨c :: cs, rfl, Nat.zero_le _, fun d hd => ?_⟩
      cases hd
      show budget < 0 + c.utf8Size
      omega

/-- A place in front of a whole character is cut at by its own bytes. -/
theorem isCut_self (before after : List Char) : IsCut before after (byteLength before) :=
  ⟨Nat.le_refl _, fun c _ => Nat.lt_add_of_pos_right c.utf8Size_pos⟩

/-- A walk goes over the characters that its budget reaches, wherever it starts. -/
private theorem walk_append (seen : List Char) {before after : List Char} {budget : Nat}
    (h : IsCut before after budget) :
    walk (before ++ after) budget (behind seen).line (behind seen).column =
      ((behind (seen ++ before)).line, (behind (seen ++ before)).column) := by
  -- over the characters that are walked over; those seen so far give the line and column
  induction before generalizing seen budget with
  | nil =>
    rw [List.append_nil, List.nil_append]
    cases after with
    | nil => rw [walk]
    | cons c after =>
      have hnext : budget < 0 + c.utf8Size := h.next c rfl
      rw [walk, if_neg (by omega)]
  | cons c before ih =>
    have hfits : c.utf8Size + byteLength before ≤ budget := h.fits
    have hrest : IsCut before after (budget - c.utf8Size) := by
      refine ⟨by omega, fun d hd => ?_⟩
      have hnext : budget < c.utf8Size + byteLength before + d.utf8Size := h.next d hd
      omega
    -- the walk goes on behind one more character, with what that leaves of the budget
    have hstep := ih (seen ++ [c]) hrest
    rw [List.append_assoc, List.singleton_append, behind_concat] at hstep
    rw [List.cons_append, walk, if_pos (by omega)]
    split
    · rename_i hc
      rwa [if_pos hc] at hstep
    · rename_i hc
      rwa [if_neg hc] at hstep

/-- The location of an offset is the one behind the characters that end in front of it. -/
theorem ofOffset_eq_behind {text : String} {offset : Nat} {before after : List Char}
    (htext : text.toList = before ++ after) (h : IsCut before after offset) :
    ofOffset text offset = behind before := by
  have hwalk : walk (before ++ after) offset 1 1 =
      ((behind before).line, (behind before).column) := walk_append [] h
  rw [ofOffset, htext, hwalk]
  rfl

/-- The location of an offset is the one behind the characters that end within its bytes. -/
theorem ofOffset_eq_behind_within (text : String) (offset : Nat) :
    ofOffset text offset = behind (within offset text.toList) := by
  obtain ⟨after, htext, hcut⟩ := exists_isCut_within offset text.toList
  exact ofOffset_eq_behind htext hcut

/-- Whether two texts end in the same line and column: they have as many line feeds as one another,
    and as many characters behind the last of them. -/
structure EndAlike (cs cs' : List Char) : Prop where
  lines : cs.count '\n' = cs'.count '\n'
  columns : (cs.reverse.takeWhile (· ≠ '\n')).length = (cs'.reverse.takeWhile (· ≠ '\n')).length

/-- The location behind a text tells its line feeds and the characters behind the last of them. -/
theorem behind_eq_iff {cs cs' : List Char} : behind cs = behind cs' ↔ EndAlike cs cs' := by
  rw [behind, behind, Location.mk.injEq]
  constructor
  · rintro ⟨-, hlines, hcolumns⟩
    exact ⟨Nat.add_right_cancel hlines, Nat.add_right_cancel hcolumns⟩
  · rintro ⟨hlines, hcolumns⟩
    exact ⟨rfl, congrArg (· + 1) hlines, congrArg (· + 1) hcolumns⟩

/-! ## The text from a location on -/

/-- The text behind a number of line feeds. -/
def afterLineFeeds : Nat → List Char → Option (List Char)
  | 0, cs => some cs
  | _ + 1, [] => none
  | n + 1, c :: cs => afterLineFeeds (if c = '\n' then n else n + 1) cs

/-- The text behind a number of characters, none of which is a line feed. -/
def afterColumns : Nat → List Char → Option (List Char)
  | 0, cs => some cs
  | _ + 1, [] => none
  | n + 1, c :: cs => if c = '\n' then none else afterColumns n cs

/-- The text from a location on: behind the line feeds that end the lines before its line, and
    behind the characters in the columns before its column. -/
def textFrom? (cs : List Char) (loc : Location) : Option (List Char) :=
  (afterLineFeeds (loc.line - 1) cs).bind (afterColumns (loc.column - 1))

/-- Behind one more line feed is behind the next line feed from there. -/
private theorem afterLineFeeds_succ (n : Nat) (cs : List Char) :
    afterLineFeeds (n + 1) cs = (afterLineFeeds n cs).bind (afterLineFeeds 1) := by
  induction cs generalizing n with
  | nil => cases n <;> rfl
  | cons c cs ih =>
    cases n with
    | zero => rfl
    | succ n =>
      rw [afterLineFeeds, afterLineFeeds]
      split
      · exact ih n
      · exact ih (n + 1)

/-- Behind one more character is behind the next character from there. -/
private theorem afterColumns_succ (n : Nat) (cs : List Char) :
    afterColumns (n + 1) cs = (afterColumns n cs).bind (afterColumns 1) := by
  induction cs generalizing n with
  | nil => cases n <;> rfl
  | cons c cs ih =>
    cases n with
    | zero => rfl
    | succ n =>
      rw [afterColumns, afterColumns]
      split
      · rfl
      · exact ih n

/-- A line feed that is reached by columns is the next one. -/
private theorem afterLineFeeds_one_of_afterColumns {n : Nat} {cs after : List Char}
    (h : afterColumns n cs = some ('\n' :: after)) : afterLineFeeds 1 cs = some after := by
  induction n generalizing cs with
  | zero =>
    cases h
    rw [afterLineFeeds, if_pos rfl, afterLineFeeds]
  | succ n ih =>
    cases cs with
    | nil => cases h
    | cons c cs =>
      rw [afterColumns] at h
      split at h
      · cases h
      · rename_i hc
        rw [afterLineFeeds, if_neg hc]
        exact ih h

/-- The location behind a text leads back to what follows it. -/
theorem textFrom?_behind (before after : List Char) :
    textFrom? (before ++ after) (behind before) = some after := by
  -- a line is counted from the line feed in front, so the text grows at its end
  induction before using List.reverseRecOn generalizing after with
  | nil => simp [textFrom?, behind, afterLineFeeds, afterColumns]
  | append_singleton before c ih =>
    obtain ⟨line, hline, hcolumn⟩ := Option.bind_eq_some_iff.1 (ih (c :: after))
    rw [List.append_assoc, List.singleton_append, behind_concat]
    split
    · -- a line feed opens the next line, at its first column
      rename_i hc
      subst hc
      have hnext : afterLineFeeds ((behind before).line - 1 + 1) (before ++ '\n' :: after) =
          some after := by
        rw [afterLineFeeds_succ, hline, Option.bind_some,
          afterLineFeeds_one_of_afterColumns hcolumn]
      exact Option.bind_eq_some_iff.2 ⟨after, hnext, rfl⟩
    · -- any other character is passed as one more column of the same line
      rename_i hc
      have hnext : afterColumns ((behind before).column - 1 + 1) line = some after := by
        rw [afterColumns_succ, hcolumn, Option.bind_some, afterColumns, if_neg hc, afterColumns]
      exact Option.bind_eq_some_iff.2 ⟨line, hline, hnext⟩

/-! ## Boundaries of characters -/

/-- The last boundary between characters that is not behind an offset: the offset is brought back to
    the end of the text, and then in front of the character that it stands in. -/
def boundaryBelow (text : String) (offset : Nat) : Nat :=
  Nat.findGreatest (fun b => (⟨b⟩ : String.Pos.Raw).IsValid text) (min offset text.utf8ByteSize)

/-- A byte is a boundary if some characters of the text end at it. -/
private theorem isValid_iff {text : String} {b : Nat} :
    (⟨b⟩ : String.Pos.Raw).IsValid text ↔
      ∃ before after, text.toList = before ++ after ∧ b = byteLength before := by
  rw [String.Pos.Raw.isValid_iff_exists_append]
  constructor
  · rintro ⟨s, t, rfl, hb⟩
    refine ⟨s.toList, t.toList, String.toList_append, ?_⟩
    rw [byteLength_toList]
    exact congrArg String.Pos.Raw.byteIdx hb
  · rintro ⟨before, after, htext, rfl⟩
    refine ⟨String.ofList before, String.ofList after, ?_, ?_⟩
    · rw [← String.ofList_append, ← htext, String.ofList_toList]
    · rw [← String.toList_ofList (l := before), byteLength_toList, String.ofList_toList]
      rfl

/-- Cutting a text within a number of bytes is rounding down to a boundary. -/
private theorem boundaryBelow_eq {text : String} {offset : Nat} {before after : List Char}
    (htext : text.toList = before ++ after) (h : IsCut before after offset) :
    boundaryBelow text offset = byteLength before := by
  have hsize : text.utf8ByteSize = byteLength before + byteLength after := by
    rw [← byteLength_toList, htext, byteLength_append]
  -- it is a boundary, and no boundary up to the offset lies further on
  rw [boundaryBelow, Nat.findGreatest_eq_iff]
  refine ⟨Nat.le_min.2 ⟨h.fits, by omega⟩, fun _ => isValid_iff.2 ⟨before, after, htext, rfl⟩, ?_⟩
  intro b hlt hle hvalid
  obtain ⟨before', after', htext', rfl⟩ := isValid_iff.1 hvalid
  rw [htext, List.append_eq_append_iff] at htext'
  rcases htext' with ⟨more, rfl, hafter⟩ | ⟨more, rfl, -⟩
  · -- the boundary lies behind a character that is not reached
    rw [byteLength_append] at hlt hle
    cases more with
    | nil => exact absurd hlt (by simp [byteLength])
    | cons c more =>
      have hnext := h.next c (by rw [hafter]; rfl)
      rw [byteLength_cons] at hle
      omega
  · rw [byteLength_append] at hlt
    omega

/-- Where an offset stands: behind the characters that end within it,
    at the last boundary below it. -/
private theorem exists_boundary (text : String) (offset : Nat) :
    ∃ before after, text.toList = before ++ after ∧ IsCut before after offset ∧
      byteLength before = boundaryBelow text offset ∧ ofOffset text offset = behind before := by
  obtain ⟨after, htext, hcut⟩ := exists_isCut_within offset text.toList
  exact ⟨_, after, htext, hcut, (boundaryBelow_eq htext hcut).symm, ofOffset_eq_behind htext hcut⟩

/-- Places with one location are one place. -/
private theorem eq_of_behind_eq {before before' after after' : List Char}
    (htext : before ++ after = before' ++ after') (h : behind before = behind before') :
    before = before' := by
  have hafter := textFrom?_behind before after
  rw [h, htext, textFrom?_behind] at hafter
  cases hafter
  exact List.append_cancel_right htext

/-- The location of the bytes in front of a place leads to that place. -/
theorem textFrom?_ofOffset {text : String} {before after : List Char}
    (htext : text.toList = before ++ after) :
    textFrom? text.toList (ofOffset text (byteLength before)) = some after := by
  rw [ofOffset_eq_behind htext (isCut_self before after), htext, textFrom?_behind]

/-- The location of fewer bytes leads elsewhere. -/
theorem textFrom?_ofOffset_ne {text : String} {before after : List Char} {offset : Nat}
    (htext : text.toList = before ++ after) (h : offset < byteLength before) :
    textFrom? text.toList (ofOffset text offset) ≠ some after := by
  obtain ⟨before', after', htext', hcut, -, hloc⟩ := exists_boundary text offset
  rw [hloc, htext', textFrom?_behind]
  intro heq
  cases heq
  -- the same text behind both means the same text in front
  have hbefore : before' = before := List.append_cancel_right (htext'.symm.trans htext)
  have hfits := hcut.fits
  rw [hbefore] at hfits
  omega

/-! ## The order of locations -/

/-- Whether a location is not behind another one: on an earlier line, or on the same line and in no
    later column. -/
def NotAfter (loc loc' : Location) : Prop :=
  loc.line < loc'.line ∨ loc.line = loc'.line ∧ loc.column ≤ loc'.column

/-- Going on never leads back. -/
private theorem behind_notAfter (before more : List Char) :
    (behind before).NotAfter (behind (before ++ more)) := by
  -- the text grows at its end, by a line feed or by a column
  induction more using List.reverseRecOn with
  | nil =>
    rw [List.append_nil]
    exact .inr ⟨rfl, Nat.le_refl _⟩
  | append_singleton more c ih =>
    rw [← List.append_assoc, behind_concat]
    rw [NotAfter] at ih ⊢
    split
    · dsimp only
      omega
    · dsimp only
      omega

/-- What ends within fewer bytes stands at the front of what ends within more. -/
private theorem IsCut.prefix {before after before' after' : List Char} {offset offset' : Nat}
    (h : IsCut before after offset) (h' : IsCut before' after' offset') (hle : offset ≤ offset')
    (htext : before ++ after = before' ++ after') : before <+: before' := by
  rcases List.append_eq_append_iff.1 htext with ⟨more, rfl, -⟩ | ⟨more, rfl, hafter⟩
  · exact List.prefix_append _ _
  · cases more with
    | nil => simp
    | cons c more =>
      -- the longer cut would reach the next character
      have hfits := h.fits
      have hnext := h'.next c (by rw [hafter]; rfl)
      rw [byteLength_append, byteLength_cons] at hfits
      omega

/-- The location of an offset is not behind that of a later one. -/
theorem ofOffset_mono (text : String) {offset offset' : Nat} (h : offset ≤ offset') :
    (ofOffset text offset).NotAfter (ofOffset text offset') := by
  obtain ⟨before, after, htext, hcut, -, hloc⟩ := exists_boundary text offset
  obtain ⟨before', after', htext', hcut', -, hloc'⟩ := exists_boundary text offset'
  obtain ⟨more, rfl⟩ := hcut.prefix hcut' h (htext.symm.trans htext')
  rw [hloc, hloc']
  exact behind_notAfter before more

/-- Offsets that are four bytes apart have different locations. -/
theorem ofOffset_ne {text : String} {offset offset' : Nat} (h : offset + 4 ≤ offset')
    (hend : offset' ≤ byteLength text.toList) :
    ofOffset text offset ≠ ofOffset text offset' := by
  obtain ⟨before, after, htext, hcut, -, hloc⟩ := exists_boundary text offset
  obtain ⟨before', after', htext', hcut', -, hloc'⟩ := exists_boundary text offset'
  have hfits := hcut.fits
  -- a character has no more than four bytes, so the boundary is less than four bytes back
  have hreach : offset' < byteLength before' + 4 := by
    cases after' with
    | nil =>
      rw [htext', List.append_nil] at hend
      omega
    | cons c after' =>
      have hnext := hcut'.next c rfl
      have hsize := c.utf8Size_le_four
      omega
  rw [hloc, hloc']
  intro heq
  cases eq_of_behind_eq (htext.symm.trans htext') heq
  omega

/-- The location of an offset stands for the last boundary that is not behind the offset: behind as
    many line feeds as there are lines before its line, and as many characters without a line feed
    as there are columns before its column, the text goes on at that byte. Locations keep the order
    of offsets, and different boundaries have different locations. -/
theorem ofOffset_exact (text : String) :
    (∀ offset, ∃ before after : String, text = before ++ after ∧
      before.utf8ByteSize = boundaryBelow text offset ∧
        1 ≤ (ofOffset text offset).line ∧ 1 ≤ (ofOffset text offset).column ∧
          textFrom? text.toList (ofOffset text offset) = some after.toList) ∧
    (∀ offset offset', offset ≤ offset' →
      (ofOffset text offset).NotAfter (ofOffset text offset')) ∧
    ∀ b b' : String.Pos.Raw, b.IsValid text → b'.IsValid text →
      ofOffset text b.byteIdx = ofOffset text b'.byteIdx → b = b' := by
  refine ⟨fun offset => ?_, fun offset offset' => ofOffset_mono text, fun b b' hb hb' heq => ?_⟩
  · obtain ⟨before, after, htext, -, hbytes, hloc⟩ := exists_boundary text offset
    refine ⟨String.ofList before, String.ofList after, ?_, ?_, ?_, ?_, ?_⟩
    · rw [← String.ofList_append, ← htext, String.ofList_toList]
    · rw [← byteLength_toList, String.toList_ofList, hbytes]
    · rw [hloc]
      exact Nat.le_add_left _ _
    · rw [hloc]
      exact Nat.le_add_left _ _
    · rw [hloc, htext, String.toList_ofList]
      exact textFrom?_behind before after
  · obtain ⟨before, after, htext, hbyte⟩ := isValid_iff.1 hb
    obtain ⟨before', after', htext', hbyte'⟩ := isValid_iff.1 hb'
    rw [hbyte, hbyte', ofOffset_eq_behind htext (isCut_self before after),
      ofOffset_eq_behind htext' (isCut_self before' after')] at heq
    have hbefore := eq_of_behind_eq (htext.symm.trans htext') heq
    rw [hbefore, ← hbyte'] at hbyte
    exact String.Pos.Raw.ext hbyte

/-- A text with characters of two and of four bytes around a line feed. -/
def accentedText : String :=
  "é\n😀b"

/-- Inside the second line, an offset in a character is brought back to the start of it, and the
    places keep their order. -/
theorem ofOffset_exact_accentedText :
    ofOffset accentedText 5 = ⟨none, 2, 1⟩ ∧ boundaryBelow accentedText 5 = 3 ∧
      (ofOffset accentedText 1).NotAfter (ofOffset accentedText 5) ∧
        ofOffset accentedText 3 ≠ ofOffset accentedText 7 := by
  obtain ⟨hplace, horder, hdistinct⟩ := ofOffset_exact accentedText
  have hloc : ofOffset accentedText 5 = ⟨none, 2, 1⟩ := by decide +kernel
  obtain ⟨before, after, htext, hbytes, -, -, hfrom⟩ := hplace 5
  refine ⟨hloc, ?_, horder 1 5 (by decide), fun heq => ?_⟩
  · have hafter : textFrom? accentedText.toList (ofOffset accentedText 5) = some ['😀', 'b'] := by
      decide +kernel
    -- the bytes in front are those of the whole text without those behind
    have hsizes := congrArg String.utf8ByteSize htext
    rw [hafter] at hfrom
    rw [String.utf8ByteSize_append, hbytes, ← byteLength_toList after,
      ← Option.some.inj hfrom] at hsizes
    have hwhole : accentedText.utf8ByteSize = 8 := by decide +kernel
    have hrest : byteLength ['😀', 'b'] = 5 := by decide +kernel
    omega
  · have h₃ : (⟨3⟩ : String.Pos.Raw).IsValid accentedText :=
      isValid_iff.2 ⟨['é', '\n'], ['😀', 'b'], by decide +kernel, by decide +kernel⟩
    have h₇ : (⟨7⟩ : String.Pos.Raw).IsValid accentedText :=
      isValid_iff.2 ⟨['é', '\n', '😀'], ['b'], by decide +kernel, by decide +kernel⟩
    cases hdistinct ⟨3⟩ ⟨7⟩ h₃ h₇ heq

end Location

end IconCompiler
