import Mathlib.Data.List.Basic

/-!
# Reading fragments

A fragment is read character by character: as a text with tags in it, in which a brace opens an
expression, as a tag with quoted values and expressions in it, or as an expression with strings and
further braces in it. What is read is the text again, with the role of every character.

The reader takes only what it can tell the roles in. A slash that does not close an element might
start a comment, and a backtick a template; a brace or bracket that closes nothing is an error in a
text, as is the end of a line in a string.

## Key results

- `readFrom_eq_some_iff`: reading is following marks to the end
- `follow_append`, `follow_flatMap`: marks are followed part by part
-/

namespace IconCompiler.Jsx

/-- What a character of a fragment is. -/
inductive Role where
  /-- A character of a text. -/
  | text
  /-- A bracket of a tag, or the slash behind it. -/
  | bracket
  /-- A character of a tag outside values: of a name, or between names. -/
  | tag
  /-- A quote around a value or a string. -/
  | quote
  /-- A character of a value or a string. -/
  | quoted
  /-- A brace around an expression, or inside one. -/
  | brace
  /-- Any other character of an expression. -/
  | code
  deriving DecidableEq

/-- Where a reader stands. -/
inductive Reader where
  /-- In a text. -/
  | text
  /-- Behind the bracket that opens a tag. -/
  | opening
  /-- In a tag. -/
  | tag
  /-- In the value of an attribute. -/
  | value (quote : Char)
  /-- In an expression of a tag or of a text, with `depth` braces open inside it. -/
  | code (inTag : Bool) (depth : Nat)
  /-- In a string of an expression, maybe behind a backslash. -/
  | string (inTag : Bool) (depth : Nat) (quote : Char) (escaped : Bool)
  deriving DecidableEq

namespace Reader

/-- Reads a character of a tag. -/
def stepTag (c : Char) : Option (Role × Reader) :=
  if c = '>' then some (.bracket, .text)
  else if c = '"' || c = '\'' then some (.quote, .value c)
  else if c = '{' then some (.brace, .code true 0)
  else if c = '<' || c = '}' || c = '/' then none
  else some (.tag, .tag)

/-- Reads a character of an expression. -/
def stepCode (inTag : Bool) (depth : Nat) (c : Char) : Option (Role × Reader) :=
  if c = '{' then some (.brace, .code inTag (depth + 1))
  else if c = '}' then
    match depth with
    | 0 => some (.brace, if inTag then .tag else .text)
    | depth + 1 => some (.brace, .code inTag depth)
  else if c = '"' || c = '\'' then some (.quote, .string inTag depth c false)
  else if c = '/' || c = '\x60' then none
  else some (.code, .code inTag depth)

/-- Reads a character: its role, and where the reader stands behind it. -/
def step : Reader → Char → Option (Role × Reader)
  | .text, c =>
    if c = '<' then some (.bracket, .opening)
    else if c = '{' then some (.brace, .code false 0)
    else if c = '>' || c = '}' then none
    else some (.text, .text)
  | .opening, c => if c = '/' then some (.bracket, .tag) else stepTag c
  | .tag, c => stepTag c
  | .value quote, c => if c = quote then some (.quote, .tag) else some (.quoted, .value quote)
  | .code inTag depth, c => stepCode inTag depth c
  | .string inTag depth quote true, _ => some (.quoted, .string inTag depth quote false)
  | .string inTag depth quote false, c =>
    if c = quote then some (.quote, .code inTag depth)
    else if c = '\\' then some (.quoted, .string inTag depth quote true)
    else if c = '\n' || c = '\r' then none
    else some (.quoted, .string inTag depth quote false)

end Reader

/-- Reads a text to its end, which has to be outside all tags and expressions. -/
def readFrom (s : Reader) : List Char → Option (List (Char × Role))
  | [] => if s = .text then some [] else none
  | c :: cs =>
    match s.step c with
    | none => none
    | some (r, s') => (readFrom s' cs).map ((c, r) :: ·)

/-- Reads a fragment: its characters with their roles. -/
def readFragment (jsx : String) : Option (List (Char × Role)) :=
  readFrom .text jsx.toList

/-! ## Following marks -/

/-- Where a reader stands behind characters, if it finds them in the roles that are marked. -/
def follow (s : Reader) : List (Char × Role) → Option Reader
  | [] => some s
  | m :: ms =>
    match s.step m.1 with
    | none => none
    | some (r, s') => if r = m.2 then follow s' ms else none

/-- Reading is following marks to the end. -/
theorem readFrom_eq_some_iff {s : Reader} {cs : List Char} {ms : List (Char × Role)} :
    readFrom s cs = some ms ↔ ms.map Prod.fst = cs ∧ follow s ms = some .text := by
  -- over the text, from wherever the reader stands
  induction cs generalizing s ms with
  | nil =>
    rw [readFrom, List.map_eq_nil_iff]
    constructor
    · intro h
      split at h
      · rename_i hs
        cases h
        exact ⟨rfl, by rw [hs]; rfl⟩
      · cases h
    · rintro ⟨rfl, h⟩
      rw [if_pos (Option.some.inj h)]
  | cons c cs ih =>
    rw [readFrom]
    -- there is one mark for each character
    cases ms with
    | nil => cases s.step c <;> simp
    | cons m ms =>
      obtain ⟨d, r⟩ := m
      rw [List.map_cons, List.cons.injEq]
      constructor
      · intro h
        split at h
        · cases h
        · -- the role that is read is the one that the step gives, so it is followed
          rename_i r' s' hstep
          obtain ⟨ms', hms', heq⟩ := Option.map_eq_some_iff.1 h
          obtain ⟨hm, rfl⟩ := List.cons.inj heq
          obtain ⟨rfl, rfl⟩ := Prod.mk.inj hm
          obtain ⟨hfst, hfollow⟩ := ih.1 hms'
          exact ⟨⟨rfl, hfst⟩, by simp [follow, hstep, hfollow]⟩
      · rintro ⟨⟨rfl, hfst⟩, h⟩
        rw [follow] at h
        split at h
        · cases h
        · rename_i r' s' hstep
          split at h
          · rename_i hr
            dsimp only at hr
            rw [← hr]
            exact Option.map_eq_some_iff.2 ⟨ms, ih.2 ⟨hfst, h⟩, rfl⟩
          · cases h

/-- Marks are followed from one part to the next. -/
theorem follow_append (s : Reader) (ms ns : List (Char × Role)) :
    follow s (ms ++ ns) = (follow s ms).bind fun s' => follow s' ns := by
  induction ms generalizing s with
  | nil => rfl
  | cons m ms ih =>
    rw [List.cons_append, follow, follow]
    split
    · rfl
    · split
      · exact ih _
      · rfl

/-- Parts that lead back to where they start, as far as they can be followed, are followed one by
    one. -/
theorem follow_flatMap {α : Type} {s : Reader} {f : α → List (Char × Role)} {p : α → Bool}
    {as : List α} (h : ∀ a ∈ as, follow s (f a) = if p a then some s else none) :
    follow s (as.flatMap f) = if as.all p then some s else none := by
  induction as with
  | nil => rfl
  | cons a as ih =>
    rw [List.forall_mem_cons] at h
    rw [List.flatMap_cons, follow_append, h.1, List.all_cons]
    -- a part that cannot be followed stops the reader, any other one brings it back
    cases p a with
    | false => rfl
    | true =>
      rw [if_pos rfl, Option.bind_some, ih h.2]
      rfl

/-- Characters in one role. -/
def marked (r : Role) (cs : List Char) : List (Char × Role) :=
  cs.map fun c => (c, r)

/-- Marks leave the characters as they are. -/
theorem map_fst_marked (r : Role) (cs : List Char) : (marked r cs).map Prod.fst = cs := by
  simp [marked, Function.comp_def]

/-- Characters in the role of the place where they stand. -/
private theorem follow_marked {s : Reader} {r : Role} {p : Char → Bool}
    (h : ∀ c, follow s [(c, r)] = if p c then some s else none) (cs : List Char) :
    follow s (marked r cs) = if cs.all p then some s else none := by
  have hflat : marked r cs = cs.flatMap fun c => [(c, r)] := by
    rw [marked, ← List.flatMap_pure_eq_map]
    rfl
  rw [hflat]
  exact follow_flatMap fun c _ => h c

/-! ## Characters that end a role -/

/-- Whether a text has none of some characters. -/
def avoids (marks cs : List Char) : Bool :=
  cs.all fun c => !marks.contains c

/-- Characters of a kind to which no mark belongs are no marks. -/
theorem avoids_of_all {marks cs : List Char} {p : Char → Bool} (hp : marks.any p = false)
    (h : cs.all p = true) : avoids marks cs = true := by
  rw [avoids, List.all_eq_true]
  rw [List.all_eq_true] at h
  intro c hc
  -- a mark among the characters would be of the kind to which no mark belongs
  have hnot : c ∉ marks := fun hmem => List.any_eq_false.1 hp c hmem (h c hc)
  simpa using hnot

/-- Characters in one role are followed exactly if none of them leads out of it. -/
theorem follow_marked_of_avoids {s : Reader} {r : Role} {marks : List Char}
    (hkeep : ∀ c, c ∉ marks → s.step c = some (r, s))
    (hleave : (marks.any fun c => (follow s [(c, r)]).isSome) = false) (cs : List Char) :
    follow s (marked r cs) = if avoids marks cs then some s else none := by
  refine follow_marked (fun c => ?_) cs
  -- a mark cannot be followed in this role, and any other character leads back
  by_cases hc : c ∈ marks
  · have hnone : follow s [(c, r)] = none := by simpa using List.any_eq_false.1 hleave c hc
    simp [hc, hnone]
  · simp [hc, follow, hkeep c hc]

end IconCompiler.Jsx
