/-!
# Glob patterns

A pattern is a text in which a question mark stands for any character, an asterisk for any text,
brackets for one character of a class, and a component of two asterisks for any directories. There
are no escapes: a class with one character stands for that character.
-/

namespace IconCompiler.Glob

/-- An item of a class in brackets. -/
inductive ClassItem where
  | single (c : Char)
  | range (low high : Char)
  deriving Repr, DecidableEq

/-- An item of a pattern. -/
inductive Token where
  | char (c : Char)
  /-- Any one character. -/
  | any
  /-- Any text. -/
  | sequence
  /-- Any directories. -/
  | directories
  /-- One character of a class. -/
  | oneOf (items : List ClassItem)
  /-- One character outside a class. -/
  | noneOf (items : List ClassItem)
  deriving Repr, DecidableEq

/-- What is wrong with a pattern. -/
inductive PatternCause where
  /-- More than two asterisks stand in a row. -/
  | wildcards
  /-- Two asterisks stand beside something other than a slash. -/
  | directoryWildcard
  /-- A bracket opens no class. -/
  | bracket
  deriving Repr, DecidableEq

/-- What is wrong with a pattern, and before how many characters from its start. -/
structure PatternFault where
  position : Nat
  cause : PatternCause
  deriving Repr, DecidableEq

/-- The wording of a cause. -/
def PatternCause.message : PatternCause → String
  | .wildcards => "wildcards are either regular `*` or recursive `**`"
  | .directoryWildcard => "recursive wildcards must form a single path component"
  | .bracket => "invalid range pattern"

/-- The wording of a fault. -/
def PatternFault.message (f : PatternFault) : String :=
  "Pattern syntax error near position " ++ toString f.position ++ ": " ++ f.cause.message

/-- The items of the text between brackets: a hyphen between two characters makes a range. -/
def classItems : List Char → List ClassItem
  | low :: '-' :: high :: cs => .range low high :: classItems cs
  | c :: cs => .single c :: classItems cs
  | [] => []

/-- The texts before and after the first closing bracket. -/
def cutAtBracket : List Char → Option (List Char × List Char)
  | [] => none
  | c :: cs =>
    if c = ']' then some ([], cs) else (cutAtBracket cs).map fun p => (c :: p.1, p.2)

/-- Reads a class after its opening bracket: the token, how many characters it takes and the text
    that follows. The first character of a class never ends it. -/
def takeClass : List Char → Option (Token × Nat × List Char)
  | '!' :: c :: cs =>
    (cutAtBracket cs).map fun p => (.noneOf (classItems (c :: p.1)), p.1.length + 3, p.2)
  | '!' :: [] => none
  | c :: cs => (cutAtBracket cs).map fun p => (.oneOf (classItems (c :: p.1)), p.1.length + 2, p.2)
  | [] => none

/-- What follows the bracket is shorter than the text, which holds the bracket besides. -/
private theorem cutAtBracket_length {cs a b : List Char} (h : cutAtBracket cs = some (a, b)) :
    b.length < cs.length := by
  induction cs generalizing a with
  | nil => simp [cutAtBracket] at h
  | cons c cs ih =>
    simp only [cutAtBracket] at h
    split at h
    · cases h
      simp
    · obtain ⟨⟨a', b'⟩, hab, heq⟩ := Option.map_eq_some_iff.1 h
      cases heq
      exact Nat.lt_succ_of_lt (ih hab)

/-- What follows a class is shorter than the text behind its opening bracket. -/
private theorem takeClass_length {cs rest : List Char} {t : Token} {n : Nat}
    (h : takeClass cs = some (t, n, rest)) : rest.length < cs.length := by
  unfold takeClass at h
  split at h
  · obtain ⟨⟨a, b⟩, hab, heq⟩ := Option.map_eq_some_iff.1 h
    cases heq
    have := cutAtBracket_length hab
    simp only [List.length_cons]
    omega
  · cases h
  · obtain ⟨⟨a, b⟩, hab, heq⟩ := Option.map_eq_some_iff.1 h
    cases heq
    have := cutAtBracket_length hab
    simp only [List.length_cons]
    omega
  · cases h

/-- An item at the front of a text, with the position after it, the character before that position
    and the text from there on. -/
structure TokenStep where
  token : Token
  position : Nat
  before : Char
  rest : List Char

/-- Reads a run of two asterisks at `pos`, given the character before it and the text after it. It
    has to fill a component; a slash after it belongs to it. -/
def takeDirectories (pos : Nat) (before? : Option Char) (rest : List Char) :
    Except PatternFault TokenStep :=
  if before? = none || before? = some '/' then
    match rest with
    | [] => .ok ⟨.directories, pos + 2, '*', []⟩
    | c :: cs =>
      if c = '/' then .ok ⟨.directories, pos + 3, '/', cs⟩
      else .error ⟨pos + 2, .directoryWildcard⟩
  else .error ⟨pos - 1, .directoryWildcard⟩

/-- Reads the item that starts with the character `c` at position `pos`, given the character before
    it and the text after it. -/
def takeToken (pos : Nat) (before? : Option Char) (c : Char) (cs : List Char) :
    Except PatternFault TokenStep :=
  if c = '?' then .ok ⟨.any, pos + 1, c, cs⟩
  else if c = '*' then
    match cs.takeWhile (· = '*') with
    | [] => .ok ⟨.sequence, pos + 1, c, cs⟩
    | [_] => takeDirectories pos before? (cs.dropWhile (· = '*'))
    | _ => .error ⟨pos + 2, .wildcards⟩
  else if c = '[' then
    match takeClass cs with
    | none => .error ⟨pos, .bracket⟩
    | some (t, n, rest) => .ok ⟨t, pos + 1 + n, ']', rest⟩
  else .ok ⟨.char c, pos + 1, c, cs⟩

/-- What follows the asterisks is no longer than the text behind them. -/
private theorem takeDirectories_length {pos : Nat} {before? : Option Char} {rest : List Char}
    {s : TokenStep} (h : takeDirectories pos before? rest = .ok s) :
    s.rest.length ≤ rest.length := by
  unfold takeDirectories at h
  split at h
  · split at h
    · cases h
      simp
    · split at h
      · cases h
        simp
      · cases h
  · cases h

/-- What follows an item is no longer than the text behind its first character, so reading items
    comes to an end. -/
private theorem takeToken_length {pos : Nat} {before? : Option Char} {c : Char} {cs : List Char}
    {s : TokenStep} (h : takeToken pos before? c cs = .ok s) : s.rest.length ≤ cs.length := by
  unfold takeToken at h
  split at h
  · cases h
    simp
  · split at h
    · split at h
      · cases h
        simp
      · exact Nat.le_trans (takeDirectories_length h) (List.dropWhile_sublist _).length_le
      · cases h
    · split at h
      · split at h
        · cases h
        · rename_i hc
          cases h
          exact Nat.le_of_lt (takeClass_length hc)
      · cases h
        simp

/-- Reads a text at position `pos` of a pattern, given the character before it. -/
def tokensFrom (pos : Nat) (before? : Option Char) (cs : List Char) :
    Except PatternFault (List Token) :=
  match cs with
  | [] => .ok []
  | c :: rest =>
    match h : takeToken pos before? c rest with
    | .error f => .error f
    | .ok s =>
      have := takeToken_length h
      (tokensFrom s.position (some s.before) s.rest).map (s.token :: ·)
termination_by cs.length
decreasing_by simp only [List.length_cons]; omega

/-- The items of a pattern. -/
def tokens (pattern : List Char) : Except PatternFault (List Token) :=
  tokensFrom 0 none pattern

/-- A text as a pattern that matches nothing else: characters with a meaning stand in brackets. -/
def escape (cs : List Char) : List Char :=
  cs.flatMap fun c =>
    if c = '?' || c = '*' || c = '[' || c = ']' then ['[', c, ']'] else [c]

/-! ## Components -/

/-- A component of a pattern. -/
inductive Part where
  /-- A name, which is looked up. -/
  | literal (name : List Char)
  /-- Items, which are matched with the names in a directory. -/
  | wild (items : List Token)
  /-- Any directories. -/
  | directories
  deriving Repr, DecidableEq

/-- The name that items spell, if all of them are characters. -/
def literal? : List Token → Option (List Char)
  | [] => some []
  | .char c :: ts => (literal? ts).map (c :: ·)
  | _ :: _ => none

/-- The component with the given items. -/
def Part.ofTokens (ts : List Token) : Part :=
  match literal? ts with
  | some name => .literal name
  | none => if ts = [.directories] then .directories else .wild ts

/-- The parts of a text between slashes; there is one more than there are slashes. -/
def splitSlashes : List Char → List (List Char)
  | [] => [[]]
  | c :: cs =>
    if c = '/' then [] :: splitSlashes cs
    else
      match splitSlashes cs with
      | [] => [[c]]
      | p :: rest => (c :: p) :: rest

/-- The texts of a pattern's components: a slash at its end has nothing after it, and a pattern
    without text has one component without text. -/
def partTexts (cs : List Char) : List (List Char) :=
  if cs.isEmpty then [[]]
  else
    let texts := splitSlashes cs
    if texts.getLast? = some [] then texts.dropLast else texts

/-- A pattern whose components have been read. -/
structure Pattern where
  /-- Whether it starts at the root directory. -/
  absolute : Bool
  parts : List Part
  /-- Whether it matches nothing but directories. -/
  onlyDirs : Bool
  deriving Repr, DecidableEq

/-- Reads a pattern: first as a whole, then every component on its own. -/
def Pattern.read (pattern : String) : Except PatternFault Pattern :=
  let cs := pattern.toList
  match tokens cs with
  | .error f => .error f
  | .ok _ =>
    -- a class that holds a slash passes as a whole and fails as two components
    let absolute := cs.head? = some '/'
    let rest := if absolute then cs.tail else cs
    match (partTexts rest).mapM tokens with
    | .error f => .error f
    | .ok parts => .ok ⟨absolute, parts.map .ofTokens, cs.getLast? = some '/'⟩

end IconCompiler.Glob
