/-!
# The declarations of a style text

A style text is cut at its top-level semicolons: those outside quotes and parentheses and not
after a backslash.
-/

namespace IconCompiler.Style

/-- Where a scan of a style text stands. -/
structure Scanner where
  /-- The quote that is open. -/
  quote : Option Char
  /-- How many parentheses are open. -/
  depth : Nat
  /-- Whether the next character follows a backslash. -/
  escaped : Bool
  deriving Repr, DecidableEq

namespace Scanner

/-- Where a scan starts: outside everything. -/
def initial : Scanner :=
  ⟨none, 0, false⟩

/-- Whether a character ends a declaration here. -/
def splitsAt (s : Scanner) (c : Char) : Bool :=
  c = ';' && s.quote = none && s.depth = 0 && !s.escaped

/-- The scan after one more character. A backslash takes the meaning from the next character, inside
    quotes and outside; parentheses inside quotes do not count, and a closing one without an opening
    one is ignored. -/
def step (s : Scanner) (c : Char) : Scanner :=
  if s.escaped then { s with escaped := false }
  else if c = '\\' then { s with escaped := true }
  else
    match s.quote with
    | some q => if c = q then { s with quote := none } else s
    | none =>
      if c = '"' || c = '\'' then { s with quote := some c }
      else if c = '(' then { s with depth := s.depth + 1 }
      else if c = ')' then { s with depth := s.depth - 1 }
      else s

/-- The scan after a text. -/
def run (s : Scanner) (cs : List Char) : Scanner :=
  cs.foldl step s

end Scanner

/-- Cuts a text at its top-level semicolons, for a scan that stands at `s`. -/
def splitFrom (s : Scanner) : List Char → List (List Char)
  | [] => [[]]
  | c :: cs =>
    if s.splitsAt c then [] :: splitFrom (s.step c) cs
    else
      match splitFrom (s.step c) cs with
      | [] => [[c]]
      | piece :: rest => (c :: piece) :: rest

/-- The declarations of a style text, with the white space around them. -/
def splitDeclarations (cs : List Char) : List (List Char) :=
  splitFrom .initial cs

/-- The texts before and after the first colon. -/
def cutAtColon : List Char → Option (List Char × List Char)
  | [] => none
  | c :: cs =>
    if c = ':' then some ([], cs)
    else (cutAtColon cs).map fun p => (c :: p.1, p.2)

end IconCompiler.Style
