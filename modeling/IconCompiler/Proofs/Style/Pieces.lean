import IconCompiler.Proofs.Style.Declarations
import IconCompiler.Proofs.Text.Cutting

/-!
# The pieces of a style text

A scan goes over a text without a cut, or a first semicolon finds it where it started. So a style
text is one piece, or a piece that leads the scan back to its start, a semicolon and a style text
behind it. Every property of the pieces follows by induction on that: joined by semicolons they are
the text again, each of them is scanned from the start without a cut, and no other pieces are so.
The pieces can be had as slices, from the position where one starts to the semicolon that ends it.

## Key results

- `pieceInduction`: a style text by its pieces
- `intercalate_splitDeclarations`: nothing is lost between the pieces
- `splitDeclarations_intercalate`: pieces are found again where semicolons part them
- `splitDeclarations_exact`: a text and its pieces, as slices
-/

namespace IconCompiler.Style

namespace Scanner

/-- Whether a scan goes over a text without a cut. -/
def Passes (s : Scanner) (cs : List Char) : Prop :=
  ∀ a c b, cs = a ++ c :: b → (s.run a).splitsAt c = false

/-- A scan cuts at the semicolons that find it where it started. -/
private theorem splitsAt_eq_true_iff {s : Scanner} {c : Char} :
    s.splitsAt c = true ↔ c = ';' ∧ s = .initial := by
  obtain ⟨quote, depth, escaped⟩ := s
  simp [splitsAt, initial, and_assoc]

/-- There is nothing to cut in the empty text. -/
private theorem passes_nil (s : Scanner) : s.Passes [] := by
  intro a c b h
  simp at h

/-- A scan goes over a text if it goes over its first character and then over the rest. -/
private theorem passes_cons {s : Scanner} {c : Char} {cs : List Char} :
    s.Passes (c :: cs) ↔ s.splitsAt c = false ∧ (s.step c).Passes cs := by
  constructor
  · intro h
    exact ⟨h [] c cs rfl, fun a d b hcs => h (c :: a) d b (congrArg (c :: ·) hcs)⟩
  · rintro ⟨hc, hcs⟩ a d b h
    cases a with
    | nil =>
      obtain ⟨rfl, -⟩ := List.cons.inj h
      exact hc
    | cons e a =>
      obtain ⟨rfl, htail⟩ := List.cons.inj h
      exact hcs a d b htail

instance decidablePasses : (s : Scanner) → (cs : List Char) → Decidable (s.Passes cs)
  | s, [] => .isTrue (passes_nil s)
  | s, c :: cs =>
    have := decidablePasses (s.step c) cs
    decidable_of_iff _ passes_cons.symm

/-- A scan goes over a text without a cut, or the first semicolon that cuts finds it where it
    started. -/
private theorem passes_or_exists_cut (s : Scanner) (cs : List Char) :
    s.Passes cs ∨ ∃ a b, cs = a ++ ';' :: b ∧ s.Passes a ∧ s.run a = .initial := by
  -- over the text, for the state in which the scan comes to each character
  induction cs generalizing s with
  | nil => exact .inl (passes_nil s)
  | cons c cs ih =>
    cases hc : s.splitsAt c with
    | true =>
      obtain ⟨rfl, hs⟩ := splitsAt_eq_true_iff.1 hc
      exact .inr ⟨[], cs, rfl, passes_nil s, hs⟩
    | false =>
      rcases ih (s.step c) with hpasses | ⟨a, b, rfl, hpasses, hrun⟩
      · exact .inl (passes_cons.2 ⟨hc, hpasses⟩)
      · exact .inr ⟨c :: a, b, rfl, passes_cons.2 ⟨hc, hpasses⟩, hrun⟩

end Scanner

/-- A text without a cut is one piece. -/
private theorem splitFrom_of_passes {s : Scanner} {cs : List Char} (h : s.Passes cs) :
    splitFrom s cs = [cs] := by
  induction cs generalizing s with
  | nil => rfl
  | cons c cs ih =>
    obtain ⟨hc, hcs⟩ := Scanner.passes_cons.1 h
    rw [splitFrom, hc, if_neg Bool.false_ne_true, ih hcs]

/-- A piece in front of a semicolon that cuts is the first one. -/
private theorem splitDeclarations_append {a : List Char} (hpasses : Scanner.initial.Passes a)
    (hrun : Scanner.initial.run a = .initial) (b : List Char) :
    splitDeclarations (a ++ ';' :: b) = a :: splitDeclarations b := by
  rw [splitDeclarations, splitFrom_append hrun, splitFrom_of_passes hpasses]
  rfl

/-- Every style text is a single piece, or a piece with a semicolon and a style text behind it. -/
theorem pieceInduction {motive : List Char → Prop}
    (single : ∀ cs, Scanner.initial.Passes cs → motive cs)
    (cut : ∀ a b, Scanner.initial.Passes a → Scanner.initial.run a = .initial → motive b →
      motive (a ++ ';' :: b)) (cs : List Char) : motive cs := by
  -- a scan behind a semicolon that cuts is a scan from the start, over a shorter text
  rcases Scanner.passes_or_exists_cut .initial cs with hpasses | ⟨a, b, hcs, hpasses, hrun⟩
  · exact single cs hpasses
  · have hlength : b.length < cs.length := by
      rw [hcs, List.length_append, List.length_cons]
      omega
    rw [hcs]
    exact cut a b hpasses hrun (pieceInduction single cut b)
termination_by cs.length

/-- Texts of which each is scanned from the start without a cut, and each but the last leads back
    to the start. -/
structure ArePieces (pieces : List (List Char)) : Prop where
  ne_nil : pieces ≠ []
  passes : ∀ piece ∈ pieces, Scanner.initial.Passes piece
  returns : ∀ piece ∈ pieces.dropLast, Scanner.initial.run piece = .initial

/-- The pieces of a text are scanned without a cut, and each but the last
    leads back to the start. -/
private theorem arePieces_splitDeclarations (cs : List Char) :
    ArePieces (splitDeclarations cs) := by
  -- by its pieces
  induction cs using pieceInduction with
  | single cs hpasses =>
    rw [splitDeclarations, splitFrom_of_passes hpasses]
    exact ⟨List.cons_ne_nil _ _, List.forall_mem_singleton.2 hpasses,
      fun _ h => absurd h List.not_mem_nil⟩
  | cut a b hpasses hrun ih =>
    rw [splitDeclarations_append hpasses hrun]
    refine ⟨List.cons_ne_nil _ _, ?_, ?_⟩
    · exact List.forall_mem_cons.2 ⟨hpasses, ih.passes⟩
    · rw [List.dropLast_cons_of_ne_nil ih.ne_nil]
      exact List.forall_mem_cons.2 ⟨hrun, ih.returns⟩

/-- Nothing but the semicolons between its pieces is lost of a text. -/
theorem intercalate_splitDeclarations (cs : List Char) :
    [';'].intercalate (splitDeclarations cs) = cs := by
  induction cs using pieceInduction with
  | single cs hpasses =>
    rw [splitDeclarations, splitFrom_of_passes hpasses, List.intercalate_singleton]
  | cut a b hpasses hrun ih =>
    -- the text behind the semicolon has pieces of its own, so a separator stands in front of them
    have hne := (arePieces_splitDeclarations b).ne_nil
    rw [splitDeclarations_append hpasses hrun, List.intercalate_cons_of_ne_nil hne, ih]
    simp

/-- The pieces of a text are found again where semicolons part them. -/
theorem splitDeclarations_intercalate {pieces : List (List Char)} (h : ArePieces pieces) :
    splitDeclarations ([';'].intercalate pieces) = pieces := by
  obtain ⟨hne, hpasses, hreturns⟩ := h
  -- the last piece runs to the end of the text, every other one to a semicolon that cuts
  induction pieces with
  | nil => exact absurd rfl hne
  | cons piece pieces ih =>
    rw [List.forall_mem_cons] at hpasses
    by_cases hlast : pieces = []
    · rw [hlast, List.intercalate_singleton]
      exact splitFrom_of_passes hpasses.1
    · rw [List.dropLast_cons_of_ne_nil hlast, List.forall_mem_cons] at hreturns
      have htext : [';'].intercalate (piece :: pieces) =
          piece ++ ';' :: [';'].intercalate pieces := by
        rw [List.intercalate_cons_of_ne_nil hlast]
        simp
      rw [htext, splitDeclarations_append hpasses.1 hreturns.1, ih hlast hpasses.2 hreturns.2]

/-! ## Slices of the text -/

/-- The pieces of a text as slices of it, for a scan that stands at `pos` in the state `s` and whose
    last piece started at `start`. -/
def slicesFrom {text : String} (s : Scanner) (start pos : text.Pos) : List String :=
  if h : pos = text.endPos then [text.extract start pos]
  else if s.splitsAt (pos.get h) then
    text.extract start pos :: slicesFrom (s.step (pos.get h)) (pos.next h) (pos.next h)
  else slicesFrom (s.step (pos.get h)) start (pos.next h)
termination_by pos

/-- The declarations of a style text as slices of it. -/
def declarationSlices (text : String) : List String :=
  slicesFrom .initial text.startPos text.startPos

/-- A cut ends an empty piece, and any other character goes to the first piece. -/
private theorem splitFrom_cons (s : Scanner) (c : Char) (cs : List Char) :
    splitFrom s (c :: cs) =
      if s.splitsAt c then [] :: splitFrom (s.step c) cs
      else (splitFrom (s.step c) cs).modifyHead (c :: ·) := by
  rw [splitFrom]
  split
  · rfl
  · obtain ⟨piece, rest, hsplit⟩ := List.exists_cons_of_ne_nil (splitFrom_ne_nil (s.step c) cs)
    rw [hsplit]
    rfl

/-- From a position on, the slices are the pieces of what follows it, the first one with the part
    of it that the scan has gone over. -/
private theorem slicesFrom_eq {text : String} {s : Scanner} {start pos : text.Pos}
    {front piece back : String} (hstart : start.Splits front (piece ++ back))
    (hpos : pos.Splits (front ++ piece) back) :
    slicesFrom s start pos =
      ((splitFrom s back.toList).modifyHead (piece.toList ++ ·)).map String.ofList := by
  -- the position moves on, so the start of the piece and the state of the scan are general
  induction pos using String.Pos.next_induction generalizing s start front piece back with
  | endPos =>
    obtain rfl : back = "" := hpos.eq_endPos_iff.1 rfl
    rw [slicesFrom, dif_pos rfl, Text.extract_of_splits hstart hpos]
    simp [splitFrom]
  | next pos h ih =>
    -- the character at the position is the first one of what follows
    obtain ⟨back, rfl⟩ := hpos.exists_eq_singleton_append h
    have hnext := hpos.next
    rw [slicesFrom, dif_neg h, Text.extract_of_splits hstart hpos, String.toList_append,
      String.toList_singleton, List.singleton_append, splitFrom_cons]
    split
    · -- the next piece starts behind the semicolon and is empty so far
      have hempty : (pos.next h).Splits (front ++ piece ++ String.singleton (pos.get h))
          ("" ++ back) := by simpa using hnext
      have hsame : (pos.next h).Splits (front ++ piece ++ String.singleton (pos.get h) ++ "")
          back := by simpa using hnext
      obtain ⟨first, others, hsplit⟩ :=
        List.exists_cons_of_ne_nil (splitFrom_ne_nil (s.step (pos.get h)) back.toList)
      rw [ih hempty hsame, hsplit]
      simp
    · -- the piece goes on with the character
      rw [← String.append_assoc] at hstart
      rw [String.append_assoc] at hnext
      rw [ih hstart hnext]
      simp [Function.comp_def]

/-- The slices of a text are its pieces. -/
private theorem declarationSlices_eq (text : String) :
    declarationSlices text = (splitDeclarations text.toList).map String.ofList := by
  have hstart : text.startPos.Splits "" ("" ++ text) := by simp
  have hpos : text.startPos.Splits ("" ++ "") text := by simp
  obtain ⟨piece, rest, hsplit⟩ :=
    List.exists_cons_of_ne_nil (splitFrom_ne_nil .initial text.toList)
  rw [declarationSlices, slicesFrom_eq hstart hpos, splitDeclarations, hsplit]
  rfl

/-- The slices of a text are joined to it by semicolons. -/
private theorem intercalate_declarationSlices (text : String) :
    ";".intercalate (declarationSlices text) = text := by
  have htoList : ((splitDeclarations text.toList).map String.ofList).map String.toList =
      splitDeclarations text.toList := by
    simp
  rw [declarationSlices_eq, ← String.toList_inj, String.toList_intercalate, htoList]
  exact intercalate_splitDeclarations text.toList

/-- A style text is cut into slices at its top-level semicolons and nowhere else: joined by
    semicolons they are the text, each of them is scanned from the start without a cut, and each
    but the last leads the scan back to the start. No other pieces of the text do so. -/
theorem splitDeclarations_exact (text : String) :
    declarationSlices text = (splitDeclarations text.toList).map String.ofList ∧
      ";".intercalate (declarationSlices text) = text ∧
      (∀ piece ∈ declarationSlices text, Scanner.initial.Passes piece.toList) ∧
      (∀ piece ∈ (declarationSlices text).dropLast,
        Scanner.initial.run piece.toList = .initial) ∧
      ∀ pieces, ArePieces pieces → [';'].intercalate pieces = text.toList →
        pieces = splitDeclarations text.toList := by
  have hslices := declarationSlices_eq text
  obtain ⟨-, hpasses, hreturns⟩ := arePieces_splitDeclarations text.toList
  refine ⟨hslices, intercalate_declarationSlices text, ?_, ?_, ?_⟩
  · rw [hslices, List.forall_mem_map]
    intro cs hcs
    rw [String.toList_ofList]
    exact hpasses cs hcs
  · rw [hslices, ← List.map_dropLast, List.forall_mem_map]
    intro cs hcs
    rw [String.toList_ofList]
    exact hreturns cs hcs
  · intro pieces hpieces htext
    rw [← htext, splitDeclarations_intercalate hpieces]

/-- A style text with a semicolon in parentheses, an empty piece, and an escaped quote, a semicolon
    and parentheses behind a quote that is never closed. -/
theorem splitDeclarations_exact_unclosed :
    ArePieces ["fill:url(ä;b)".toList, "".toList, "quotes:'ß\\';((".toList] ∧
      declarationSlices "fill:url(ä;b);;quotes:'ß\\';((" =
        ["fill:url(ä;b)", "", "quotes:'ß\\';(("] := by
  -- the last piece never leads back, and does not have to
  have hpieces : ArePieces ["fill:url(ä;b)".toList, "".toList, "quotes:'ß\\';((".toList] :=
    ⟨List.cons_ne_nil _ _, by decide +kernel, by decide +kernel⟩
  obtain ⟨hslices, -, -, -, hunique⟩ := splitDeclarations_exact "fill:url(ä;b);;quotes:'ß\\';(("
  refine ⟨hpieces, ?_⟩
  rw [hslices, ← hunique _ hpieces (by decide +kernel)]
  simp

end IconCompiler.Style
