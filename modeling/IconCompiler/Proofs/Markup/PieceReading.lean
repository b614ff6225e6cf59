import IconCompiler.Proofs.Markup.TagReading

/-!
# Reading written pieces

Pieces that the reader can deliver one after another are written so that reading gives the same
pieces again, with neighbouring texts joined and an empty element for every one that is closed
right after it was opened. This holds exactly if all their tags are legible.

## Key results

- `readsAs_renderPieces`: written pieces are read back exactly if all their tags are legible
-/

namespace IconCompiler.Markup

open EventView Reading

/-- What a reader is to see of a piece. -/
def Piece.view : Piece → EventView
  | .opening name attrs => .start name ⟨attrs, none⟩
  | .empty name attrs => .empty name ⟨attrs, none⟩
  | .closing name => .close name
  | .text s => .text s
  | .cdata s => .cdata s

/-- What a reader is to see of pieces. -/
def viewsOf (pieces : List Piece) : List EventView :=
  joinEmpty (joinTexts (pieces.map Piece.view))

/-- Whether a piece can be written while the elements `opened` are open. -/
def Piece.IsWritable (opened : List String) : Piece → Prop
  | .opening name attrs | .empty name attrs => IsTagName name ∧ AreWritable attrs
  | .closing name => opened.head? = some name ∧ isClosed none name.toList = true
  | .text s => s.toList ≠ [] ∧ '<' ∉ s.toList
  | .cdata s =>
    ∀ rest, cutAt cdataEnd (s.toList ++ cdataEnd ++ rest) = some (s.toList, rest)

/-- The open names after a piece, the innermost first. -/
def Piece.openedAfter (opened : List String) : Piece → List String
  | .opening name _ => name :: opened
  | .closing _ => opened.tail
  | _ => opened

/-- Whether pieces can be written one after another, with `opened` open at the first. -/
def Writable : (opened : List String) → List Piece → Prop
  | _, [] => True
  | opened, p :: ps => p.IsWritable opened ∧ Writable (p.openedAfter opened) ps

/-- Whether a reading shows the given events exactly if all of them are legible; it is complete
    then. -/
structure ReadsAs (r : Reading) (vs : List EventView) : Prop where
  views : r.views = vs ↔ ∀ v ∈ vs, v.IsLegible
  complete : (∀ v ∈ vs, v.IsLegible) → ∃ opened, r.ending = .complete opened

/-! ## Joining texts -/

/-- Joining elements leaves a text in front as it is. -/
private theorem joinEmpty_consText (s : String) (vs : List EventView) :
    joinEmpty (consText s vs) = consText s (joinEmpty vs) := by
  by_cases h : ∃ t ws, vs = .text t :: ws
  · obtain ⟨t, ws, rfl⟩ := h
    rfl
  · -- joining empty elements puts no text in front either
    have hne : ∀ t ws, vs ≠ .text t :: ws := fun t ws hvs => h ⟨t, ws, hvs⟩
    have hne' : ∀ t ws, joinEmpty vs ≠ .text t :: ws := by
      intro t ws
      unfold joinEmpty
      split
      · simp
      · rename_i v vs' _
        intro hv
        exact hne t vs' (by rw [(List.cons.inj hv).1])
      · simp
    rw [consText_of_ne s hne, consText_of_ne s hne']
    rfl

/-- Texts are legible, joined or not. -/
private theorem isLegible_consText {s : String} {vs : List EventView} :
    (∀ v ∈ consText s vs, v.IsLegible) ↔ ∀ v ∈ vs, v.IsLegible := by
  unfold consText
  split <;> simp [EventView.IsLegible]

/-- Whether events do not start with an empty text. -/
def NoEmptyFront (vs : List EventView) : Prop :=
  ∀ t us, vs = .text t :: us → t ≠ ""

/-- What a text is joined with can be told from the result, if no text is empty. -/
private theorem consText_inj {s : String} {vs ws : List EventView} (hvs : NoEmptyFront vs)
    (hws : NoEmptyFront ws) (h : consText s vs = consText s ws) : vs = ws := by
  have hempty : ∀ {t : String}, s ++ t = s → t = "" := by
    intro t ht
    have := congrArg String.toList ht
    simpa using this
  unfold consText at h
  -- where only one side is joined, the text in front would have to be empty
  split at h <;> split at h
  · rename_i t us _ t' us'
    simp only [List.cons.injEq, text.injEq] at h
    have ht : t.toList = t'.toList := by
      have := congrArg String.toList h.1
      simpa using this
    rw [String.toList_inj.1 ht, h.2]
  · rename_i t us _ _
    simp only [List.cons.injEq, text.injEq] at h
    exact absurd (hempty h.1) (hvs t us rfl)
  · rename_i t us
    simp only [List.cons.injEq, text.injEq] at h
    exact absurd (hempty h.1.symm) (hws t us rfl)
  · exact (List.cons.inj h).2

/-! ## What is to be seen of pieces -/

/-- A text piece is joined with the text behind it. -/
theorem viewsOf_text (s : String) (rest : List Piece) :
    viewsOf (.text s :: rest) = consText s (viewsOf rest) :=
  joinEmpty_consText s _

/-- An opening that is not closed at once stays a start tag. -/
theorem viewsOf_opening {name : String} {attrs : List Attribute} {rest : List Piece}
    (h : ∀ closed rest', rest ≠ .closing closed :: rest') :
    viewsOf (.opening name attrs :: rest) = .start name ⟨attrs, none⟩ :: viewsOf rest := by
  have hne : ∀ closed vs, joinTexts (rest.map Piece.view) ≠ .close closed :: vs := by
    intro closed vs hv
    -- the first event comes from the first piece
    cases rest with
    | nil => cases hv
    | cons p rest =>
      cases p with
      | closing name => exact h name rest rfl
      | text s =>
        simp only [List.map_cons, Piece.view, joinTexts, consText] at hv
        split at hv <;> cases hv
      | opening | empty | cdata => cases hv
  show joinEmpty (.start name ⟨attrs, none⟩ :: joinTexts (rest.map Piece.view)) = _
  unfold joinEmpty
  split
  · rename_i heq
    exact absurd (List.cons.inj heq).2 (hne _ _)
  · rename_i heq
    obtain ⟨rfl, rfl⟩ := List.cons.inj heq
    rfl
  · rename_i heq
    cases heq

/-- Writable pieces have no empty text. -/
private theorem noEmptyFront_viewsOf {opened : List String} {pieces : List Piece}
    (h : Writable opened pieces) : NoEmptyFront (viewsOf pieces) := by
  intro t us hv
  cases pieces with
  | nil => cases hv
  | cons p rest =>
    cases p with
    | text s =>
      -- joined with whatever follows, the text is still not empty
      rw [viewsOf_text] at hv
      rintro rfl
      have hs : s.toList ≠ [] := h.1.1
      unfold consText at hv
      split at hv <;> simp only [List.cons.injEq, text.injEq] at hv
      · have := congrArg String.toList hv.1
        simp [hs] at this
      · rw [hv.1] at hs
        exact hs rfl
    -- an opening may be joined with its closing, but never with a text
    | opening name attrs =>
      by_cases hc : ∃ closed rest', rest = .closing closed :: rest'
      · obtain ⟨closed, rest, rfl⟩ := hc
        cases hv
      · rw [viewsOf_opening fun closed rest' hr => hc ⟨closed, rest', hr⟩] at hv
        cases hv
    | empty | closing | cdata => cases hv

/-- A reading delivers no empty text. -/
private theorem noEmptyFront_run (opened : List String) (pos : Nat) (cs : List Char) :
    NoEmptyFront (run opened pos cs).views := by
  intro t us hv
  have hd := delivers_run opened pos cs
  obtain ⟨l, ls, hevents, hview, -⟩ := List.map_eq_cons_iff.1 hv
  rw [hevents] at hd
  -- only a text is seen as a text
  have hl : l.event = .text t := by
    cases hl : l.event <;> rw [hl] at hview <;> simp_all [Event.view]
  have := hd.1
  rw [hl] at this
  rintro rfl
  exact this.1 rfl

/-- What holds of the events of pieces holds of what is to be seen of them, if it holds of all texts
    and joining empty elements keeps it. -/
theorem forall_mem_viewsOf {P : EventView → Prop} (htext : ∀ s, P (.text s))
    (hempty : ∀ name attrs, P (.start name attrs) → P (.empty name attrs)) {pieces : List Piece}
    (h : ∀ p ∈ pieces, P p.view) : ∀ v ∈ viewsOf pieces, P v := by
  -- the recursion of `renderPieces` is also the one that joins an opening with its closing
  fun_induction renderPieces pieces with
  | case1 => exact List.forall_mem_nil _
  | case2 name attrs closed rest ih =>
    obtain ⟨hp, hrest⟩ := List.forall_mem_cons.1 h
    exact List.forall_mem_cons.2 ⟨hempty _ _ hp, ih (List.forall_mem_cons.1 hrest).2⟩
  | case3 name attrs rest hne ih =>
    obtain ⟨hp, hrest⟩ := List.forall_mem_cons.1 h
    rw [viewsOf_opening hne]
    exact List.forall_mem_cons.2 ⟨hp, ih hrest⟩
  | case4 name attrs rest ih =>
    obtain ⟨hp, hrest⟩ := List.forall_mem_cons.1 h
    exact List.forall_mem_cons.2 ⟨hp, ih hrest⟩
  | case5 name rest ih =>
    obtain ⟨hp, hrest⟩ := List.forall_mem_cons.1 h
    exact List.forall_mem_cons.2 ⟨hp, ih hrest⟩
  | case6 s rest ih =>
    have hrest := ih (List.forall_mem_cons.1 h).2
    rw [viewsOf_text]
    unfold consText
    split
    · rename_i t us heq
      rw [heq] at hrest
      exact List.forall_mem_cons.2 ⟨htext _, (List.forall_mem_cons.1 hrest).2⟩
    · exact List.forall_mem_cons.2 ⟨htext s, hrest⟩
  | case7 s rest ih =>
    obtain ⟨hp, hrest⟩ := List.forall_mem_cons.1 h
    exact List.forall_mem_cons.2 ⟨hp, ih hrest⟩

/-- Writable pieces show attributes that can be written. -/
theorem hasWritableAttributes_of_mem_viewsOf {opened : List String} {pieces : List Piece}
    (hw : Writable opened pieces) : ∀ v ∈ viewsOf pieces, v.HasWritableAttributes := by
  -- every piece was written with attributes that it can be written with
  have hpieces : ∀ p ∈ pieces, p.view.HasWritableAttributes := by
    induction pieces generalizing opened with
    | nil => exact List.forall_mem_nil _
    | cons p pieces ih =>
      refine List.forall_mem_cons.2 ⟨?_, ih hw.2⟩
      cases p with
      | opening name attrs | empty name attrs => exact hw.1.2
      | closing | text | cdata => trivial
  exact forall_mem_viewsOf (fun _ => trivial) (fun _ _ h => h) hpieces

/-! ## One piece after another -/

/-- What stands in front of a reading is what its markup gives. -/
private theorem exists_of_head?_views_run {opened : List String} {pos : Nat} {cs : List Char}
    {v : EventView} (h : (run opened pos ('<' :: cs)).views.head? = some v) :
    ∃ e size rest, scanMarkup opened cs = .event e size rest ∧ e.view = v := by
  cases hscan : scanMarkup opened cs with
  | fault f shift =>
    rw [run_fault hscan] at h
    cases h
  | event e size rest =>
    rw [run_event hscan] at h
    exact ⟨e, size, rest, rfl, Option.some.inj h⟩

/-- Nothing is read as nothing. -/
theorem ReadsAs.nil (opened : List String) (pos : Nat) : ReadsAs (run opened pos []) [] := by
  rw [run_nil]
  exact ⟨by simp [Reading.views], fun _ => ⟨opened, rfl⟩⟩

/-- A legible event in front is read as itself. -/
theorem ReadsAs.cons {r : Reading} {vs : List EventView} (h : ReadsAs r vs) {e : Event}
    (he : e.view.IsLegible) (pos : Nat) : ReadsAs (.cons pos e r) (e.view :: vs) := by
  constructor
  · show e.view :: r.views = e.view :: vs ↔ _
    simp [h.views, he]
  · intro hl
    exact h.complete fun v hv => hl v (List.mem_cons_of_mem _ hv)

/-- A reading that misses an event that is not legible is as it should be. -/
private theorem ReadsAs.of_not_isLegible {r : Reading} {v : EventView} (vs : List EventView)
    (hv : ¬v.IsLegible) (h : r.views.head? ≠ some v) : ReadsAs r (v :: vs) := by
  have hnot : ¬∀ w ∈ v :: vs, w.IsLegible := fun hl => hv (hl v List.mem_cons_self)
  refine ⟨⟨?_, fun hl => absurd hl hnot⟩, fun hl => absurd hl hnot⟩
  intro hr
  rw [hr] at h
  exact absurd rfl h

/-- A text in front is read together with the text behind it. -/
theorem ReadsAs.text {s : String} (hs : s.toList ≠ []) (hlt : '<' ∉ s.toList)
    {opened : List String} {pos : Nat} {cs : List Char} {vs : List EventView}
    (hvs : NoEmptyFront vs) (h : ReadsAs (run opened (pos + byteLength s.toList) cs) vs) :
    ReadsAs (run opened pos (s.toList ++ cs)) (consText s vs) := by
  obtain ⟨hviews, hending⟩ := run_append_text hs hlt opened pos cs
  rw [String.ofList_toList] at hviews
  constructor
  · rw [hviews, isLegible_consText, ← h.views]
    -- on either side no empty text follows, so the rest can be told from the joined text
    exact ⟨consText_inj (noEmptyFront_run _ _ _) hvs, fun hv => by rw [hv]⟩
  · rw [hending, isLegible_consText]
    exact h.complete

/-- A tag is read back, and what follows it as before, or it is not legible. -/
theorem ReadsAs.markup {opened : List String} {pos : Nat} {cs : List Char} {v : EventView}
    {vs : List EventView} (rest : List Char)
    (hread : v.IsLegible → ∃ e size, scanMarkup opened cs = .event e size rest ∧ e.view = v)
    (honly : ∀ e size rest', scanMarkup opened cs = .event e size rest' → e.view = v →
      v.IsLegible)
    (h : ∀ (e : Event) size, e.view = v →
      ReadsAs (run (e.openedAfter opened) (pos + size) rest) vs) :
    ReadsAs (run opened pos ('<' :: cs)) (v :: vs) := by
  by_cases hv : v.IsLegible
  · obtain ⟨e, size, hscan, rfl⟩ := hread hv
    rw [run_event hscan]
    exact (h e size rfl).cons hv pos
  · -- the reading goes wrong here, whatever follows
    refine .of_not_isLegible vs hv ?_
    intro hhead
    obtain ⟨e, size, rest', hscan, he⟩ := exists_of_head?_views_run hhead
    exact hv (honly e size rest' hscan he)

/-- What is open after an event can be told from its view. -/
private theorem openedAfter_eq_of_view {e : Event} {p : Piece} (opened : List String)
    (h : e.view = p.view) : e.openedAfter opened = p.openedAfter opened := by
  cases e <;> cases p <;> simp_all [Event.view, Piece.view, Event.openedAfter, Piece.openedAfter]

/-- A start tag in front of what is read as it was written. -/
private theorem ReadsAs.startTag {name : String} {attrs : List Attribute} (hname : IsTagName name)
    (hattrs : AreWritable attrs) {opened : List String} {rest : List Char} {vs : List EventView}
    (h : ∀ pos, ReadsAs (run (name :: opened) pos rest) vs) (pos : Nat) :
    ReadsAs (run opened pos (renderTagFront name attrs ++ ['>'] ++ rest))
      (.start name ⟨attrs, none⟩ :: vs) := by
  have htext : renderTagFront name attrs ++ ['>'] ++ rest =
      '<' :: (tagText name attrs ++ '>' :: rest) := by
    simp [renderTagFront, tagText]
  rw [htext]
  refine .markup rest ?_ ?_ ?_
  · intro hl
    obtain ⟨tag, size, hscan, hn, ha⟩ := scanMarkup_start hname hattrs hl opened rest
    exact ⟨_, size, hscan, by rw [Event.view, hn, ha]⟩
  · intro e size rest' hscan he
    -- nothing else is read as the tag
    exact isLegible_of_scanMarkup_start hname hattrs hscan he
  · intro e size he
    rw [openedAfter_eq_of_view (p := .opening name attrs) opened he]
    exact h _

/-- An empty tag in front of what is read as it was written. -/
private theorem ReadsAs.emptyTag {name : String} {attrs : List Attribute} (hname : IsTagName name)
    (hattrs : AreWritable attrs) {opened : List String} {rest : List Char} {vs : List EventView}
    (h : ∀ pos, ReadsAs (run opened pos rest) vs) (pos : Nat) :
    ReadsAs (run opened pos (renderTagFront name attrs ++ ['/', '>'] ++ rest))
      (.empty name ⟨attrs, none⟩ :: vs) := by
  have htext : renderTagFront name attrs ++ ['/', '>'] ++ rest =
      '<' :: (tagText name attrs ++ '/' :: '>' :: rest) := by
    simp [renderTagFront, tagText]
  rw [htext]
  refine .markup rest ?_ ?_ ?_
  · intro hl
    obtain ⟨tag, size, hscan, hn, ha⟩ := scanMarkup_empty hname hattrs hl opened rest
    exact ⟨_, size, hscan, by rw [Event.view, hn, ha]⟩
  · intro e size rest' hscan he
    exact isLegible_of_scanMarkup_empty hname hattrs hscan he
  · intro e size he
    rw [openedAfter_eq_of_view (p := .empty name attrs) opened he]
    exact h _

/-- A closing tag in front of what is read as it was written. -/
private theorem ReadsAs.closingTag {name : String} (hname : IsTagName name)
    (hclosed : isClosed none name.toList = true) {opened : List String}
    (hopen : opened.head? = some name) {rest : List Char} {vs : List EventView}
    (h : ∀ pos, ReadsAs (run opened.tail pos rest) vs) (pos : Nat) :
    ReadsAs (run opened pos (['<', '/'] ++ name.toList ++ ['>'] ++ rest)) (.close name :: vs) := by
  -- the name was kept without space, so it is compared as it stands
  have hclose := closeName_toList hname
  have hopen' : opened.head? = some (closeName name.toList) := by rw [hclose, hopen]
  have hscan : scanMarkup opened ('/' :: name.toList ++ '>' :: rest) =
      .event (.close name) (byteLength name.toList + 3) rest := by
    rw [scanMarkup_close hclosed hopen', hclose]
  have htext : ['<', '/'] ++ name.toList ++ ['>'] ++ rest =
      '<' :: ('/' :: name.toList ++ '>' :: rest) := by simp
  rw [htext, run_event hscan]
  exact ReadsAs.cons (e := .close name) (h _) trivial pos

/-- A section in front of what is read as it was written. -/
private theorem ReadsAs.cdataSection {s : String}
    (hfirst : ∀ rest, cutAt cdataEnd (s.toList ++ cdataEnd ++ rest) = some (s.toList, rest))
    {opened : List String} {rest : List Char} {vs : List EventView}
    (h : ∀ pos, ReadsAs (run opened pos rest) vs) (pos : Nat) :
    ReadsAs (run opened pos ("<![CDATA[".toList ++ s.toList ++ "]]>".toList ++ rest))
      (.cdata s :: vs) := by
  have hscan : scanMarkup opened ('!' :: cdataOpen ++ s.toList ++ cdataEnd ++ rest) =
      .event (.cdata s) (byteLength s.toList + 12) rest := by
    rw [scanMarkup_cdata (hfirst rest), String.ofList_toList]
  have htext : "<![CDATA[".toList ++ s.toList ++ "]]>".toList ++ rest =
      '<' :: ('!' :: cdataOpen ++ s.toList ++ cdataEnd ++ rest) := rfl
  rw [htext, run_event hscan]
  exact ReadsAs.cons (e := .cdata s) (h _) trivial pos

/-- Written pieces are read back exactly if all their tags are legible. -/
theorem readsAs_renderPieces {opened : List String} {pieces : List Piece}
    (hw : Writable opened pieces) (hn : ∀ n ∈ opened, IsTagName n) (pos : Nat) :
    ReadsAs (run opened pos (renderPieces pieces)) (viewsOf pieces) := by
  -- one piece of markup after another, for any names that are open in front of it
  fun_induction renderPieces pieces generalizing opened pos with
  | case1 => exact .nil opened pos
  | case2 name attrs closed rest ih =>
    -- the element is closed again, so nothing more is open behind it
    obtain ⟨⟨hname, hattrs⟩, -, hrest⟩ := hw
    exact .emptyTag hname hattrs (ih hrest hn) pos
  | case3 name attrs rest hne ih =>
    obtain ⟨⟨hname, hattrs⟩, hrest⟩ := hw
    rw [viewsOf_opening hne]
    exact .startTag hname hattrs (ih hrest (List.forall_mem_cons.2 ⟨hname, hn⟩)) pos
  | case4 name attrs rest ih =>
    obtain ⟨⟨hname, hattrs⟩, hrest⟩ := hw
    exact .emptyTag hname hattrs (ih hrest hn) pos
  | case5 name rest ih =>
    obtain ⟨⟨hopen, hclosed⟩, hrest⟩ := hw
    exact .closingTag (hn name (List.mem_of_mem_head? hopen)) hclosed hopen
      (ih hrest fun n hmem => hn n (List.mem_of_mem_tail hmem)) pos
  | case6 s rest ih =>
    obtain ⟨⟨hs, hlt⟩, hrest⟩ := hw
    rw [viewsOf_text]
    exact .text hs hlt (noEmptyFront_viewsOf hrest) (ih hrest hn _)
  | case7 s rest ih =>
    obtain ⟨hfirst, hrest⟩ := hw
    exact .cdataSection hfirst (ih hrest hn) pos

end IconCompiler.Markup
