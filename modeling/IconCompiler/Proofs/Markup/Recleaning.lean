import IconCompiler.Proofs.Markup.CleaningPolicy
import IconCompiler.Proofs.Markup.SettledEvents

/-!
# Cleaning what was cleaned

A source without faults is cleaned to the events that the policy keeps, written one after another.
A cleaned source is read as these events again if they are legible, and the policy keeps all of
them; so cleaning it once more changes nothing, unless it starts with a text whose first character
is taken for a byte order mark.

## Key results

- `renderPieces_eq`: pieces are written event by event
- `clean_eq_keptEvents`: what cleaning makes of a source without faults
- `clean_clean_iff`: cleaning again changes nothing exactly if no byte order mark stands in front
-/

namespace IconCompiler.Markup

open EventView Reading

/-! ## Written events -/

/-- An event as cleaning writes it; asides are not written. -/
def EventView.renderChars : EventView → List Char
  | .start name attrs => renderTagFront name attrs.items ++ ['>']
  | .empty name attrs => renderTagFront name attrs.items ++ ['/', '>']
  | .close name => ['<', '/'] ++ name.toList ++ ['>']
  | .text s => s.toList
  | .cdata s => ['<', '!'] ++ cdataOpen ++ s.toList ++ cdataEnd
  | .comment _ | .instruction _ | .doctype _ => []

/-- A text is written in front of the events that it is joined with. -/
private theorem flatMap_consText (s : String) (vs : List EventView) :
    (consText s vs).flatMap EventView.renderChars =
      s.toList ++ vs.flatMap EventView.renderChars := by
  unfold consText
  split <;> simp [EventView.renderChars]

/-- Pieces are written event by event. -/
theorem renderPieces_eq (pieces : List Piece) :
    renderPieces pieces = (viewsOf pieces).flatMap EventView.renderChars := by
  fun_induction renderPieces pieces with
  | case1 => rfl
  | case2 name attrs closed rest ih =>
    -- the two pieces are seen as one empty element, and written as one
    have hviews : viewsOf (.opening name attrs :: .closing closed :: rest) =
        .empty name ⟨attrs, none⟩ :: viewsOf rest := rfl
    rw [hviews, List.flatMap_cons, ih, EventView.renderChars]
  | case3 name attrs rest hne ih =>
    rw [viewsOf_opening hne, List.flatMap_cons, ih, EventView.renderChars]
  | case4 name attrs rest ih =>
    have hviews : viewsOf (.empty name attrs :: rest) =
        .empty name ⟨attrs, none⟩ :: viewsOf rest := rfl
    rw [hviews, List.flatMap_cons, ih, EventView.renderChars]
  | case5 name rest ih =>
    have hviews : viewsOf (.closing name :: rest) = .close name :: viewsOf rest := rfl
    rw [hviews, List.flatMap_cons, ih, EventView.renderChars]
  | case6 s rest ih => rw [viewsOf_text, flatMap_consText, ih]
  | case7 s rest ih =>
    have hviews : viewsOf (.cdata s :: rest) = .cdata s :: viewsOf rest := rfl
    have hmarks : "<![CDATA[".toList = ['<', '!'] ++ cdataOpen ∧ "]]>".toList = cdataEnd :=
      ⟨rfl, rfl⟩
    rw [hviews, List.flatMap_cons, ih, EventView.renderChars, hmarks.1, hmarks.2]

/-! ## Sources without faults -/

/-- Whether the attributes of an event are without fault. -/
def EventView.HasNoFault : EventView → Prop
  | .start _ attrs | .empty _ attrs => attrs.fault = none
  | _ => True

/-- Cleaning fails on no event without fault. -/
private theorem exists_keepAll_eq_ok {d : Depths} {ls : List Located}
    (h : ∀ l ∈ ls, l.event.view.HasNoFault) : ∃ pieces, keepAll d ls = .ok pieces := by
  -- only tags can fail, and only by their attributes
  have htag : ∀ (tag : Tag) (f : List Attribute → Piece) (dropped : Bool),
      tag.attributes.fault = none → ∃ piece?, (if dropped then .ok none
        else tag.keptAttributes.map fun attrs => some (f attrs)) = Except.ok piece? := by
    intro tag f dropped hfault
    cases dropped with
    | true => exact ⟨none, rfl⟩
    | false => simp [Tag.keptAttributes, hfault, Except.map]
  induction ls generalizing d with
  | nil => exact ⟨[], rfl⟩
  | cons l ls ih =>
    obtain ⟨hl, hls⟩ := List.forall_mem_cons.1 h
    obtain ⟨piece?, hkeep⟩ : ∃ piece?, keep d l.event = .ok piece? := by
      cases he : l.event with
      | start tag | empty tag =>
        rw [he] at hl
        exact htag tag _ _ hl
      | close | text | cdata | comment | instruction | doctype => exact ⟨_, rfl⟩
    -- whatever is dropped, the events behind are without fault
    obtain ⟨pieces, hpieces⟩ := @ih (d.after l.event) hls
    exact ⟨piece?.toList ++ pieces, by rw [keepAll, hkeep, hpieces]; rfl⟩

/-- A source without faults is cleaned to the events that the policy keeps, one after another. -/
theorem clean_eq_keptEvents {x : String} {opened : List String}
    (hending : (ofText x).ending = .complete opened)
    (hfaults : ∀ v ∈ (ofText x).views, v.HasNoFault) :
    clean x = .ok (String.ofList ((keptEvents x).flatMap EventView.renderChars)) := by
  obtain ⟨pieces, hkeep⟩ : ∃ pieces, keepAll .zero (ofText x).events = .ok pieces :=
    exists_keepAll_eq_ok fun l hl => hfaults _ (List.mem_map_of_mem hl)
  rw [← viewsOf_keepAll hkeep, ← renderPieces_eq]
  simp [clean, Reading.kept, hkeep, hending]

/-- What is to be seen of pieces is without fault. -/
private theorem hasNoFault_of_mem_viewsOf (pieces : List Piece) :
    ∀ v ∈ viewsOf pieces, v.HasNoFault := by
  refine forall_mem_viewsOf (fun _ => trivial) (fun _ _ h => h) ?_
  intro p _
  cases p <;> trivial

/-! ## A text that loses its first character -/

/-- Outside `text` elements the policy skips a blank text. -/
private theorem policy_blank {s : String} (h : Text.isBlank s.toList = true) (vs : List EventView) :
    policy (.text s :: vs) = policy vs := by
  simp [policy, isAside, withoutElements, withoutAttributes, withoutBlanks, h]

/-- Another text in front of settled and joined events adds no more than itself. -/
private theorem length_policy_text_le {s t : String} {vs : List EventView}
    (hsettled : Settled [] (.text s :: vs)) (hjoined : AreJoined (.text s :: vs)) :
    ((policy (.text t :: vs)).flatMap EventView.renderChars).length ≤
      t.toList.length + (vs.flatMap EventView.renderChars).length := by
  -- outside `text` elements a blank text is dropped, and any other one stays
  by_cases hblank : Text.isBlank t.toList = true
  · rw [policy_blank hblank, policy_eq_self hsettled.2.2 hjoined.tail]
    omega
  · have hcontent : Settled [] (.text t :: vs) :=
      ⟨trivial, .inl (by simpa using hblank), hsettled.2.2⟩
    -- what a text is joined with does not depend on the text
    have hchain : AreJoined (.text t :: vs) := by
      apply List.IsChain.cons hjoined.tail
      intro w hw
      have hnext := hjoined.rel_head? hw
      cases w <;> exact hnext
    rw [policy_eq_self hcontent hchain, List.flatMap_cons, EventView.renderChars,
      List.length_append]

/-- A text is read as before without its first character, unless it has no other. -/
private theorem exists_views_run_tail {c : Char} {cs : List Char} (hc : c ≠ '<')
    (opened : List String) (pos pos' : Nat) :
    ∃ t vs, (run opened pos (c :: cs)).views = .text (String.ofList (c :: t)) :: vs ∧
      (run opened pos' cs).views = if t = [] then vs else .text (String.ofList t) :: vs := by
  let t := cs.takeWhile (· ≠ '<')
  let rest := cs.dropWhile (· ≠ '<')
  have hcs : t ++ rest = cs := List.takeWhile_append_dropWhile
  have hrest : ∀ d ∈ rest.head?, d = '<' := by
    intro d hd
    have hnot := List.head?_dropWhile_not (· ≠ '<') cs
    rw [Option.mem_def.1 hd] at hnot
    simpa using hnot
  -- what stands behind the text is read alike at any place
  refine ⟨t, (run opened 0 rest).views, ?_, ?_⟩
  · rw [run_text hc]
    exact congrArg _ (run_shift opened _ 0 rest).1
  · -- behind a single character there is no text left
    by_cases ht : t = []
    · have htail : rest = cs := by rw [← hcs, ht, List.nil_append]
      rw [if_pos ht, ← htail]
      exact (run_shift opened pos' 0 rest).1
    · have hlt : '<' ∉ t := by
        intro hmem
        simpa using List.mem_takeWhile_imp hmem
      rw [if_neg ht, ← hcs, (run_append_text ht hlt opened pos' rest).1,
        (run_shift opened _ 0 rest).1]
      exact consText_of_ne _ (views_run_ne_text hrest opened 0)

/-- Without the first character of a text in front, less is kept of settled and joined events. -/
private theorem length_policy_tail_lt {c : Char} {cs : List Char} (hc : c ≠ '<') (pos pos' : Nat)
    (hsettled : Settled [] (run [] pos (c :: cs)).views)
    (hjoined : AreJoined (run [] pos (c :: cs)).views) :
    ((policy (run [] pos' cs).views).flatMap EventView.renderChars).length <
      ((run [] pos (c :: cs)).views.flatMap EventView.renderChars).length := by
  obtain ⟨t, vs, hviews, htail⟩ := exists_views_run_tail hc [] pos pos'
  rw [hviews] at hsettled hjoined ⊢
  have hlength : ((EventView.text (String.ofList (c :: t)) :: vs).flatMap
      EventView.renderChars).length =
        t.length + 1 + (vs.flatMap EventView.renderChars).length := by
    rw [List.flatMap_cons, EventView.renderChars, String.toList_ofList, List.length_append,
      List.length_cons]
  rw [htail, hlength]
  split
  · -- the text is gone, and the events behind it are settled as they were
    rw [policy_eq_self hsettled.2.2 hjoined.tail]
    omega
  · have hle := @length_policy_text_le _ (String.ofList t) _ hsettled hjoined
    rw [String.toList_ofList] at hle
    omega

/-! ## Cleaning again -/

/-- Cleaning a cleaned source again changes nothing if its events are legible, unless a text in
    front loses its first character to a byte order mark. -/
theorem clean_clean_iff {x c : String} (hc : clean x = .ok c)
    (hlegible : ∀ v ∈ keptEvents x, v.IsLegible) :
    clean c = .ok c ↔ c.toList.head? ≠ some '\uFEFF' := by
  obtain ⟨pieces, hkeep, rfl⟩ := clean_eq_ok hc
  have hw : Writable [] pieces := writable_keepAll hkeep (delivers_run [] 0 _)
  have hread := readsAs_renderPieces hw (by simp) 0
  rw [viewsOf_keepAll hkeep] at hread
  have hviews := hread.views.2 hlegible
  obtain ⟨opened, hending⟩ := hread.complete hlegible
  -- the cleaned source is what is written for the kept events
  have hwritten : renderPieces pieces = (keptEvents x).flatMap EventView.renderChars := by
    rw [renderPieces_eq, viewsOf_keepAll hkeep]
  rw [String.toList_ofList]
  constructor
  · intro hagain hmark
    obtain ⟨cs, hcs⟩ := List.head?_eq_some_iff.1 hmark
    -- what is read is the cleaned source without its first character
    have htail : ofText (String.ofList (renderPieces pieces)) = run [] 0 cs := by
      rw [ofText, String.toList_ofList, hcs, dropByteOrderMark, if_pos rfl]
    obtain ⟨pieces', hkeep', heq⟩ := clean_eq_ok hagain
    -- it would be written as long as before, but less is kept of it
    have hlength := congrArg (fun s : String => s.toList.length) heq
    have hkept : keptEvents (String.ofList (renderPieces pieces)) = policy (run [] 0 cs).views := by
      rw [keptEvents, htail]
    simp only [String.toList_ofList] at hlength
    rw [renderPieces_eq pieces', viewsOf_keepAll hkeep', hkept, hwritten] at hlength
    rw [hcs] at hviews
    have hbracket : '\uFEFF' ≠ '<' := by decide
    have hsettled : Settled [] (run [] 0 ('\uFEFF' :: cs)).views := by
      rw [hviews]
      exact settled_policy _
    have hjoined : AreJoined (run [] 0 ('\uFEFF' :: cs)).views := by
      rw [hviews]
      exact areJoined_policy _
    have hlt := length_policy_tail_lt hbracket 0 0 hsettled hjoined
    rw [hviews] at hlt
    omega
  · intro hmark
    -- the events that were kept are read again, and the policy keeps all of them
    have hof : ofText (String.ofList (renderPieces pieces)) = run [] 0 (renderPieces pieces) := by
      rw [ofText, String.toList_ofList, dropByteOrderMark_eq_self hmark]
    have hkept : keptEvents (String.ofList (renderPieces pieces)) = keptEvents x := by
      rw [keptEvents, hof, hviews, keptEvents, policy_policy]
    -- what was written has no faults to be found the second time
    have hfaults : ∀ v ∈ (ofText (String.ofList (renderPieces pieces))).views, v.HasNoFault := by
      rw [hof, hviews, ← viewsOf_keepAll hkeep]
      exact hasNoFault_of_mem_viewsOf pieces
    rw [clean_eq_keptEvents (hof ▸ hending) hfaults, hkept, ← hwritten]

/-- A source with a declaration, dropped attributes, dropped elements that leave an empty one, texts
    that a comment parts, and a blank text inside a `text` element. An editor wrote one of the
    attributes and one of the elements. -/
def decoratedSource : String :=
  "<?xml?><svg xmlns='u' serif:id='s' a='\"'> <desc>d</desc><g><title/><sketch:p>q</sketch:p></g>" ++
    "x<!-- --> y<text> <b/></text></svg>"

/-- Cleaning it a second time changes nothing. -/
theorem clean_clean_decoratedSource :
    clean decoratedSource = .ok "<svg a='\"'><g/>x y<text> <b/></text></svg>" ∧
      clean "<svg a='\"'><g/>x y<text> <b/></text></svg>" =
        .ok "<svg a='\"'><g/>x y<text> <b/></text></svg>" := by
  have hclean : clean decoratedSource = .ok "<svg a='\"'><g/>x y<text> <b/></text></svg>" :=
    ok_of_toOption (by decide +kernel)
  have hkept : keptEvents decoratedSource =
      [.start "svg" ⟨[⟨"a", "\""⟩], none⟩, .empty "g" .nil, .text "x y", .start "text" .nil,
        .text " ", .empty "b" .nil, .close "text", .close "svg"] := by
    decide +kernel
  -- every tag that stays is closed outside quotes
  have hlegible : ∀ v ∈ keptEvents decoratedSource, v.IsLegible := by
    have hsvg : isClosed none (tagText "svg" [⟨"a", "\""⟩]) = true := by decide
    have htext : isClosed none (tagText "text" []) = true := by decide
    have hg : isClosed none (tagText "g" []) = true := by decide
    have hb : isClosed none (tagText "b" []) = true := by decide
    rw [hkept]
    simp [EventView.IsLegible, AttributeList.nil, hsvg, htext, hg, hb]
  exact ⟨hclean, (clean_clean_iff hclean hlegible).2 (by decide)⟩

/-- A mark behind the declaration is a text, which comes to the front when the declaration goes: the
    second time it is taken for a byte order mark. -/
theorem clean_clean_ne_of_mark :
    clean "<?xml version='1.0'?>\uFEFF<svg/>" = .ok "\uFEFF<svg/>" ∧
      clean "\uFEFF<svg/>" = .ok "<svg/>" ∧ clean "\uFEFF<svg/>" ≠ .ok "\uFEFF<svg/>" := by
  have hfirst : clean "<?xml version='1.0'?>\uFEFF<svg/>" = .ok "\uFEFF<svg/>" :=
    ok_of_toOption (by decide +kernel)
  have hsecond : clean "\uFEFF<svg/>" = .ok "<svg/>" := ok_of_toOption (by decide +kernel)
  refine ⟨hfirst, hsecond, ?_⟩
  intro h
  exact absurd (Except.ok.inj (hsecond.symm.trans h)) (by decide)

end IconCompiler.Markup
