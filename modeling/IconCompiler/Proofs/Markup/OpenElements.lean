import IconCompiler.Markup.Fragment
import IconCompiler.Proofs.Markup.Building
import IconCompiler.Proofs.Markup.Recleaning

/-!
# Elements that are left open

Cleaning counts how many elements are open inside a dropped one, and writes nothing of them. The
elements that a source leaves open are therefore left open by the cleaned source as well, except for
those from the outermost dropped one on. As only parsing looks for an element that is left open,
cleaning hides a source that breaks off inside a dropped element, and no other.

## Key results

- `openedAfter_keepAll`: what the pieces that stay leave open
- `exists_parse_iff`: a byte order mark decides nothing about whether a text can be parsed
- `exists_keepAll_iff`: cleaning fails exactly on an event with faulty attributes that would stay
- `compileFragment_of_left_open`: which sources that leave an element open are refused
-/

namespace IconCompiler.Markup

open EventView Reading

/-! ## Open names -/

/-- How many of the open names are inside a dropped element, itself included. -/
def droppedDepth : (opened : List String) → Nat
  | [] => 0
  | name :: opened =>
    if isDroppedElement name = true ∨ 0 < droppedDepth opened then droppedDepth opened + 1 else 0

/-- A closing tag takes one from the depth, if there is one. -/
private theorem droppedDepth_tail (opened : List String) :
    droppedDepth opened.tail = droppedDepth opened - 1 := by
  cases opened with
  | nil => rfl
  | cons name opened =>
    rw [List.tail_cons, droppedDepth]
    split <;> omega

/-- All open names are inside a dropped element exactly if the outermost one is dropped. -/
private theorem droppedDepth_lt_length_iff {opened : List String} {outermost : String}
    (h : opened.getLast? = some outermost) :
    droppedDepth opened < opened.length ↔ isDroppedElement outermost = false := by
  induction opened with
  | nil => cases h
  | cons name opened ih =>
    rw [droppedDepth, List.length_cons]
    cases opened with
    | nil =>
      obtain rfl : name = outermost := by simpa using h
      by_cases hdrop : isDroppedElement name = true <;> simp [droppedDepth, hdrop]
    | cons name' opened =>
      rw [List.getLast?_cons_cons] at h
      rw [← ih h]
      by_cases hdrop : isDroppedElement name = true ∨ 0 < droppedDepth (name' :: opened)
      · rw [if_pos hdrop]
        omega
      · -- nothing is dropped, so the inner names are outside as well
        rw [if_neg hdrop]
        rw [not_or] at hdrop
        simp only [List.length_cons]
        omega

/-- The depth inside a dropped element follows the open names. -/
private theorem dropped_after {d : Depths} {opened : List String}
    (h : d.dropped = droppedDepth opened) (e : Event) :
    (d.after e).dropped = droppedDepth (e.openedAfter opened) := by
  cases e with
  | start tag =>
    rw [Event.openedAfter, droppedDepth, Depths.after, ← h]
    -- inside a dropped element, every start tag counts as dropped
    by_cases hdrop : isDroppedElement tag.name = true ∨ 0 < d.dropped
    · rw [if_pos hdrop, if_pos (by simpa [or_comm] using hdrop)]
    · have hzero : d.dropped = 0 := by omega
      rw [if_neg hdrop, if_neg (by simpa [or_comm] using hdrop)]
      split <;> exact hzero
  | close name =>
    rw [Event.openedAfter, droppedDepth_tail, ← h, Depths.after]
    split
    · rfl
    · show d.dropped = d.dropped - 1
      omega
  | empty | text | cdata | comment | instruction | doctype => exact h

/-- What the pieces that stay leave open: what the events do, without dropped elements. -/
theorem openedAfter_keepAll {d : Depths} {opened : List String} {ls : List Located}
    {pieces : List Piece} (h : keepAll d ls = .ok pieces) (hls : Delivers opened ls)
    (hd : d.dropped = droppedDepth opened) :
    pieces.foldl Piece.openedAfter (opened.drop (droppedDepth opened)) =
      (openedAfterAll opened ls).drop (droppedDepth (openedAfterAll opened ls)) := by
  -- over the events: after each of them the pieces leave open what the events do
  induction ls generalizing d opened pieces with
  | nil =>
    cases h
    rfl
  | cons l ls ih =>
    obtain ⟨piece?, rest, hkeep, hrest, rfl⟩ := keepAll_cons_eq_ok h
    -- the piece moves the names that stay as the event moves all of them
    have hopened := (keep_isWritable hkeep hls.1).2
    have hafter := dropped_after hd l.event
    have htail := ih hrest hls.2 hafter
    rw [hafter, hd] at hopened
    rw [hopened] at htail
    rw [show openedAfterAll opened (l :: ls) = openedAfterAll (l.event.openedAfter opened) ls
      from rfl, ← htail, List.foldl_append]
    cases piece? <;> rfl

/-- What an event leaves open can be told from what a reader sees of it. -/
private theorem openedAfterAll_eq (opened : List String) (ls : List Located) :
    openedAfterAll opened ls =
      (ls.map fun l => l.event.view).foldl EventView.openedAfter opened := by
  induction ls generalizing opened with
  | nil => rfl
  | cons l ls ih =>
    have hview : l.event.openedAfter opened = l.event.view.openedAfter opened := by
      cases l.event <;> rfl
    show openedAfterAll (l.event.openedAfter opened) ls = _
    rw [ih, hview]
    rfl

/-! ## What joining events keeps -/

/-- A text opens and closes nothing. -/
private theorem openedAfter_consText (opened : List String) (s : String) (vs : List EventView) :
    (consText s vs).foldl EventView.openedAfter opened = vs.foldl EventView.openedAfter opened := by
  unfold consText
  split <;> rfl

/-- Joining pieces changes nothing about what they leave open. -/
private theorem openedAfter_viewsOf (opened : List String) (pieces : List Piece) :
    (viewsOf pieces).foldl EventView.openedAfter opened =
      pieces.foldl Piece.openedAfter opened := by
  fun_induction renderPieces pieces generalizing opened with
  | case1 => rfl
  -- the element is opened and closed at once
  | case2 name attrs closed rest ih => exact ih opened
  | case3 name attrs rest hne ih =>
    rw [viewsOf_opening hne]
    exact ih (name :: opened)
  | case4 name attrs rest ih => exact ih opened
  | case5 name rest ih => exact ih opened.tail
  | case6 s rest ih =>
    rw [viewsOf_text, openedAfter_consText]
    exact ih opened
  | case7 s rest ih => exact ih opened

/-- What holds of all texts holds of joined events exactly if it held before. -/
private theorem forall_mem_consText {P : EventView → Prop} (htext : ∀ s, P (.text s)) {s : String}
    {vs : List EventView} : (∀ v ∈ consText s vs, P v) ↔ ∀ v ∈ vs, P v := by
  unfold consText
  split <;> simp [htext]

/-- What holds of all texts holds behind joining them exactly if it held before. -/
private theorem forall_mem_joinTexts {P : EventView → Prop} (htext : ∀ s, P (.text s))
    {vs : List EventView} : (∀ v ∈ joinTexts vs, P v) ↔ ∀ v ∈ vs, P v := by
  fun_induction joinTexts vs with
  | case1 => exact Iff.rfl
  | case2 s vs ih =>
    rw [forall_mem_consText htext, ih, List.forall_mem_cons, and_iff_right (htext s)]
  | case3 v vs _ ih => rw [List.forall_mem_cons, List.forall_mem_cons, ih]

/-- What holds of all closing tags, and of both kinds of start tags alike, holds behind joining them
    exactly if it held before. -/
private theorem forall_mem_joinEmpty {P : EventView → Prop}
    (hempty : ∀ name attrs, P (.start name attrs) ↔ P (.empty name attrs))
    (hclose : ∀ name, P (.close name)) {vs : List EventView} :
    (∀ v ∈ joinEmpty vs, P v) ↔ ∀ v ∈ vs, P v := by
  fun_induction joinEmpty vs with
  | case1 name attrs closed vs ih =>
    simp only [List.forall_mem_cons, ih, hempty, and_iff_right (hclose closed)]
  | case2 v vs _ ih => rw [List.forall_mem_cons, List.forall_mem_cons, ih]
  | case3 => exact Iff.rfl

/-- What holds of all texts holds without the blank ones exactly if it held with them. -/
private theorem forall_mem_withoutBlanks {P : EventView → Prop} (htext : ∀ s, P (.text s))
    {opened : List String} {vs : List EventView} :
    (∀ v ∈ withoutBlanks opened vs, P v) ↔ ∀ v ∈ vs, P v := by
  fun_induction withoutBlanks opened vs with
  | case1 => exact Iff.rfl
  | case2 opened name attrs vs ih => rw [List.forall_mem_cons, List.forall_mem_cons, ih]
  | case3 opened name vs ih => rw [List.forall_mem_cons, List.forall_mem_cons, ih]
  | case4 opened s vs _ ih => rw [List.forall_mem_cons, ih, and_iff_right (htext s)]
  | case5 opened s vs _ ih => rw [List.forall_mem_cons, List.forall_mem_cons, ih]
  | case6 opened v vs _ _ _ ih => rw [List.forall_mem_cons, List.forall_mem_cons, ih]

/-! ## Events on which cleaning fails -/

/-- The attributes of a tag stay unless they are faulty. -/
private theorem exists_keptAttributes_iff {tag : Tag} :
    (∃ attrs, tag.keptAttributes = .ok attrs) ↔ tag.attributes.fault = none := by
  rw [Tag.keptAttributes]
  cases tag.attributes.fault <;> simp

/-- Cleaning fails on a tag exactly if the tag would stay and its attributes are faulty. -/
private theorem exists_keepTag_iff {d : Depths} {tag : Tag} {f : List Attribute → Piece} :
    (∃ piece?, (if d.dropped > 0 || isDroppedElement tag.name then .ok none
      else tag.keptAttributes.map fun attrs => some (f attrs)) = Except.ok piece?) ↔
      0 < d.dropped ∨ isDroppedElement tag.name = true ∨ tag.attributes.fault = none := by
  rw [← or_assoc]
  by_cases hdrop : 0 < d.dropped ∨ isDroppedElement tag.name = true
  · rw [if_pos (by simpa using hdrop)]
    simp [hdrop]
  · rw [if_neg (by simpa using hdrop), ← exists_keptAttributes_iff]
    cases tag.keptAttributes <;> simp [hdrop, Except.map]

/-- What the policy still has to look at decides about one event as cleaning does. -/
private theorem forall_mem_remaining_cons {d : Depths} {e : Event} {vs : List EventView} :
    (∀ v ∈ remaining d (e.view :: vs), v.HasNoFault) ↔
      (∃ piece?, keep d e = .ok piece?) ∧ ∀ v ∈ remaining (d.after e) vs, v.HasNoFault := by
  obtain ⟨dropped, text⟩ := d
  cases dropped with
  | succ n =>
    -- inside a dropped element every event is skipped
    obtain ⟨piece?, hkeep⟩ : ∃ piece?, keep ⟨n + 1, text⟩ e = .ok piece? := by
      cases e <;> exact ⟨_, rfl⟩
    rw [(keep_dropped hkeep vs).2.2, and_iff_right ⟨piece?, hkeep⟩]
  | zero =>
    cases e with
    | start tag =>
      rw [keep, exists_keepTag_iff, Event.view]
      by_cases hname : isDroppedElement tag.name = true
      · have hskip : remaining ⟨0, text⟩ (.start tag.name tag.attributes :: vs) =
            remaining (Depths.after ⟨0, text⟩ (.start tag)) vs := by
          simp [remaining, isAside, afterDropped, withoutElements, hname, Depths.after]
        rw [hskip]
        simp [hname]
      · have hafter : (Depths.after ⟨0, text⟩ (.start tag)).dropped = 0 := by
          rw [Depths.after, if_neg (by simp [hname])]
          split <;> rfl
        have hstays : remaining ⟨0, text⟩ (.start tag.name tag.attributes :: vs) =
            .start tag.name (withoutDropped tag.attributes) ::
              remaining (Depths.after ⟨0, text⟩ (.start tag)) vs := by
          rw [remaining, remaining, hafter]
          simp [isAside, afterDropped, withoutElements, hname, withoutAttributes]
        rw [hstays, List.forall_mem_cons]
        simp [hname, EventView.HasNoFault, withoutDropped]
    | empty tag =>
      rw [keep, exists_keepTag_iff, Event.view]
      by_cases hname : isDroppedElement tag.name = true
      · simp [remaining, isAside, afterDropped, withoutElements, hname, Depths.after]
      · simp [remaining, isAside, afterDropped, withoutElements, hname, Depths.after,
          withoutAttributes, EventView.HasNoFault, withoutDropped]
    | close | text | cdata | comment | instruction | doctype =>
      simp [remaining, Event.view, isAside, afterDropped, withoutElements, withoutAttributes, keep,
        Depths.after, EventView.HasNoFault]

/-- Cleaning fails exactly if an event that the policy looks at has faulty attributes. -/
theorem exists_keepAll_iff {d : Depths} {ls : List Located} :
    (∃ pieces, keepAll d ls = .ok pieces) ↔
      ∀ v ∈ remaining d (ls.map fun l => l.event.view), v.HasNoFault := by
  induction ls generalizing d with
  | nil =>
    obtain ⟨dropped, text⟩ := d
    cases dropped <;> simp [keepAll, remaining, afterDropped, afterElement, withoutElements]
  | cons l ls ih =>
    rw [List.map_cons, forall_mem_remaining_cons, ← ih, keepAll]
    -- a fault of the event ends cleaning, and otherwise the others decide
    cases keep d l.event with
    | error f => simp
    | ok piece? => cases keepAll (d.after l.event) ls <;> simp [Except.map]

/-- Cleaning fails on the events of a source exactly if one of those that are to be kept has faulty
    attributes. -/
private theorem exists_keepAll_ofText_iff {x : String} :
    (∃ pieces, keepAll .zero (ofText x).events = .ok pieces) ↔
      ∀ v ∈ keptEvents x, v.HasNoFault := by
  -- joining changes a start tag into an empty one with the same attributes
  have hempty : ∀ name attrs, EventView.HasNoFault (.start name attrs) ↔
      EventView.HasNoFault (.empty name attrs) := fun _ _ => Iff.rfl
  rw [exists_keepAll_iff, keptEvents, policy, forall_mem_joinEmpty hempty fun _ => trivial,
    forall_mem_joinTexts fun _ => trivial, forall_mem_withoutBlanks fun _ => trivial]
  rfl

/-! ## Parsing what was cleaned -/

/-- A sound event has no faulty attributes. -/
theorem EventView.IsSound.hasNoFault {v : EventView} (h : v.IsSound) : v.HasNoFault := by
  cases v with
  | start | empty => exact h.1
  | close | text | cdata | comment | instruction | doctype => trivial

/-- Whether a text can be parsed does not depend on a byte order mark in front. -/
theorem exists_parse_iff {x : String} :
    (∃ doc, Document.parse x = .ok doc) ↔
      (run [] 0 x.toList).ending = .complete [] ∧ ∀ v ∈ (run [] 0 x.toList).views, v.IsSound := by
  rw [(tokens_parse x).2, ofText]
  -- a mark is dropped by the reader of sources, but not by the reading of a text
  by_cases hmark : '\uFEFF' ∈ x.toList.head?
  · obtain ⟨cs, hcs⟩ := List.head?_eq_some_iff.1 hmark
    -- read as a text, the mark joins the text behind it
    obtain ⟨hviews, hending⟩ := run_append_text (s := ['\uFEFF']) (by simp) (by decide) [] 0 cs
    obtain ⟨hviews', hending'⟩ := run_shift [] (0 + byteLength ['\uFEFF']) 0 cs
    rw [List.singleton_append] at hviews hending
    rw [hcs, dropByteOrderMark, if_pos rfl, hending, hviews, hending',
      forall_mem_consText (fun _ => trivial), hviews']
  · rw [dropByteOrderMark_eq_self hmark]

/-- A cleaned source with legible events can be parsed exactly if these are sound and the source
    leaves no element open but those inside a dropped one. -/
private theorem exists_parse_clean_iff {x c : String} {opened : List String} (hc : clean x = .ok c)
    (hending : (ofText x).ending = .complete opened)
    (hlegible : ∀ v ∈ keptEvents x, v.IsLegible) :
    (∃ doc, Document.parse c = .ok doc) ↔
      opened.length ≤ droppedDepth opened ∧ ∀ v ∈ keptEvents x, v.IsSound := by
  obtain ⟨pieces, hkeep, rfl⟩ := clean_eq_ok hc
  have hdelivers : Delivers [] (ofText x).events := delivers_run [] 0 _
  have hw : Writable [] pieces := writable_keepAll hkeep hdelivers
  have hread := readsAs_renderPieces hw (by simp) 0
  rw [viewsOf_keepAll hkeep] at hread
  have hviews := hread.views.2 hlegible
  obtain ⟨opened', hending'⟩ := hread.complete hlegible
  have hopened : opened = openedAfterAll [] (ofText x).events := ending_run hending
  have hopened' : opened' = opened.drop (droppedDepth opened) := by
    calc opened'
        = openedAfterAll [] (run [] 0 (renderPieces pieces)).events := ending_run hending'
      _ = (viewsOf pieces).foldl EventView.openedAfter [] := by
          rw [openedAfterAll_eq, viewsOf_keepAll hkeep, ← hviews, Reading.views]
      _ = pieces.foldl Piece.openedAfter [] := openedAfter_viewsOf [] pieces
      _ = opened.drop (droppedDepth opened) := by
          rw [hopened, ← openedAfter_keepAll hkeep hdelivers rfl]
          rfl
  rw [exists_parse_iff, String.toList_ofList, hviews, hending', hopened']
  simp

/-! ## Sources that leave an element open -/

/-- A source is refused unless it can be cleaned and what that gives can be parsed. -/
private theorem exists_compileFragment_eq_error_iff {x : String} {cleaner : Cleaner} :
    (∃ e, compileFragment x cleaner = .error e) ↔
      ¬∃ c doc, cleaner x = .ok c ∧ Document.parse c = .ok doc := by
  rw [compileFragment]
  cases cleaner x with
  | error e => simp
  | ok c =>
    dsimp only
    cases hparse : Document.parse c <;> simp [hparse]

/-- A source that leaves an element open cannot be parsed. Cleaning hides that exactly if the
    outermost element that is left open is a dropped one and nothing is wrong with what is kept. -/
theorem compileFragment_of_left_open {x outermost : String} {opened : List String}
    (hending : (ofText x).ending = .complete opened) (houter : opened.getLast? = some outermost)
    (hlegible : ∀ v ∈ keptEvents x, v.IsLegible) :
    (∃ e, compileFragment x .identity = .error e) ∧
      ((∃ e, compileFragment x .standard = .error e) ↔
        isDroppedElement outermost = false ∨ ∃ v ∈ keptEvents x, ¬v.IsSound) := by
  constructor
  · rw [exists_compileFragment_eq_error_iff]
    rintro ⟨c, doc, hc, hdoc⟩
    cases hc
    -- nothing may be left open
    have hnone := ((tokens_parse x).2.1 ⟨doc, hdoc⟩).1
    rw [hending] at hnone
    cases hnone
    cases houter
  · have hdropped : opened.length ≤ droppedDepth opened ↔ isDroppedElement outermost = true := by
      have hlt := droppedDepth_lt_length_iff houter
      rw [← Nat.not_lt, hlt, Bool.not_eq_false]
    have hok : (∃ c doc, Cleaner.standard x = .ok c ∧ Document.parse c = .ok doc) ↔
        isDroppedElement outermost = true ∧ ∀ v ∈ keptEvents x, v.IsSound := by
      rw [← hdropped]
      constructor
      · intro h
        obtain ⟨c, doc, hc, hdoc⟩ := h
        exact (exists_parse_clean_iff hc hending hlegible).1 ⟨doc, hdoc⟩
      · intro h
        -- sound events have no fault, so cleaning does not fail
        obtain ⟨pieces, hkeep⟩ := exists_keepAll_ofText_iff.2 fun v hv => (h.2 v hv).hasNoFault
        have hc : clean x = .ok (String.ofList (renderPieces pieces)) := by
          simp [clean, Reading.kept, hkeep, hending]
        obtain ⟨doc, hdoc⟩ := (exists_parse_clean_iff hc hending hlegible).2 h
        exact ⟨_, doc, hc, hdoc⟩
    rw [exists_compileFragment_eq_error_iff, hok, not_and_or, Bool.not_eq_true]
    simp

/-- A source that breaks off inside a dropped element, which is itself inside one that stays. -/
def brokenOffSource : String :=
  "<svg a='1'><title>t</title><g/>x<desc><u>"

/-- Elements that are left open inside and outside a dropped one are refused both with and without
    cleaning. -/
theorem compileFragment_brokenOffSource :
    (ofText brokenOffSource).ending = .complete ["u", "desc", "svg"] ∧
      (∃ e, compileFragment brokenOffSource .identity = .error e) ∧
      ∃ e, compileFragment brokenOffSource .standard = .error e := by
  have hending : (ofText brokenOffSource).ending = .complete ["u", "desc", "svg"] := by
    decide +kernel
  have hkept : keptEvents brokenOffSource =
      [.start "svg" ⟨[⟨"a", "1"⟩], none⟩, .empty "g" .nil, .text "x"] := by
    decide +kernel
  have hlegible : ∀ v ∈ keptEvents brokenOffSource, v.IsLegible := by
    have hsvg : isClosed none (tagText "svg" [⟨"a", "1"⟩]) = true := by decide
    have hg : isClosed none (tagText "g" []) = true := by decide
    rw [hkept]
    simp [EventView.IsLegible, AttributeList.nil, hsvg, hg]
  obtain ⟨hidentity, hstandard⟩ := compileFragment_of_left_open hending rfl hlegible
  exact ⟨hending, hidentity, hstandard.2 (.inl (by decide))⟩

/-- A source that breaks off inside a dropped element is compiled as if it were complete. -/
theorem compileFragment_of_open_title :
    (ofText "<svg/><title>").ending = .complete ["title"] ∧
      (∃ e, compileFragment "<svg/><title>" .identity = .error e) ∧
      compileFragment "<svg/><title>" .standard = .ok "" := by
  have hidentity : (compileFragment "<svg/><title>" .identity).toOption = none := by decide +kernel
  refine ⟨by decide +kernel, ?_, ok_of_toOption (by decide +kernel)⟩
  cases h : compileFragment "<svg/><title>" .identity with
  | error e => exact ⟨e, rfl⟩
  | ok fragment =>
    rw [h] at hidentity
    cases hidentity

end IconCompiler.Markup
