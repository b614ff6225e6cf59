import IconCompiler.Proofs.Markup.PieceReading
import IconCompiler.Proofs.Outcome

/-!
# Cleaning keeps what its policy keeps

Cleaning goes over the events once, with two depths; the policy is a sequence of steps over all
events. Both agree after every event: the depth inside a dropped element says which events the
policy still has to skip, and the depth inside a `text` element whether one is among the open
names that stay. What cleaning wrote is then read back.

## Key results

- `map_view_keepAll`: the pieces that stay are what the policy leaves before it joins events
- `writable_keepAll`: the pieces that stay can be written one after another
- `views_clean`: a cleaned source is read as the events that the policy keeps
-/

namespace IconCompiler.Markup

open EventView

/-! ## The depths -/

/-- How many of the open names are inside a `text` element, itself included. -/
def textDepth : (opened : List String) → Nat
  | [] => 0
  | name :: opened =>
    if name = "text" ∨ 0 < textDepth opened then textDepth opened + 1 else 0

/-- The depth says whether a `text` element is open. -/
private theorem textDepth_pos_iff {opened : List String} :
    0 < textDepth opened ↔ "text" ∈ opened := by
  -- from the outermost name inwards
  induction opened with
  | nil => simp [textDepth]
  | cons name opened ih =>
    rw [textDepth, List.mem_cons, ← ih, eq_comm (a := "text")]
    split <;> simp_all

/-- A closing tag takes one from the depth, if there is one. -/
private theorem textDepth_tail (opened : List String) :
    textDepth opened.tail = textDepth opened - 1 := by
  cases opened with
  | nil => rfl
  | cons name opened =>
    rw [List.tail_cons, textDepth]
    split <;> omega

/-- The events after the open dropped elements, of which there are `dropped`. -/
def afterDropped : (dropped : Nat) → List EventView → List EventView
  | 0, vs => vs
  | dropped + 1, vs => afterElement dropped vs

/-- A closing tag ends the innermost dropped element. -/
private theorem afterElement_close (inner : Nat) (name : String) (vs : List EventView) :
    afterElement inner (.close name :: vs) = afterDropped inner vs := by
  cases inner with
  | zero => rfl
  | succ inner => rfl

/-! ## The pieces that stay -/

/-- The attributes that stay of a tag are those that the policy keeps, without a fault. -/
private theorem keptAttributes_eq_ok {tag : Tag} {attrs : List Attribute}
    (h : tag.keptAttributes = .ok attrs) : withoutDropped tag.attributes = ⟨attrs, none⟩ := by
  simp only [Tag.keptAttributes] at h
  split at h
  · cases h
  · rename_i hfault
    cases h
    rw [withoutDropped, hfault]

/-- The attributes that stay can be written in one tag. -/
private theorem keptAttributes_areWritable {tag : Tag} {attrs : List Attribute}
    (h : tag.keptAttributes = .ok attrs) : AreWritable attrs := by
  have hkept := congrArg AttributeList.items (keptAttributes_eq_ok h)
  rw [show attrs = (withoutDropped tag.attributes).items from hkept.symm]
  exact tag.areWritable_attributes.filter _

/-- What stays of a tag: nothing if it is dropped, and otherwise its piece with the attributes that
    stay. -/
private theorem keepTag_eq_ok {d : Depths} {tag : Tag} {f : List Attribute → Piece}
    {piece? : Option Piece} (h : (if d.dropped > 0 || isDroppedElement tag.name then .ok none
      else tag.keptAttributes.map fun attrs => some (f attrs)) = Except.ok piece?) :
    ((d.dropped > 0 ∨ isDroppedElement tag.name = true) ∧ piece? = none) ∨
      (d.dropped = 0 ∧ isDroppedElement tag.name = false ∧
        ∃ attrs, tag.keptAttributes = .ok attrs ∧ piece? = some (f attrs)) := by
  -- the tag is dropped for itself or for the element around it
  by_cases hdrop : d.dropped > 0 ∨ isDroppedElement tag.name = true
  · rw [if_pos (by simpa using hdrop)] at h
    exact .inl ⟨hdrop, (Except.ok.inj h).symm⟩
  · rw [if_neg (by simpa using hdrop)] at h
    obtain ⟨attrs, hattrs, hpiece⟩ := ok_of_map h
    obtain ⟨hzero, hname⟩ := not_or.1 hdrop
    exact .inr ⟨Nat.eq_zero_of_not_pos hzero, by simpa using hname, attrs, hattrs, hpiece.symm⟩

/-- What stays of one event more. -/
theorem keepAll_cons_eq_ok {d : Depths} {l : Located} {ls : List Located} {pieces : List Piece}
    (h : keepAll d (l :: ls) = .ok pieces) :
    ∃ piece? rest, keep d l.event = .ok piece? ∧ keepAll (d.after l.event) ls = .ok rest ∧
      pieces = piece?.toList ++ rest := by
  -- a fault of the first event or of the others would be one of all
  rw [keepAll] at h
  split at h
  · cases h
  · rename_i piece? hkeep
    cases hrest : keepAll (d.after l.event) ls with
    | error e =>
      rw [hrest] at h
      cases h
    | ok rest =>
      rw [hrest] at h
      cases h
      exact ⟨piece?, rest, hkeep, rfl, rfl⟩

/-- The open names that stay, after the piece that stays of an event. -/
def openedAfterKept (kept : List String) (piece? : Option Piece) : List String :=
  piece?.elim kept fun p => p.openedAfter kept

/-- The events that stay of those to come, before blank texts are taken out. -/
def remaining (d : Depths) (vs : List EventView) : List EventView :=
  (withoutElements (afterDropped d.dropped (vs.filter fun v => !v.isAside))).map withoutAttributes

/-- Inside a dropped element nothing stays, and the policy skips every event. -/
theorem keep_dropped {n text : Nat} {e : Event} {piece? : Option Piece}
    (h : keep ⟨n + 1, text⟩ e = .ok piece?) (vs : List EventView) :
    piece? = none ∧ (Depths.after ⟨n + 1, text⟩ e).text = text ∧
      remaining ⟨n + 1, text⟩ (e.view :: vs) = remaining (Depths.after ⟨n + 1, text⟩ e) vs := by
  cases e with
  | close name =>
    cases h
    refine ⟨rfl, rfl, ?_⟩
    simp only [remaining, Event.view, isAside, Bool.not_false, List.filter_cons_of_pos,
      afterDropped, afterElement_close]
    rfl
  | start | empty | text | cdata | comment | instruction | doctype =>
    cases h
    exact ⟨rfl, rfl, rfl⟩

/-- A start tag outside dropped elements. -/
private theorem keep_start {text : Nat} {kept : List String} {tag : Tag} {piece? : Option Piece}
    (h : keep ⟨0, text⟩ (.start tag) = .ok piece?) (hd : text = textDepth kept)
    (vs : List EventView) :
    (Depths.after ⟨0, text⟩ (.start tag)).text = textDepth (openedAfterKept kept piece?) ∧
      withoutBlanks kept (remaining ⟨0, text⟩ (.start tag.name tag.attributes :: vs)) =
        piece?.toList.map Piece.view ++ withoutBlanks (openedAfterKept kept piece?)
          (remaining (Depths.after ⟨0, text⟩ (.start tag)) vs) := by
  subst hd
  rcases keepTag_eq_ok h with ⟨hdrop, rfl⟩ | ⟨-, hdrop, attrs, hattrs, rfl⟩
  · -- the element goes with its contents, in which no `text` elements are counted
    have hname : isDroppedElement tag.name = true := hdrop.resolve_left (Nat.lt_irrefl 0)
    have hafter : Depths.after ⟨0, textDepth kept⟩ (.start tag) = ⟨1, textDepth kept⟩ := by
      simp [Depths.after, hname]
    have hremaining : remaining ⟨0, textDepth kept⟩ (.start tag.name tag.attributes :: vs) =
        remaining ⟨1, textDepth kept⟩ vs := by
      simp [remaining, isAside, afterDropped, withoutElements, hname]
    rw [hafter, hremaining]
    exact ⟨rfl, rfl⟩
  · -- the element stays, and may be the first `text` element that is open
    have hafter : Depths.after ⟨0, textDepth kept⟩ (.start tag) =
        ⟨0, textDepth (tag.name :: kept)⟩ := by
      have hcond : (decide (textDepth kept > 0) || decide (tag.name = "text")) =
          decide (tag.name = "text" ∨ 0 < textDepth kept) := by
        rw [Bool.or_comm, ← Bool.decide_or]
      rw [Depths.after, if_neg (by simp [hdrop]), hcond, textDepth]
      by_cases htext : tag.name = "text" ∨ 0 < textDepth kept
      · simp [htext]
      · obtain ⟨hname, hzero⟩ := not_or.1 htext
        simp [hname, Nat.eq_zero_of_not_pos hzero]
    have hremaining : remaining ⟨0, textDepth kept⟩ (.start tag.name tag.attributes :: vs) =
        .start tag.name ⟨attrs, none⟩ :: remaining ⟨0, textDepth (tag.name :: kept)⟩ vs := by
      simp [remaining, isAside, afterDropped, withoutElements, hdrop, withoutAttributes,
        keptAttributes_eq_ok hattrs]
    rw [hafter, hremaining]
    exact ⟨rfl, rfl⟩

/-- A text outside dropped elements. -/
private theorem keep_text {kept : List String} {s : String} {piece? : Option Piece}
    (h : keep ⟨0, textDepth kept⟩ (.text s) = .ok piece?) (vs : List EventView) :
    openedAfterKept kept piece? = kept ∧
      withoutBlanks kept (.text s :: vs) =
        piece?.toList.map Piece.view ++ withoutBlanks kept vs := by
  simp only [keep, Except.ok.injEq] at h
  subst h
  by_cases hblank : Text.isBlank s.toList = true
  · by_cases htext : "text" ∈ kept
    · simp [withoutBlanks, hblank, htext, textDepth_pos_iff, openedAfterKept, Piece.openedAfter,
        Piece.view]
    · simp [withoutBlanks, hblank, htext, textDepth_pos_iff, openedAfterKept]
  · -- a text with more than white space stays anywhere
    simp [withoutBlanks, hblank, openedAfterKept, Piece.openedAfter, Piece.view]

/-- What stays of one event: the depth inside `text` elements follows the open names that stay, and
    the policy keeps the piece and goes on behind it. -/
private theorem keep_step {d : Depths} {kept : List String} {e : Event} {piece? : Option Piece}
    (h : keep d e = .ok piece?) (hd : d.text = textDepth kept) (vs : List EventView) :
    (d.after e).text = textDepth (openedAfterKept kept piece?) ∧
      withoutBlanks kept (remaining d (e.view :: vs)) = piece?.toList.map Piece.view ++
        withoutBlanks (openedAfterKept kept piece?) (remaining (d.after e) vs) := by
  obtain ⟨dropped, text⟩ := d
  obtain rfl : text = textDepth kept := hd
  cases dropped with
  | succ n =>
    obtain ⟨rfl, htext, hremaining⟩ := keep_dropped h vs
    rw [hremaining]
    exact ⟨htext, rfl⟩
  | zero =>
    -- no dropped element is open, so the policy looks at the event
    cases e with
    | comment | instruction | doctype =>
      cases h
      exact ⟨rfl, rfl⟩
    | start tag => exact keep_start h rfl vs
    | empty tag =>
      rcases keepTag_eq_ok h with ⟨hdrop, rfl⟩ | ⟨-, hdrop, attrs, hattrs, rfl⟩
      · have hname : isDroppedElement tag.name = true := hdrop.resolve_left (Nat.lt_irrefl 0)
        refine ⟨rfl, ?_⟩
        simp [remaining, Event.view, isAside, afterDropped, withoutElements, hname, Depths.after,
          openedAfterKept]
      · refine ⟨rfl, ?_⟩
        simp [remaining, Event.view, isAside, afterDropped, withoutElements, hdrop, Depths.after,
          withoutAttributes, keptAttributes_eq_ok hattrs, withoutBlanks, openedAfterKept,
          Piece.openedAfter, Piece.view]
    | close name =>
      cases h
      refine ⟨(textDepth_tail kept).symm, ?_⟩
      simp [remaining, Event.view, isAside, afterDropped, withoutElements, Depths.after,
        withoutAttributes, withoutBlanks, openedAfterKept, Piece.openedAfter, Piece.view]
    | text s =>
      have hremaining : remaining ⟨0, textDepth kept⟩ (.text s :: vs) =
          .text s :: remaining ⟨0, textDepth kept⟩ vs := by
        simp [remaining, isAside, afterDropped, withoutElements, withoutAttributes]
      obtain ⟨hopened, hblanks⟩ := keep_text h (remaining ⟨0, textDepth kept⟩ vs)
      rw [hopened]
      exact ⟨rfl, by rw [Event.view, hremaining, hblanks]; rfl⟩
    | cdata s =>
      cases h
      refine ⟨rfl, ?_⟩
      simp [remaining, Event.view, isAside, afterDropped, withoutElements, Depths.after,
        withoutAttributes, withoutBlanks, openedAfterKept, Piece.openedAfter, Piece.view]

/-- The pieces that stay are what the policy leaves before it joins events. -/
theorem map_view_keepAll {d : Depths} {kept : List String} {ls : List Located}
    {pieces : List Piece} (h : keepAll d ls = .ok pieces) (hd : d.text = textDepth kept) :
    pieces.map Piece.view = withoutBlanks kept (remaining d (ls.map fun l => l.event.view)) := by
  -- over the events, with the depths and the open names in step with each other
  induction ls generalizing d kept pieces with
  | nil =>
    cases h
    obtain ⟨dropped, text⟩ := d
    -- at the end nothing is left to skip or to keep
    cases dropped <;>
      simp [remaining, afterDropped, afterElement, withoutElements, withoutBlanks]
  | cons l ls ih =>
    obtain ⟨piece?, rest, hkeep, hrest, rfl⟩ := keepAll_cons_eq_ok h
    obtain ⟨htext, hstep⟩ := keep_step hkeep hd (ls.map fun l => l.event.view)
    rw [List.map_cons, hstep, List.map_append, ih hrest htext]

/-- What stays of an event that can be delivered can be written. -/
theorem keep_isWritable {d : Depths} {opened : List String} {e : Event} {piece? : Option Piece}
    (h : keep d e = .ok piece?) (he : e.IsDelivered opened) :
    (∀ p ∈ piece?, p.IsWritable (opened.drop d.dropped)) ∧
      (e.openedAfter opened).drop (d.after e).dropped =
        openedAfterKept (opened.drop d.dropped) piece? := by
  -- the open names that stay lie below those of the dropped elements
  obtain ⟨dropped, text⟩ := d
  cases e with
  | start tag =>
    rcases keepTag_eq_ok h with ⟨hdrop, rfl⟩ | ⟨hzero, hdrop, attrs, hattrs, rfl⟩
    · -- one more element is open, and one more is dropped
      rw [Depths.after, if_pos (by simpa using hdrop)]
      exact ⟨by simp, rfl⟩
    · obtain rfl : dropped = 0 := hzero
      rw [Depths.after, if_neg (by simp [hdrop])]
      refine ⟨?_, by split <;> rfl⟩
      rintro p ⟨⟩
      -- the name is that of the event, and the attributes are some of its own
      exact ⟨he, keptAttributes_areWritable hattrs⟩
  | empty tag =>
    rcases keepTag_eq_ok h with ⟨-, rfl⟩ | ⟨-, -, attrs, hattrs, rfl⟩
    · exact ⟨by simp, rfl⟩
    · refine ⟨?_, rfl⟩
      rintro p ⟨⟩
      exact ⟨he, keptAttributes_areWritable hattrs⟩
  | close name =>
    cases dropped with
    | zero =>
      cases h
      refine ⟨?_, rfl⟩
      rintro p ⟨⟩
      exact he
    | succ n =>
      -- the innermost of the dropped elements is closed
      cases h
      refine ⟨by simp, ?_⟩
      simp [Event.openedAfter, Depths.after, openedAfterKept]
  | text s | cdata s =>
    simp only [keep, Except.ok.injEq] at h
    subst h
    split
    · refine ⟨?_, rfl⟩
      rintro p ⟨⟩
      exact he
    · exact ⟨by simp, rfl⟩
  | comment | instruction | doctype =>
    cases h
    exact ⟨by simp, rfl⟩

/-- The pieces that stay can be written one after another. -/
theorem writable_keepAll {d : Depths} {opened : List String} {ls : List Located}
    {pieces : List Piece} (h : keepAll d ls = .ok pieces) (hls : Delivers opened ls) :
    Writable (opened.drop d.dropped) pieces := by
  induction ls generalizing d opened pieces with
  | nil =>
    cases h
    trivial
  | cons l ls ih =>
    obtain ⟨piece?, rest, hkeep, hrest, rfl⟩ := keepAll_cons_eq_ok h
    obtain ⟨hwritable, hopened⟩ := keep_isWritable hkeep hls.1
    have hrest' := ih hrest hls.2
    rw [hopened] at hrest'
    cases piece? with
    | none => exact hrest'
    | some p => exact ⟨hwritable p rfl, hrest'⟩

/-! ## The front of what is written -/

/-- A text of a reading stands in its source. -/
private theorem text_subset_run (opened : List String) (pos : Nat) (cs : List Char) :
    ∀ l ∈ (Reading.run opened pos cs).events, ∀ s, l.event = .text s → s.toList ⊆ cs := by
  -- over the reading, whose rest is always an end of the source
  fun_induction Reading.run opened pos cs with
  | case1 => exact List.forall_mem_nil _
  | case2 => exact List.forall_mem_nil _
  | case3 opened pos rest e size rest' h _ ih =>
    intro l hl s hs
    have hscan := scans_of_scanMarkup h
    rcases List.mem_cons.1 hl with rfl | hl
    · -- markup is no text
      cases hscan with
      | tag =>
        rw [tagEvent] at hs
        split at hs <;> cases hs
      | close | cdata | comment | instruction | doctype => cases hs
    · intro d hd
      exact List.mem_cons_of_mem _ (hscan.suffix.subset (ih l hl s hs hd))
  | case4 opened pos c rest hc text _ ih =>
    intro l hl s hs
    rcases List.mem_cons.1 hl with rfl | hl
    · obtain rfl := Event.text.inj hs
      rw [String.toList_ofList]
      exact List.cons_subset_cons c (List.takeWhile_subset _)
    · intro d hd
      exact List.mem_cons_of_mem _ (List.dropWhile_subset _ (ih l hl s hs hd))

/-- Only a text stays as a text, and it stays as it is. -/
private theorem eq_text_of_keep {d : Depths} {e : Event} {s : String}
    (h : keep d e = .ok (some (.text s))) : e = .text s := by
  cases e with
  | text t =>
    simp only [keep, Except.ok.injEq] at h
    split at h
    · rw [Piece.text.inj (Option.some.inj h)]
    · cases h
  | start tag | empty tag =>
    rcases keepTag_eq_ok h with ⟨-, hpiece⟩ | ⟨-, -, attrs, -, hpiece⟩ <;> cases hpiece
  | close | cdata =>
    simp only [keep, Except.ok.injEq] at h
    split at h <;> cases h
  | comment | instruction | doctype => cases h

/-- A text that stays is one of the texts. -/
private theorem exists_of_text_mem_keepAll {d : Depths} {ls : List Located} {pieces : List Piece}
    (h : keepAll d ls = .ok pieces) {s : String} (hs : .text s ∈ pieces) :
    ∃ l ∈ ls, l.event = .text s := by
  induction ls generalizing d pieces with
  | nil =>
    cases h
    cases hs
  | cons l ls ih =>
    obtain ⟨piece?, rest, hkeep, hrest, rfl⟩ := keepAll_cons_eq_ok h
    rcases List.mem_append.1 hs with hs | hs
    · rw [Option.mem_toList.1 hs] at hkeep
      exact ⟨l, List.mem_cons_self, eq_text_of_keep hkeep⟩
    · obtain ⟨l', hl', hev⟩ := ih hrest hs
      exact ⟨l', List.mem_cons_of_mem _ hl', hev⟩

/-- Written pieces start with an angle bracket or with a character of a text. -/
private theorem head?_renderPieces {opened : List String} {pieces : List Piece}
    (hw : Writable opened pieces) : ∀ c ∈ (renderPieces pieces).head?,
      c = '<' ∨ ∃ s, .text s ∈ pieces ∧ c ∈ s.toList := by
  intro c hc
  unfold renderPieces at hc
  split at hc
  · cases hc
  · exact .inl (by simpa [renderTagFront, eq_comm] using hc)
  · exact .inl (by simpa [renderTagFront, eq_comm] using hc)
  · exact .inl (by simpa [renderTagFront, eq_comm] using hc)
  · exact .inl (by simpa [eq_comm] using hc)
  · -- a text of a reading has a character, and it is that of the piece
    rename_i s rest
    obtain ⟨d, ds, hs⟩ := List.exists_cons_of_ne_nil hw.1.1
    rw [hs, List.cons_append, List.head?_cons, Option.mem_def, Option.some.injEq] at hc
    exact .inr ⟨s, List.mem_cons_self, by simp [hs, hc]⟩
  · have hfront : "<![CDATA[".toList = '<' :: "![CDATA[".toList := rfl
    rw [hfront] at hc
    exact .inl (by simpa [eq_comm] using hc)

/-! ## Cleaning -/

/-- The pieces that stay of a reading are those that stay of its events. -/
theorem keepAll_of_kept {r : Reading} {pieces : List Piece} (h : r.kept = .ok pieces) :
    keepAll .zero r.events = .ok pieces := by
  rw [Reading.kept] at h
  split at h
  · cases h
  · rename_i hkeep
    split at h
    · cases h
    · cases h
      exact hkeep

/-- A cleaned source is what is written of the pieces that stay. -/
theorem clean_eq_ok {x c : String} (h : clean x = .ok c) :
    ∃ pieces, keepAll .zero (Reading.ofText x).events = .ok pieces ∧
      c = String.ofList (renderPieces pieces) := by
  rw [clean] at h
  split at h
  · rename_i pieces hkept
    exact ⟨pieces, keepAll_of_kept hkept, (Except.ok.inj h).symm⟩
  · cases h

/-- What stays of a source is what the policy keeps of it. -/
theorem viewsOf_keepAll {x : String} {pieces : List Piece}
    (h : keepAll .zero (Reading.ofText x).events = .ok pieces) :
    viewsOf pieces = keptEvents x := by
  have hmap := @map_view_keepAll .zero [] _ _ h rfl
  rw [viewsOf, hmap]
  rfl

/-- A cleaned source has no byte order mark that was not in the source. -/
private theorem ofText_renderPieces {x : String} {pieces : List Piece} (hx : '\uFEFF' ∉ x.toList)
    (h : keepAll .zero (Reading.ofText x).events = .ok pieces) (hw : Writable [] pieces) :
    Reading.ofText (String.ofList (renderPieces pieces)) =
      Reading.run [] 0 (renderPieces pieces) := by
  rw [Reading.ofText, String.toList_ofList, Reading.dropByteOrderMark_eq_self]
  intro hc
  rcases head?_renderPieces hw _ hc with hlt | ⟨s, hs, hmem⟩
  · exact absurd hlt (by decide)
  · -- the mark would be part of a text of the source
    obtain ⟨l, hl, hev⟩ := exists_of_text_mem_keepAll h hs
    rw [Reading.ofText,
      Reading.dropByteOrderMark_eq_self fun hmem => hx (List.mem_of_mem_head? hmem)] at hl
    exact hx (text_subset_run [] 0 x.toList l hl s hev hmem)

/-- A cleaned source is read as the events that the policy keeps, if these have plain names; and
    exactly if all of them are legible. Then it is read without a fault. -/
theorem views_clean {x c : String} (hc : clean x = .ok c) (hx : '\uFEFF' ∉ x.toList) :
    ((∀ v ∈ keptEvents x, v.HasPlainNames) → (Reading.ofText c).views = keptEvents x) ∧
      ((Reading.ofText c).views = keptEvents x ↔ ∀ v ∈ keptEvents x, v.IsLegible) ∧
      ((Reading.ofText c).views = keptEvents x →
        ∃ opened, (Reading.ofText c).ending = .complete opened) := by
  obtain ⟨pieces, hkeep, rfl⟩ := clean_eq_ok hc
  -- the pieces can be written, so they are read back if they are legible
  have hw : Writable [] pieces := writable_keepAll hkeep (delivers_run [] 0 _)
  have hread := readsAs_renderPieces hw (by simp) 0
  rw [viewsOf_keepAll hkeep, ← ofText_renderPieces hx hkeep hw] at hread
  refine ⟨?_, hread.views, fun h => hread.complete (hread.views.1 h)⟩
  intro hplain
  refine hread.views.2 fun v hv => isLegible_of_hasPlainNames (hplain v hv) ?_
  rw [← viewsOf_keepAll hkeep] at hv
  exact hasWritableAttributes_of_mem_viewsOf hw v hv

/-- A source with an element that only dropping empties, one of its dropped elements and one of the
    attributes being those of an editor, white space inside and outside a `text` element, texts that
    a comment parts, a quote in a value, and a dropped element that is never closed. -/
def nestedSource : String :=
  "<svg xmlns=\"u\" inkscape:v=\"1\" a='\"'><g> <title>t</title><sodipodi:w><p/></sodipodi:w></g>" ++
    "x<!----> y<text> <b/> </text><desc><u>"

/-- What cleaning leaves of it is read as what the policy keeps. -/
theorem views_clean_nestedSource :
    clean nestedSource = .ok "<svg a='\"'><g/>x y<text> <b/> </text>" ∧
      (Reading.ofText "<svg a='\"'><g/>x y<text> <b/> </text>").views =
        keptEvents nestedSource := by
  have hclean : clean nestedSource = .ok "<svg a='\"'><g/>x y<text> <b/> </text>" :=
    ok_of_toOption (by decide +kernel)
  have hkept : keptEvents nestedSource =
      [.start "svg" ⟨[⟨"a", "\""⟩], none⟩, .empty "g" .nil, .text "x y", .start "text" .nil,
        .text " ", .empty "b" .nil, .text " ", .close "text"] := by
    decide +kernel
  have hplain : ∀ v ∈ keptEvents nestedSource, v.HasPlainNames := by
    rw [hkept]
    simp [EventView.HasPlainNames, IsPlain, AttributeList.nil]
  exact ⟨hclean, (views_clean hclean (by decide +kernel)).1 hplain⟩

end IconCompiler.Markup
