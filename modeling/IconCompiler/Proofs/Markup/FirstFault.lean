import IconCompiler.Proofs.Markup.FaultPlaces

/-!
# The first fault of a source

Parsing looks at every tag of a source and decodes its styles; cleaning looks only at the tags that
would stay, and decodes nothing. Both go through the same events and stop at the first fault they
look at, or where the reading breaks off. So what can be parsed can be cleaned, and a source that
cannot be cleaned is refused by parsing at the same place or in front of it.

## Key results

- `error?_handleAll`: parsing stops at the first event with a fault, for that fault
- `error?_ofReading`: for what, and at which offset, a source is refused
- `parse_of_clean`: how the errors of cleaning and parsing a source are related
-/

namespace IconCompiler.Markup

open EventView Reading

/-! ## The fault of an event -/

/-- What is wrong with attributes, if anything is. The values in front of a faulty attribute are
    looked at first. -/
def AttributeList.firstFault? (l : AttributeList) : Option Fault :=
  (l.items.findSome? fun a => error? a.toValue).or (l.fault.map .attribute)

namespace EventView

/-- What is wrong with an event, if anything is. -/
def firstFault? : EventView → Option Fault
  | .start _ attrs | .empty _ attrs => attrs.firstFault?
  | _ => none

/-- Whether every style of an event can be decoded. -/
def HasSoundStyles : EventView → Prop
  | .start _ attrs | .empty _ attrs =>
    ∀ a ∈ attrs.items, a.key = "style" → ∃ s, decodeEntities a.value = .ok s
  | _ => True

instance : DecidablePred HasNoFault
  | .start _ attrs | .empty _ attrs => inferInstanceAs (Decidable (attrs.fault = none))
  | .close _ | .text _ | .cdata _ | .comment _ | .instruction _ | .doctype _ => .isTrue trivial

instance : DecidablePred HasSoundStyles
  | .start _ attrs | .empty _ attrs =>
    decidable_of_iff (∀ a ∈ attrs.items, a.entry?.isSome)
      (forall₂_congr fun _ _ => Attribute.isSome_entry?_iff)
  | .close _ | .text _ | .cdata _ | .comment _ | .instruction _ | .doctype _ => .isTrue trivial

/-- An event is sound if its attributes are well formed and its styles can be decoded. -/
private theorem isSound_iff {v : EventView} : v.IsSound ↔ v.HasNoFault ∧ v.HasSoundStyles := by
  cases v with
  | start | empty => exact Iff.rfl
  | close | text | cdata | comment | instruction | doctype =>
    exact ⟨fun _ => ⟨trivial, trivial⟩, fun _ => trivial⟩

end EventView

/-- A value is refused only if it is a style that cannot be decoded. -/
private theorem Attribute.error?_toValue_eq_none {a : Attribute}
    (h : a.key = "style" → ∃ s, decodeEntities a.value = .ok s) : error? a.toValue = none := by
  rw [Attribute.toValue]
  split
  · rename_i hstyle
    obtain ⟨s, hs⟩ := h hstyle
    rw [hs]
    rfl
  · rfl

/-- If all styles can be decoded, what is wrong is what is wrong with the attributes. -/
private theorem AttributeList.firstFault?_of_soundStyles {l : AttributeList}
    (h : ∀ a ∈ l.items, a.key = "style" → ∃ s, decodeEntities a.value = .ok s) :
    l.firstFault? = l.fault.map .attribute := by
  have hnone : (l.items.findSome? fun a => error? a.toValue) = none := by
    rw [List.findSome?_eq_none_iff]
    exact fun a ha => Attribute.error?_toValue_eq_none (h a ha)
  rw [AttributeList.firstFault?, hnone, Option.none_or]

/-- Nothing is wrong with a sound event. -/
private theorem EventView.firstFault?_of_isSound {v : EventView} (h : v.IsSound) :
    v.firstFault? = none := by
  cases v with
  | start tag attrs | empty tag attrs =>
    rw [EventView.firstFault?, AttributeList.firstFault?_of_soundStyles h.2, h.1, Option.map_none]
  | close | text | cdata | comment | instruction | doctype => rfl

/-- If all its styles can be decoded, an event is refused for what is wrong with its attributes. -/
private theorem EventView.firstFault?_of_attributeFault {v : EventView} {g : AttributeFault}
    (hg : v.attributeFault? = some g) (hstyles : v.HasSoundStyles) :
    v.firstFault? = some (.attribute g) := by
  cases v with
  | start tag attrs | empty tag attrs =>
    have hfault : attrs.fault = some g := hg
    rw [EventView.firstFault?, AttributeList.firstFault?_of_soundStyles hstyles, hfault,
      Option.map_some]
  | close | text | cdata | comment | instruction | doctype => cases hg

/-- An event with faulty attributes is refused, for them or for a style among them. -/
private theorem EventView.firstFault?_ne_none {v : EventView} {g : AttributeFault}
    (hg : v.attributeFault? = some g) : v.firstFault? ≠ none := by
  cases v with
  | start tag attrs | empty tag attrs =>
    have hfault : attrs.fault = some g := hg
    simp [EventView.firstFault?, AttributeList.firstFault?, hfault]
  | close | text | cdata | comment | instruction | doctype => cases hg

/-! ## Where parsing stops -/

/-- Attributes are refused for the first value that is. -/
private theorem error?_insertAttributes (attrs : Attributes) (items : List Attribute) :
    error? (insertAttributes attrs items) = items.findSome? fun a => error? a.toValue := by
  induction items generalizing attrs with
  | nil => rfl
  | cons a items ih =>
    rw [insertAttributes, List.findSome?_cons]
    cases a.toValue with
    | ok v => exact ih _
    | error f => rfl

/-- A tag is refused for the first thing that is wrong with it. -/
theorem Tag.error?_readAttributes (tag : Tag) :
    error? tag.readAttributes = tag.attributes.firstFault? := by
  rw [AttributeList.firstFault?, ← error?_insertAttributes .empty, Tag.readAttributes]
  cases insertAttributes .empty tag.attributes.items with
  | error f => rfl
  | ok attrs => cases tag.attributes.fault <;> rfl

/-- Handling an event fails exactly for what is wrong with it. -/
private theorem Builder.error?_handle {b : Builder} {e : Event} (he : e.IsDelivered b.opened) :
    error? (b.handle e) = e.view.firstFault? := by
  cases e with
  | start tag | empty tag =>
    -- a tag is all that can be at fault, and its attributes say so
    rw [Event.view, EventView.firstFault?, ← tag.error?_readAttributes, handle]
    cases tag.readAttributes <;> rfl
  | close name =>
    obtain ⟨stack, finished⟩ := b
    cases stack with
    | nil => exact absurd he.1 (by simp [opened])
    | cons e rest => rfl
  | text s =>
    rw [handle]
    split <;> rfl
  | cdata | comment | instruction | doctype => rfl

/-- The first fault of events, with the offset of its event. -/
def firstFaultOf (ls : List Located) : Option (Fault × Nat) :=
  ls.findSome? fun l => l.event.view.firstFault?.map (·, l.offset)

/-- Parsing stops at the first event with a fault, for that fault. -/
theorem Builder.error?_handleAll {b : Builder} {ls : List Located} (hls : Delivers b.opened ls) :
    error? (b.handleAll ls) = firstFaultOf ls := by
  induction ls generalizing b with
  | nil => rfl
  | cons l ls ih =>
    have hstep := error?_handle hls.1
    rw [handleAll, firstFaultOf, List.findSome?_cons, ← hstep]
    cases h : b.handle l.event with
    | error f => rfl
    -- the elements that are open now are those that the reader holds open
    | ok b' => exact ih (by rw [(handle_eq_ok hls.1 h).2]; exact hls.2)

/-- What the ending of a reading says against a source of `size` bytes, if anything. -/
def Ending.fault? (size : Nat) : Ending → Option (Fault × Nat)
  | .broken f offset => some (f, offset)
  | .complete [] => none
  | .complete (tag :: _) => some (.unclosedElement tag, size)

/-- A document that was built has the elements open that the events left open. -/
private theorem Builder.opened_of_handleAll {b b' : Builder} {ls : List Located}
    (hls : Delivers b.opened ls) (h : b.handleAll ls = .ok b') :
    b'.opened = openedAfterAll b.opened ls := by
  induction ls generalizing b with
  | nil =>
    cases h
    rfl
  | cons l ls ih =>
    rw [handleAll] at h
    cases hstep : b.handle l.event with
    | error f =>
      rw [hstep] at h
      cases h
    | ok b₁ =>
      rw [hstep] at h
      have hopened := (handle_eq_ok hls.1 hstep).2
      rw [ih (by rw [hopened]; exact hls.2) h, hopened]
      rfl

/-- A source is refused for the first fault of its events, or else for its ending. -/
theorem error?_ofReading (x : String) :
    error? (Document.ofReading x.utf8ByteSize (ofText x)) =
      (firstFaultOf (ofText x).events).or ((ofText x).ending.fault? x.utf8ByteSize) := by
  have hdelivers : Delivers Builder.empty.opened (ofText x).events := delivers_run [] 0 _
  have hall := Builder.error?_handleAll hdelivers
  rw [Document.ofReading, ← hall]
  cases hb : Builder.empty.handleAll (ofText x).events with
  | error p => rfl
  | ok b =>
    cases hend : (ofText x).ending with
    -- the place where the reading breaks off comes with its fault
    | broken f offset => rfl
    | complete opened =>
      -- the reader and the builder agree about what is open
      have hopened : opened = b.opened := by
        rw [Builder.opened_of_handleAll hdelivers hb]
        exact ending_run hend
      obtain ⟨stack, finished⟩ := b
      cases stack with
      | nil =>
        rw [hopened]
        rfl
      | cons e rest =>
        rw [hopened]
        rfl

/-- Parsing reports what building the document reports. -/
private theorem parse_of_error? {x : String} {f : Fault} {offset : Nat}
    (h : error? (Document.ofReading x.utf8ByteSize (ofText x)) = some (f, offset)) :
    Document.parse x = .error (.atOffset f x offset) := by
  rw [Document.parse, error_of_error? h]

/-- Parsing fails for the first fault of the events. -/
private theorem parse_of_firstFault {x : String} {f : Fault} {offset : Nat}
    (h : firstFaultOf (ofText x).events = some (f, offset)) :
    Document.parse x = .error (.atOffset f x offset) := by
  apply parse_of_error?
  rw [error?_ofReading, h, Option.some_or]

/-- If nothing is wrong with the events, parsing fails where the reading breaks off. -/
private theorem parse_of_broken {x : String} {f : Fault} {offset : Nat}
    (h : firstFaultOf (ofText x).events = none) (hend : (ofText x).ending = .broken f offset) :
    Document.parse x = .error (.atOffset f x offset) := by
  apply parse_of_error?
  rw [error?_ofReading, h, Option.none_or, hend, Ending.fault?]

/-! ## Both on one source -/

/-- Whether no tag in front of an offset has faulty attributes, and every style up to there can be
    decoded. -/
structure IsSoundUpTo (x : String) (offset : Nat) : Prop where
  attributes : ∀ l ∈ (ofText x).events, l.offset < offset → l.event.view.HasNoFault
  styles : ∀ l ∈ (ofText x).events, l.offset ≤ offset → l.event.view.HasSoundStyles

/-- The first fault of events is that of one of them, and every other faulty event stands behind
    that one. -/
private theorem firstFaultOf_eq_some {ls : List Located} {f : Fault} {offset : Nat}
    (hpairs : ls.Pairwise Located.Before) (h : firstFaultOf ls = some (f, offset)) :
    ∃ l ∈ ls, l.offset = offset ∧ l.event.view.firstFault? = some f ∧
      ∀ m ∈ ls, m.event.view.firstFault? ≠ none → m = l ∨ l.Before m := by
  obtain ⟨before, l, after, rfl, hl, hbefore⟩ := List.findSome?_eq_some_iff.1 h
  obtain ⟨f', hf', hp⟩ := Option.map_eq_some_iff.1 hl
  cases hp
  refine ⟨l, List.mem_append_right _ List.mem_cons_self, rfl, hf', ?_⟩
  intro m hm hfault
  rcases List.mem_append.1 hm with hm | hm
  · exact absurd (Option.map_eq_none_iff.1 (hbefore m hm)) hfault
  · rcases List.mem_cons.1 hm with rfl | hm
    · exact .inl rfl
    · exact .inr (List.rel_of_pairwise_cons (List.pairwise_append.1 hpairs).2.1 hm)

/-- Attributes that are faulty are found faulty by parsing: at their place or in front of it, and
    for what cleaning says if nothing else is wrong up to there. -/
private theorem parse_of_attributeFault {x : String} {l : Located} {g : AttributeFault}
    (hl : l ∈ (ofText x).events) (hg : l.event.view.attributeFault? = some g) :
    ∃ f offset, Document.parse x = .error (.atOffset f x offset) ∧ offset ≤ l.offset ∧
      (IsSoundUpTo x l.offset → f = .attribute g ∧ offset = l.offset) := by
  have hne := EventView.firstFault?_ne_none hg
  cases hfirst : firstFaultOf (ofText x).events with
  | none => exact absurd (Option.map_eq_none_iff.1 (List.findSome?_eq_none_iff.1 hfirst l hl)) hne
  | some p =>
    obtain ⟨f, offset⟩ := p
    obtain ⟨l', hl', rfl, hf, hothers⟩ := firstFaultOf_eq_some (offsets_run [] 0 _).2 hfirst
    refine ⟨f, l'.offset, parse_of_firstFault hfirst, ?_, ?_⟩
    · rcases hothers l hl hne with rfl | hbefore
      · exact Nat.le_refl _
      · exact Nat.le_of_lt hbefore.1
    · intro hsound
      rcases hothers l hl hne with rfl | hbefore
      · have hfault := EventView.firstFault?_of_attributeFault hg
          (hsound.styles l hl (Nat.le_refl _))
        exact ⟨Option.some.inj (hf.symm.trans hfault), rfl⟩
      · -- an event in front of the place has no fault
        have hnone := EventView.firstFault?_of_isSound (EventView.isSound_iff.2
          ⟨hsound.attributes l' hl' hbefore.1, hsound.styles l' hl' (Nat.le_of_lt hbefore.1)⟩)
        rw [hf] at hnone
        cases hnone

/-- Where the reading of a source breaks off, parsing stops at the latest, and for the same reason
    if nothing else is wrong up to there. -/
private theorem parse_of_ending {x : String} {f₀ : Fault} {offset₀ : Nat}
    (hend : (ofText x).ending = .broken f₀ offset₀) :
    ∃ f offset, Document.parse x = .error (.atOffset f x offset) ∧ offset ≤ offset₀ ∧
      (IsSoundUpTo x offset₀ → f = f₀ ∧ offset = offset₀) := by
  have hlast := (lt_of_broken hend).2
  cases hfirst : firstFaultOf (ofText x).events with
  | none => exact ⟨f₀, offset₀, parse_of_broken hfirst hend, Nat.le_refl _, fun _ => ⟨rfl, rfl⟩⟩
  | some p =>
    obtain ⟨f, offset⟩ := p
    obtain ⟨l, hl, rfl, hf, -⟩ := firstFaultOf_eq_some (offsets_run [] 0 _).2 hfirst
    refine ⟨f, l.offset, parse_of_firstFault hfirst, Nat.le_of_lt (hlast l hl), fun hsound => ?_⟩
    -- every event stands in front of the place
    have hnone := EventView.firstFault?_of_isSound (EventView.isSound_iff.2
      ⟨hsound.attributes l hl (hlast l hl), hsound.styles l hl (Nat.le_of_lt (hlast l hl))⟩)
    rw [hf] at hnone
    cases hnone

/-- What can be parsed can be cleaned. If cleaning fails, parsing fails at the same location or in
    front of it; and it fails with the very same error if no tag in front of the faulty construct
    has faulty attributes and every style up to there can be decoded. -/
theorem parse_of_clean (x : String) :
    ((∃ doc, Document.parse x = .ok doc) → ∃ c, clean x = .ok c) ∧
      ∀ e, clean x = .error e → ∃ f offset, (ofText x).kept = .error (f, offset) ∧
        e = .atOffset f x offset ∧ ∃ e', Document.parse x = .error e' ∧
          e'.location.NotAfter e.location ∧ (IsSoundUpTo x offset → e' = e) := by
  -- in terms of offsets, which the location of an error forgets
  have hboth : ∀ e, clean x = .error e → ∃ f offset, (ofText x).kept = .error (f, offset) ∧
      e = .atOffset f x offset ∧ ∃ f' offset', Document.parse x = .error (.atOffset f' x offset') ∧
        offset' ≤ offset ∧ (IsSoundUpTo x offset → f' = f ∧ offset' = offset) := by
    intro e hclean
    rw [clean] at hclean
    cases hkept : (ofText x).kept with
    | ok pieces =>
      rw [hkept] at hclean
      cases hclean
    | error p =>
      obtain ⟨f, offset⟩ := p
      rw [hkept] at hclean
      cases hclean
      refine ⟨f, offset, rfl, rfl, ?_⟩
      rw [Reading.kept] at hkept
      -- cleaning fails at a tag that would stay, or where the reading breaks off
      cases hkeep : keepAll .zero (ofText x).events with
      | error p =>
        rw [hkeep] at hkept
        cases hkept
        obtain ⟨l, hl, rfl, g, hg, rfl⟩ := keepAll_eq_error hkeep
        -- a tag that would stay has faulty attributes
        exact parse_of_attributeFault hl hg
      | ok pieces =>
        rw [hkeep] at hkept
        cases hend : (ofText x).ending with
        | complete opened =>
          rw [hend] at hkept
          cases hkept
        | broken f₀ offset₀ =>
          rw [hend] at hkept
          cases hkept
          exact parse_of_ending hend
  constructor
  · rintro ⟨doc, hdoc⟩
    cases hclean : clean x with
    | ok c => exact ⟨c, rfl⟩
    | error e =>
      obtain ⟨-, -, -, -, f', offset', hparse, -⟩ := hboth e hclean
      rw [hdoc] at hparse
      cases hparse
  · intro e hclean
    obtain ⟨f, offset, hkept, rfl, f', offset', hparse, hle, hsame⟩ := hboth e hclean
    refine ⟨f, offset, hkept, rfl, _, hparse, Location.ofOffset_mono x hle, fun hsound => ?_⟩
    obtain ⟨rfl, rfl⟩ := hsame hsound
    rfl

/-- A source with a style and a dropped element in front of a tag whose second attribute is
    faulty. -/
def lateAttributeSource : String :=
  "<svg style='fill:&#114;ed'><title>t</title>\n<g a='1' b=2/></svg>"

/-- Cleaning and parsing fail alike behind a style that can be decoded and an element that is
    dropped. -/
theorem parse_of_clean_lateAttributeSource :
    ∃ e, clean lateAttributeSource = .error e ∧ e.location = ⟨none, 2, 1⟩ ∧
      Document.parse lateAttributeSource = .error e := by
  have hclean : clean lateAttributeSource =
      .error (.parse (.attribute (.unquotedValue 10)) ⟨none, 2, 1⟩) :=
    error_of_error? (by decide +kernel)
  have hplace : (ofText lateAttributeSource).kept =
      .error (.attribute (.unquotedValue 10), 44) :=
    error_of_error? (by decide +kernel)
  -- the style in front can be decoded, and no tag in front is faulty
  have hsound : IsSoundUpTo lateAttributeSource 44 :=
    ⟨by decide +kernel, by decide +kernel⟩
  obtain ⟨f, offset, hkept, -, e', hparse, -, hsame⟩ :=
    (parse_of_clean lateAttributeSource).2 _ hclean
  rw [hplace] at hkept
  cases hkept
  rw [hsame hsound] at hparse
  exact ⟨_, hclean, rfl, hparse⟩

end IconCompiler.Markup
