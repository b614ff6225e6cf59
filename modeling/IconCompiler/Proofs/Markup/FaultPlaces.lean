import IconCompiler.Proofs.Markup.OpenElements
import IconCompiler.Proofs.Markup.Offsets

/-!
# Where faults are reported

A source is refused for its first event that is not sound, for the place where its reading breaks
off, or at its end for an element that is left open. Cleaning refuses a source at the first faulty
tag that would stay, or where its reading breaks off. What is wrong with a cleaned source is found
by parsing it, and is placed in the cleaned source. The wording of a fault tells the three kinds of
fault apart.

## Key results

- `ofReading_eq_error`: for what, and at which offset, a source is refused
- `place_of_ofReading_eq_error`: the place that a refused source is refused for
- `keepAll_eq_error`: at which offset cleaning fails
- `Breaks.isOfReading`, `Fault.front_entity`: the wordings of the three kinds of fault
-/

namespace IconCompiler.Markup

open EventView Reading

/-! ## The place of a fault -/

instance (l : AttributeList) : Decidable l.IsSound :=
  decidable_of_iff _ AttributeList.isSome_entries?_iff

instance : DecidablePred EventView.IsSound
  | .start _ attrs | .empty _ attrs => inferInstanceAs (Decidable attrs.IsSound)
  | .close _ | .text _ | .cdata _ | .comment _ | .instruction _ | .doctype _ => .isTrue trivial

/-- The byte offset at which a source is at fault, if it is: that of its first event that is not
    sound, or else the one at which its reading breaks off, or else its end. -/
def faultPlace (x : String) : Nat :=
  match (ofText x).events.find? fun l => ¬l.event.view.IsSound with
  | some l => l.offset
  | none =>
    match (ofText x).ending with
    | .broken _ offset => offset
    | .complete _ => x.utf8ByteSize

/-- What a source error says, without the place. -/
def SourceError.wording : SourceError → String
  | .parse fault _ => fault.message
  | .encoding fault _ => fault.message

/-! ## Faults of events -/

/-- Of attributes that are well formed, only an entity can be wrong. -/
private theorem insertAttributes_eq_error {attrs : Attributes} {items : List Attribute} {f : Fault}
    (h : insertAttributes attrs items = .error f) : ∃ g, f = .entity g := by
  induction items generalizing attrs with
  | nil => cases h
  | cons a items ih =>
    rw [insertAttributes] at h
    split at h
    · exact ih h
    · rename_i f' hvalue
      cases h
      -- only a style can be faulty, by an entity
      rw [Attribute.toValue] at hvalue
      split at hvalue
      · split at hvalue
        · cases hvalue
        · rename_i g _
          exact ⟨g, (Except.error.inj hvalue).symm⟩
      · cases hvalue

/-- What can be wrong with a tag: an entity in a style, or an attribute. -/
theorem Tag.readAttributes_eq_error {tag : Tag} {f : Fault} (h : tag.readAttributes = .error f) :
    (∃ g, f = .entity g) ∨ ∃ g, f = .attribute g ∧ tag.attributes.fault ≠ none := by
  rw [Tag.readAttributes] at h
  split at h
  · rename_i hinsert
    cases h
    exact .inl (insertAttributes_eq_error hinsert)
  · rename_i g _ hfault
    cases h
    exact .inr ⟨g, rfl, by simp [hfault]⟩
  · cases h

/-- Whether a fault is one of an event: an entity, or an attribute of a tag with faulty ones. -/
def Fault.IsOfEvent (f : Fault) (v : EventView) : Prop :=
  (∃ g, f = .entity g) ∨ ∃ g, f = .attribute g ∧ ¬v.HasNoFault

/-- An event that is refused is not sound, and is refused for a fault of its own. -/
theorem Builder.handle_eq_error {b : Builder} {e : Event} {f : Fault}
    (he : e.IsDelivered b.opened) (h : b.handle e = .error f) :
    ¬e.view.IsSound ∧ f.IsOfEvent e.view := by
  constructor
  · -- a refused event stands for no tokens, but a sound one does
    have hstep := b.toOption_handle e he
    rw [h] at hstep
    have hnone : tokensFrom? b.opened.length [e.view] = none := by
      simpa [Except.toOption] using hstep.symm
    intro hsound
    have hsome : (tokensFrom? b.opened.length [e.view]).isSome :=
      isSome_tokensFrom?_iff.2 (List.forall_mem_singleton.2 hsound)
    rw [hnone] at hsome
    cases hsome
  · cases e with
    | start tag | empty tag =>
      rw [handle] at h
      split at h
      · cases h
      · rename_i hread
        cases h
        exact tag.readAttributes_eq_error hread
    | close name =>
      obtain ⟨stack, finished⟩ := b
      cases stack with
      -- the reader closes only what is open
      | nil => exact absurd he.1 (by simp [opened])
      | cons e rest => cases h
    | text s =>
      rw [handle] at h
      split at h <;> cases h
    | cdata | comment | instruction | doctype => cases h

/-- An event that is taken is sound, and moves the open elements as it does for the reader. -/
theorem Builder.handle_eq_ok {b b' : Builder} {e : Event} (he : e.IsDelivered b.opened)
    (h : b.handle e = .ok b') : e.view.IsSound ∧ b'.opened = e.openedAfter b.opened := by
  have hstep := b.toOption_handle e he
  rw [h] at hstep
  cases hts : tokensFrom? b.opened.length [e.view] with
  | none => simp [hts, Except.toOption] at hstep
  | some ts =>
    simp only [hts, Except.toOption, Option.map_some, Option.some.injEq, Prod.mk.injEq] at hstep
    have hsome : (tokensFrom? b.opened.length [e.view]).isSome := by rw [hts]; rfl
    exact ⟨isSome_tokensFrom?_iff.1 hsome e.view List.mem_cons_self, hstep.1⟩

/-- Building a document fails at the first event that is not sound, if there is one. -/
private theorem Builder.handleAll_cases {b : Builder} {ls : List Located}
    (hls : Delivers b.opened ls) :
    ((∃ b', b.handleAll ls = .ok b') ∧ ∀ l ∈ ls, l.event.view.IsSound) ∨
      ∃ before l after f, ls = before ++ l :: after ∧ (∀ l' ∈ before, l'.event.view.IsSound) ∧
        ¬l.event.view.IsSound ∧ f.IsOfEvent l.event.view ∧
          b.handleAll ls = .error (f, l.offset) := by
  induction ls generalizing b with
  | nil => exact .inl ⟨⟨b, rfl⟩, List.forall_mem_nil _⟩
  | cons l ls ih =>
    rw [handleAll]
    cases h : b.handle l.event with
    | error f =>
      obtain ⟨hsound, hfault⟩ := handle_eq_error hls.1 h
      exact .inr ⟨[], l, ls, f, rfl, List.forall_mem_nil _, hsound, hfault, rfl⟩
    | ok b' =>
      obtain ⟨hsound, hopened⟩ := handle_eq_ok hls.1 h
      -- the rest is delivered to what the event left open
      rcases ih (b := b') (by rw [hopened]; exact hls.2) with
        ⟨hok, hall⟩ | ⟨before, l', after, f, rfl, hbefore, hl', hfault, herr⟩
      · exact .inl ⟨hok, List.forall_mem_cons.2 ⟨hsound, hall⟩⟩
      · exact .inr ⟨l :: before, l', after, f, rfl, List.forall_mem_cons.2 ⟨hsound, hbefore⟩, hl',
          hfault, herr⟩

/-- For what a source is refused: its first event that is not sound, the place where its reading
    breaks off, or an element that is left open at its end. -/
theorem ofReading_eq_error {x : String} {f : Fault} {offset : Nat}
    (h : Document.ofReading x.utf8ByteSize (ofText x) = .error (f, offset)) :
    (∃ before l after, (ofText x).events = before ++ l :: after ∧
      (∀ l' ∈ before, l'.event.view.IsSound) ∧ ¬l.event.view.IsSound ∧
        f.IsOfEvent l.event.view ∧ offset = l.offset) ∨
      (∀ l ∈ (ofText x).events, l.event.view.IsSound) ∧
        ((ofText x).ending = .broken f offset ∨
          ∃ opened, (ofText x).ending = .complete opened ∧ offset = x.utf8ByteSize) := by
  rw [Document.ofReading] at h
  -- a faulty event comes first, then the ending, then what is left open
  rcases Builder.handleAll_cases (b := .empty) (delivers_run [] 0 (dropByteOrderMark x.toList)) with
    ⟨⟨b, hok⟩, hall⟩ | ⟨before, l, after, f', hevents, hbefore, hl, hfault, herr⟩
  · refine .inr ⟨hall, ?_⟩
    rw [show Builder.empty.handleAll (ofText x).events = .ok b from hok] at h
    cases hend : (ofText x).ending with
    | broken f' offset' =>
      rw [hend] at h
      cases h
      exact .inl rfl
    | complete opened =>
      rw [hend] at h
      obtain ⟨stack, finished⟩ := b
      cases stack with
      | nil => cases h
      | cons e rest =>
        cases h
        exact .inr ⟨opened, rfl, rfl⟩
  · refine .inl ⟨before, l, after, hevents, hbefore, hl, ?_⟩
    rw [show Builder.empty.handleAll (ofText x).events = .error (f', l.offset) from herr] at h
    cases h
    exact ⟨hfault, rfl⟩

/-- A source that is refused is at fault at the place it is refused for. -/
theorem place_of_ofReading_eq_error {x : String} {f : Fault} {offset : Nat}
    (h : Document.ofReading x.utf8ByteSize (ofText x) = .error (f, offset)) :
    offset = faultPlace x := by
  rw [faultPlace]
  -- an event that is not sound comes first, and only then the ending
  rcases ofReading_eq_error h with
    ⟨before, l, after, hevents, hbefore, hl, -, rfl⟩ | ⟨hall, hend⟩
  · have hfind : (ofText x).events.find? (fun l => ¬l.event.view.IsSound) = some l := by
      rw [List.find?_eq_some_iff_append]
      exact ⟨by simpa using hl, before, after, hevents, by simpa using hbefore⟩
    rw [hfind]
  · have hfind : (ofText x).events.find? (fun l => ¬l.event.view.IsSound) = none := by
      rw [List.find?_eq_none]
      simpa using hall
    rw [hfind]
    rcases hend with hend | ⟨opened, hend, rfl⟩ <;> rw [hend]

/-- The error for a source is that of its place. -/
theorem parse_eq_error {x : String} {e : SourceError} (h : Document.parse x = .error e) :
    ∃ f, Document.ofReading x.utf8ByteSize (ofText x) = .error (f, faultPlace x) ∧
      e = .atOffset f x (faultPlace x) := by
  rw [Document.parse] at h
  split at h
  · cases h
  · rename_i f offset herr
    cases h
    obtain rfl := place_of_ofReading_eq_error herr
    exact ⟨f, herr, rfl⟩

/-! ## Faults of cleaning -/

/-- What is wrong with the attributes of an event, if anything is. -/
def EventView.attributeFault? : EventView → Option AttributeFault
  | .start _ attrs | .empty _ attrs => attrs.fault
  | _ => none

/-- An event has no fault if none is found in its attributes. -/
theorem EventView.hasNoFault_iff {v : EventView} : v.HasNoFault ↔ v.attributeFault? = none := by
  cases v with
  | start | empty => exact Iff.rfl
  | close | text | cdata | comment | instruction | doctype => exact ⟨fun _ => rfl, fun _ => trivial⟩

/-- Cleaning looks at the attributes of a tag that would stay, and at nothing else. -/
private theorem keepTag_eq_error {tag : Tag} {piece : List Attribute → Piece} {dropped : Bool}
    {f : Fault}
    (h : (if dropped then .ok none else tag.keptAttributes.map fun attrs => some (piece attrs)) =
      Except.error f) : ∃ g, tag.attributes.fault = some g ∧ f = .attribute g := by
  cases dropped with
  | true => cases h
  | false =>
    cases hfault : tag.attributes.fault with
    | none => simp [Tag.keptAttributes, hfault, Except.map] at h
    | some g =>
      simp only [Tag.keptAttributes, hfault, Bool.false_eq_true, if_false, Except.map] at h
      exact ⟨g, rfl, (Except.error.inj h).symm⟩

/-- Cleaning fails on an event for what is wrong with its attributes. -/
private theorem keep_eq_error {d : Depths} {e : Event} {f : Fault} (h : keep d e = .error f) :
    ∃ g, e.view.attributeFault? = some g ∧ f = .attribute g := by
  cases e with
  | start tag | empty tag => exact keepTag_eq_error h
  | close | text | cdata | comment | instruction | doctype => cases h

/-- Cleaning fails at a tag with faulty attributes, for what is wrong with them. -/
theorem keepAll_eq_error {d : Depths} {ls : List Located} {f : Fault} {offset : Nat}
    (h : keepAll d ls = .error (f, offset)) :
    ∃ l ∈ ls, l.offset = offset ∧
      ∃ g, l.event.view.attributeFault? = some g ∧ f = .attribute g := by
  induction ls generalizing d with
  | nil => cases h
  -- the first event that fails is the one that is reported
  | cons l ls ih =>
    rw [keepAll] at h
    cases hkeep : keep d l.event with
    | error f' =>
      rw [hkeep] at h
      cases h
      exact ⟨l, List.mem_cons_self, rfl, keep_eq_error hkeep⟩
    | ok piece? =>
      -- the event stays, or is dropped, so one behind it is faulty
      rw [hkeep] at h
      cases hrest : keepAll (d.after l.event) ls with
      | ok rest =>
        simp only [hrest, Except.map] at h
        cases h
      | error p =>
        simp only [hrest, Except.map] at h
        cases h
        obtain ⟨l', hl', hplace⟩ := ih hrest
        exact ⟨l', List.mem_cons_of_mem _ hl', hplace⟩

/-! ## Wordings -/

/-- The first characters of the wording, which tell the kinds of faults apart. -/
def Fault.front (f : Fault) : List Char :=
  f.message.toList.take 2

theorem take_two_append {s : String} {c d : Char} (h : s.toList.take 2 = [c, d]) (t : String) :
    (s ++ t).toList.take 2 = [c, d] := by
  have hlength := congrArg List.length h
  rw [List.length_take, List.length_cons, List.length_singleton] at hlength
  rw [String.toList_append, List.take_append_of_le_length (by omega), h]

/-- What is wrong with an attribute is worded by its position. -/
theorem Fault.front_attribute (g : AttributeFault) : (Fault.attribute g).front = ['p', 'o'] := by
  have hfront : ("position ").toList.take 2 = ['p', 'o'] := rfl
  cases g with
  | missingEquals | missingValue | unquotedValue =>
    exact take_two_append (take_two_append hfront _) _
  | duplicate => exact take_two_append (take_two_append (take_two_append hfront _) _) _
  | missingQuote =>
    exact take_two_append (take_two_append (take_two_append (take_two_append hfront _) _) _) _

/-- What is wrong with an entity is worded in one of three ways. -/
theorem Fault.front_entity (g : EntityFault) :
    (Fault.entity g).front = ['E', 'r'] ∨ (Fault.entity g).front = ['a', 't'] ∨
      (Fault.entity g).front = ['i', 'n'] := by
  cases g with
  | unterminated =>
    have hfront : ("Error while escaping character at range ").toList.take 2 = ['E', 'r'] := rfl
    refine .inl ?_
    exact take_two_append (take_two_append (take_two_append (take_two_append hfront _) _) _) _
  | unrecognized =>
    have hfront : ("at ").toList.take 2 = ['a', 't'] := rfl
    refine .inr (.inl ?_)
    exact take_two_append (take_two_append (take_two_append (take_two_append
      (take_two_append (take_two_append hfront _) _) _) _) _) _
  | reference fault =>
    have hfront : ("invalid character reference: ").toList.take 2 = ['i', 'n'] := rfl
    exact .inr (.inr (take_two_append hfront _))

/-- Whether a fault is one of the syntax, or of a document that is not well formed. -/
def Fault.IsOfReading (f : Fault) : Prop :=
  f.front = ['s', 'y'] ∨ f.front = ['i', 'l']

/-- A closing tag that does not fit is refused for a document that is not well formed. -/
private theorem closeFault?_isOfReading {opened : List String} {name : String} {f : Fault}
    (h : closeFault? opened name = some f) : f.IsOfReading := by
  have hfront : ("ill-formed document: expected `</").toList.take 2 = ['i', 'l'] ∧
      ("ill-formed document: close tag `</").toList.take 2 = ['i', 'l'] := ⟨rfl, rfl⟩
  unfold closeFault? at h
  split at h
  · cases h
    exact .inr (take_two_append (take_two_append hfront.2 _) _)
  · split at h
    · cases h
    · cases h
      exact .inr (take_two_append (take_two_append (take_two_append
        (take_two_append hfront.1 _) _) _) _)

/-- A construct cannot be read for the syntax or for a document that is not well formed. -/
theorem Breaks.isOfReading {opened : List String} {cs : List Char} {f : Fault} {shift : Nat}
    (h : Breaks opened cs f shift) : f.IsOfReading := by
  cases h with
  | tag | unknown | comment | cdata | doctype | instruction => exact .inl rfl
  | close fault => exact closeFault?_isOfReading fault
  | nameless => exact .inr rfl

/-- A reading breaks off for the syntax or for a document that is not well formed. -/
theorem isOfReading_of_ending {opened : List String} {pos : Nat} {cs : List Char} {f : Fault}
    {offset : Nat} (h : (run opened pos cs).ending = .broken f offset) : f.IsOfReading := by
  -- to the construct at which the reading breaks off
  fun_induction run opened pos cs with
  | case1 => cases h
  | case2 opened pos rest f' shift hscan =>
    cases h
    exact (breaks_of_scanMarkup hscan).isOfReading
  | case3 opened pos rest e size rest' hscan _ ih => exact ih h
  | case4 opened pos c rest hc text _ ih => exact ih h

/-- No fault of an event is worded as one of a reading. -/
theorem Fault.IsOfEvent.not_isOfReading {f : Fault} {v : EventView} (h : f.IsOfEvent v) :
    ¬f.IsOfReading := by
  rintro hreading
  rcases h with ⟨g, rfl⟩ | ⟨g, rfl, -⟩
  · rcases front_entity g with hg | hg | hg <;> rw [IsOfReading, hg] at hreading <;>
      revert hreading <;> decide
  · rw [IsOfReading, front_attribute] at hreading
    revert hreading
    decide

end IconCompiler.Markup
