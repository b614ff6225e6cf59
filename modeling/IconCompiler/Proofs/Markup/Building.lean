import IconCompiler.Proofs.Markup.Delivery
import IconCompiler.Proofs.Markup.Token
import IconCompiler.Proofs.Outcome

/-!
# Building documents

A document under construction stands for tokens, too: those of the finished nodes, and of the open
elements from the outermost to the innermost, whose ends are still missing. Every event that is
handled adds the tokens that it stands for at the end, so the finished document is the events of
its source, with nothing lost, added or put elsewhere.

## Key results

- `toOption_handle`: what one event does to a document under construction
- `toOption_handleAll`: what all events of a reading do to it
- `parse_eq_ok_iff`: a document is that of a source exactly if the source is complete and stands for
  its tokens
- `tokens_parse`: parsing keeps the events of a source, and fails only on faulty sources
-/

namespace IconCompiler.Markup

open EventView

/-! ## Attributes -/

/-- Attributes with distinct new keys are inserted one behind the other. -/
private theorem toOption_insertAttributes (attrs : Attributes) (items : List Attribute)
    (hnodup : (items.map (·.key)).Nodup) (hfresh : ∀ a ∈ items, a.key ∉ attrs.keys) :
    (insertAttributes attrs items).toOption.map (·.entries) =
      (items.mapM Attribute.entry?).map (attrs.entries ++ ·) := by
  -- over the attributes, for every map: the ones that follow are new to the larger map, too
  induction items generalizing attrs with
  | nil => simp [insertAttributes, Except.toOption]
  | cons a items ih =>
    rw [List.map_cons, List.nodup_cons] at hnodup
    have hvalue : a.entry? = a.toValue.toOption.map fun v => (a.key, v) := by
      unfold Attribute.entry? Attribute.toValue
      split
      · rename_i hstyle
        rw [hstyle]
        cases decodeEntities a.value <;> rfl
      · rfl
    rw [insertAttributes, List.mapM_cons, hvalue]
    cases a.toValue with
    | error f => rfl
    | ok v =>
      have hkey : a.key ∉ attrs.keys := hfresh a List.mem_cons_self
      have hentries : (attrs.insert a.key v).entries = attrs.entries ++ [(a.key, v)] :=
        OrderedMap.entries_insert_of_not_mem v hkey
      -- the other keys are not the one that was inserted
      have hfresh' : ∀ b ∈ items, b.key ∉ (attrs.insert a.key v).keys := by
        intro b hb
        rw [OrderedMap.keys_insert, if_neg hkey, List.mem_append, List.mem_singleton, not_or]
        have hne : b.key ≠ a.key := fun h => hnodup.1 (h ▸ List.mem_map_of_mem hb)
        exact ⟨hfresh b (List.mem_cons_of_mem _ hb), hne⟩
      show (insertAttributes (attrs.insert a.key v) items).toOption.map (·.entries) = _
      rw [ih _ hnodup.2 hfresh', hentries]
      cases items.mapM Attribute.entry? <;> simp [Except.toOption]

/-- The keys of the attributes of a tag are distinct. -/
private theorem Tag.nodup_keys_attributes (tag : Tag) :
    (tag.attributes.items.map (·.key)).Nodup := by
  have h := tag.areWritable_attributes.distinct
  rw [List.Nodup, List.pairwise_map] at h ⊢
  exact h.imp fun hne hkey => hne (by rw [hkey])

/-- The attributes of a tag are the entries that they stand for, or they are faulty. -/
private theorem Tag.toOption_readAttributes (tag : Tag) :
    tag.readAttributes.toOption.map (·.entries) = tag.attributes.entries? := by
  have hinsert := toOption_insertAttributes .empty tag.attributes.items tag.nodup_keys_attributes
    (fun a _ => List.not_mem_nil)
  have hempty : (OrderedMap.empty : Attributes).entries = [] := rfl
  rw [hempty] at hinsert
  simp only [List.nil_append, Option.map_id'] at hinsert
  rw [Tag.readAttributes, AttributeList.entries?, ← hinsert]
  cases insertAttributes .empty tag.attributes.items with
  | error f => simp [Except.toOption]
  | ok attrs => cases tag.attributes.fault <;> simp [Except.toOption]

/-! ## Documents under construction -/

/-- The open names after events, the innermost first. -/
def openedAfterAll (opened : List String) (ls : List Located) : List String :=
  ls.foldl (fun opened l => l.event.openedAfter opened) opened

/-- An open element from left to right, without its end. -/
def OpenElement.tokens (e : OpenElement) : List Token :=
  .start e.tag e.attrs.entries :: nodesTokens e.children.reverse

namespace Builder

/-- The names of the open elements, the innermost first. -/
def opened (b : Builder) : List String :=
  b.stack.map (·.tag)

/-- What is built so far, from left to right. -/
def tokens (b : Builder) : List Token :=
  nodesTokens b.finished.reverse ++ b.stack.reverse.flatMap OpenElement.tokens

/-- A node that is attached opens and closes nothing. -/
private theorem opened_attach (b : Builder) (n : Node) : (b.attach n).opened = b.opened := by
  obtain ⟨stack, finished⟩ := b
  cases stack <;> rfl

/-- A node is attached behind everything else. -/
private theorem tokens_attach (b : Builder) (n : Node) :
    (b.attach n).tokens = b.tokens ++ n.tokens := by
  obtain ⟨stack, finished⟩ := b
  cases stack with
  | nil => simp [attach, tokens, nodesTokens_append, nodesTokens]
  | cons e rest =>
    simp [attach, tokens, OpenElement.tokens, nodesTokens_append, nodesTokens]

/-- What one event does: it adds the tokens that it stands for and moves the open elements, unless
    it is faulty. -/
theorem toOption_handle (b : Builder) (e : Event) (he : e.IsDelivered b.opened) :
    (b.handle e).toOption.map (fun b' => (b'.opened, b'.tokens)) =
      (tokensFrom? b.opened.length [e.view]).map fun ts =>
        (e.openedAfter b.opened, b.tokens ++ ts) := by
  cases e with
  | start tag =>
    rw [tokensFrom?_of_kept rfl rfl, Event.view, EventView.tokens?, ← tag.toOption_readAttributes,
      handle]
    cases tag.readAttributes with
    | error f => rfl
    | ok attrs =>
      simp [Except.toOption, opened, tokens, OpenElement.tokens, nodesTokens, Event.openedAfter]
  | empty tag =>
    rw [tokensFrom?_of_kept rfl rfl, Event.view, EventView.tokens?, ← tag.toOption_readAttributes,
      handle]
    cases tag.readAttributes with
    | error f => rfl
    | ok attrs =>
      simp [Except.toOption, opened_attach, tokens_attach, Node.tokens, nodesTokens,
        Event.openedAfter]
  | close name =>
    obtain ⟨stack, finished⟩ := b
    cases stack with
    | nil => exact absurd he.1 (by simp [opened])
    | cons e rest =>
      -- the innermost open element is the one that ends
      have hname : e.tag = name := by simpa [opened] using he.1
      have htokens := tokens_attach ⟨rest, finished⟩ (.element e.tag e.attrs e.children.reverse)
      rw [tokensFrom?_of_kept rfl rfl, Event.view, EventView.tokens?, handle]
      simp only [Except.toOption, Option.map_some, opened_attach, htokens]
      simp [opened, tokens, OpenElement.tokens, Node.tokens, Event.openedAfter, hname]
  | text s =>
    have hempty : b.stack.isEmpty = decide (b.opened.length = 0) := by
      cases hstack : b.stack <;> simp [opened, hstack]
    rw [tokensFrom?_singleton, handle, hempty]
    simp only [Event.view, isAside, isOuterBlank, Bool.false_or]
    split
    · simp [Except.toOption, Event.openedAfter]
    · simp [Except.toOption, opened_attach, tokens_attach, Node.tokens, EventView.tokens?,
        Event.openedAfter]
  | cdata s =>
    rw [tokensFrom?_of_kept rfl rfl, handle]
    simp [Event.view, EventView.tokens?, Except.toOption, opened_attach, tokens_attach, Node.tokens,
      Event.openedAfter]
  | comment s | instruction s | doctype s =>
    rw [tokensFrom?_singleton, handle]
    simp [Event.view, isAside, Except.toOption, Event.openedAfter]

/-- How many elements are open after an event can be told from its view. -/
theorem length_openedAfter (opened : List String) (e : Event) :
    (e.openedAfter opened).length = e.view.depthAfter opened.length := by
  cases e <;> simp [Event.openedAfter, Event.view, depthAfter]

/-- What all events do: they add the tokens that they stand for, unless one is faulty. -/
theorem toOption_handleAll (b : Builder) (ls : List Located) (hls : Delivers b.opened ls) :
    (b.handleAll ls).toOption.map (fun b' => (b'.opened, b'.tokens)) =
      (tokensFrom? b.opened.length (ls.map fun l => l.event.view)).map fun ts =>
        (openedAfterAll b.opened ls, b.tokens ++ ts) := by
  -- over the events, for every document under construction: a step finds open what the one before
  -- left open
  induction ls generalizing b with
  | nil => simp [handleAll, tokensFrom?_nil, Except.toOption, openedAfterAll]
  | cons l ls ih =>
    have hstep := b.toOption_handle l.event hls.1
    rw [handleAll, List.map_cons, tokensFrom?_cons, ← length_openedAfter]
    cases hts : tokensFrom? b.opened.length [l.event.view] with
    | none =>
      -- the event is faulty
      cases hb : b.handle l.event with
      | error f => rfl
      | ok b' => simp [hb, hts, Except.toOption] at hstep
    | some ts =>
      cases hb : b.handle l.event with
      | error f => simp [hb, hts, Except.toOption] at hstep
      | ok b' =>
        simp only [hb, hts, Except.toOption, Option.map_some, Option.some.injEq,
          Prod.mk.injEq] at hstep
        obtain ⟨hopened, htokens⟩ := hstep
        have hrest := ih b' (by rw [hopened]; exact hls.2)
        rw [hopened, htokens] at hrest
        simp only [Option.bind_some, Option.map_map]
        rw [hrest]
        simp [openedAfterAll, Function.comp_def]

end Builder

/-- What is open at the end of a complete reading is what its events leave open. -/
theorem ending_run {opened opened' : List String} {pos : Nat} {cs : List Char}
    (h : (Reading.run opened pos cs).ending = .complete opened') :
    opened' = openedAfterAll opened (Reading.run opened pos cs).events := by
  -- over the events, each of which moves the open names of both alike
  fun_induction Reading.run opened pos cs with
  | case1 =>
    cases h
    rfl
  | case2 => cases h
  | case3 opened pos rest e size rest' hscan _ ih => exact ih h
  | case4 opened pos c rest hc text _ ih => exact ih h

/-! ## Documents -/

/-- The document of a source stands for the tokens of its events. There is none if the source breaks
    off, leaves an element open, or holds an event that stands for nothing. -/
private theorem toOption_parse (x : String) :
    (Document.parse x).toOption.map Document.tokens =
      if (Reading.ofText x).ending = .complete [] then sourceTokens? x else none := by
  have hall := Builder.toOption_handleAll .empty (Reading.ofText x).events (delivers_run [] 0 _)
  -- nothing is open and nothing built at the start
  have hempty : Builder.empty.opened = [] := rfl
  have hnil : Builder.empty.tokens = [] := rfl
  rw [hempty, hnil, List.length_nil] at hall
  rw [sourceTokens?, Reading.views, Document.parse, Document.ofReading]
  cases hb : Builder.empty.handleAll (Reading.ofText x).events with
  | error e =>
    -- a faulty event stands for nothing
    rw [hb] at hall
    have hnone : tokensFrom? 0 ((Reading.ofText x).events.map fun l => l.event.view) = none := by
      simpa [Except.toOption] using hall.symm
    rw [hnone, ite_self]
    rfl
  | ok b =>
    rw [hb] at hall
    cases hts : tokensFrom? 0 ((Reading.ofText x).events.map fun l => l.event.view) with
    | none => simp [hts, Except.toOption] at hall
    | some ts =>
      simp only [hts, Except.toOption, Option.map_some, List.nil_append, Option.some.injEq,
        Prod.mk.injEq] at hall
      obtain ⟨hopened, htokens⟩ := hall
      cases hend : (Reading.ofText x).ending with
      | broken f offset => simp [Except.toOption]
      | complete opened =>
        -- what the reader leaves open is what the builder leaves open
        have hopened' : opened = b.opened := by rw [hopened, @ending_run [] opened 0 _ hend]; rfl
        cases hstack : b.stack with
        | cons e rest => simp [hopened', Builder.opened, hstack, Except.toOption]
        | nil =>
          -- with nothing open, what is built is the finished nodes
          have hts' : ts = nodesTokens b.finished.reverse := by
            rw [← htokens]
            simp [Builder.tokens, hstack]
          simp [hopened', Builder.opened, hstack, Except.toOption, Document.tokens, hts']

/-- A document is told by its tokens. -/
private theorem Document.tokens_inj {doc doc' : Document} (h : doc.tokens = doc'.tokens) :
    doc = doc' := by
  cases doc
  cases doc'
  exact congrArg Document.mk (nodesTokens_inj h)

/-- A document is that of a source exactly if the source is complete, with no element open, and
    stands for the tokens of the document. -/
theorem parse_eq_ok_iff {x : String} {doc : Document} :
    Document.parse x = .ok doc ↔
      (Reading.ofText x).ending = .complete [] ∧ sourceTokens? x = some doc.tokens := by
  have hparse := toOption_parse x
  constructor
  · intro h
    rw [h] at hparse
    split at hparse
    · exact ⟨by assumption, hparse.symm⟩
    · cases hparse
  · intro h
    rw [if_pos h.1, h.2] at hparse
    obtain ⟨doc', hdoc, htokens⟩ := Option.map_eq_some_iff.1 hparse
    rw [ok_of_toOption hdoc, Document.tokens_inj htokens]

/-- The entries of the elements of a document are those of attributes in its source. -/
theorem exists_attribute_of_mem_tokens {x : String} {doc : Document}
    (h : Document.parse x = .ok doc) {tag : String} {attrs : List (String × AttrValue)}
    (ht : .start tag attrs ∈ doc.tokens) {e : String × AttrValue} (he : e ∈ attrs) :
    ∃ a : Attribute, a.entry? = some e := by
  -- the start comes from an event, and its entries from the attributes of that
  obtain ⟨v, -, us, hv, hus⟩ := exists_of_mem_tokensFrom? (parse_eq_ok_iff.1 h).2 ht
  obtain ⟨l, -, hl⟩ := EventView.exists_of_start_mem_tokens? hv hus
  obtain ⟨a, -, ha⟩ := AttributeList.exists_of_mem_entries? hl he
  exact ⟨a, ha⟩

/-! ## Sound sources -/

/-- Whether attributes are well formed and distinct, and every style among them can be decoded. -/
def AttributeList.IsSound (l : AttributeList) : Prop :=
  l.fault = none ∧ ∀ a ∈ l.items, a.key = "style" → ∃ s, decodeEntities a.value = .ok s

/-- Whether the attributes of an event are sound. -/
def EventView.IsSound : EventView → Prop
  | .start _ attrs | .empty _ attrs => attrs.IsSound
  | _ => True

/-- An attribute has an entry unless it is a style that cannot be decoded. -/
theorem Attribute.isSome_entry?_iff {a : Attribute} :
    a.entry?.isSome ↔ (a.key = "style" → ∃ s, decodeEntities a.value = .ok s) := by
  rw [Attribute.entry?]
  split
  · rename_i hstyle
    cases decodeEntities a.value <;> simp [hstyle, Except.toOption]
  · rename_i hstyle
    simp [hstyle]

/-- Attributes have entries exactly if they are sound. -/
theorem AttributeList.isSome_entries?_iff {l : AttributeList} :
    l.entries?.isSome ↔ l.IsSound := by
  have hitems : ∀ items : List Attribute, (items.mapM Attribute.entry?).isSome ↔
      ∀ a ∈ items, a.entry?.isSome := by
    intro items
    induction items with
    | nil => simp
    | cons a items ih =>
      rw [List.forall_mem_cons, ← ih, List.mapM_cons]
      cases a.entry? <;> cases items.mapM Attribute.entry? <;> simp
  -- faulty attributes have no entries, whatever was read in front of the fault
  rw [AttributeList.entries?, AttributeList.IsSound]
  split
  · rename_i hfault
    simp only [hitems, hfault, true_and, Attribute.isSome_entry?_iff]
  · rename_i hfault
    simp [hfault]

/-- Events stand for tokens exactly if all of them are sound. -/
theorem isSome_tokensFrom?_iff {depth : Nat} {vs : List EventView} :
    (tokensFrom? depth vs).isSome ↔ ∀ v ∈ vs, v.IsSound := by
  induction vs generalizing depth with
  | nil => simp [tokensFrom?_nil]
  | cons v vs ih =>
    have hv : (tokensFrom? depth [v]).isSome ↔ v.IsSound := by
      rw [tokensFrom?_singleton]
      cases v with
      | start tag attrs | empty tag attrs =>
        simp [isAside, isOuterBlank, EventView.tokens?, EventView.IsSound,
          AttributeList.isSome_entries?_iff]
      | text s => split <;> simp [EventView.tokens?, EventView.IsSound]
      | close | cdata | comment | instruction | doctype =>
        simp [isAside, isOuterBlank, EventView.tokens?, EventView.IsSound]
    rw [List.forall_mem_cons, ← hv, ← @ih (v.depthAfter depth), tokensFrom?_cons]
    cases tokensFrom? depth [v] <;> cases tokensFrom? (v.depthAfter depth) vs <;> simp

/-- Parsing keeps the events of a source: read from left to right, the document is the elements and
    texts of the source in their order, and every start has one entry for each attribute of its tag.
    Parsing fails only on a source that breaks off, leaves an element open or has attributes that
    are not sound. -/
theorem tokens_parse (x : String) :
    (∀ doc, Document.parse x = .ok doc → sourceTokens? x = some doc.tokens) ∧
      ((∃ doc, Document.parse x = .ok doc) ↔
        (Reading.ofText x).ending = .complete [] ∧
          ∀ v ∈ (Reading.ofText x).views, v.IsSound) := by
  have hparse := toOption_parse x
  refine ⟨fun doc h => (parse_eq_ok_iff.1 h).2, ?_⟩
  -- the events are sound exactly if they stand for tokens
  rw [← isSome_tokensFrom?_iff, ← sourceTokens?]
  constructor
  · intro h
    obtain ⟨doc, h⟩ := h
    obtain ⟨hending, htokens⟩ := parse_eq_ok_iff.1 h
    exact ⟨hending, by rw [htokens]; rfl⟩
  · intro h
    obtain ⟨hending, htokens⟩ := h
    obtain ⟨ts, hts⟩ := Option.isSome_iff_exists.1 htokens
    rw [if_pos hending, hts] at hparse
    obtain ⟨doc, hdoc, -⟩ := Option.map_eq_some_iff.1 hparse
    exact ⟨doc, ok_of_toOption hdoc⟩

/-- A source with a declaration, blank texts, a style whose entities have to be decoded, a comment
    between two texts, a section and an empty element. -/
def layeredSource : String :=
  "<?xml?> <svg a='1' style=\"fill:&#114;ed\">\n<!-- c -->x<![CDATA[<]]><g/></svg>\n"

/-- The blank text in front of the root element is left out, the one inside it stays, and the texts
    on both sides of a section are apart. -/
theorem tokens_parse_layeredSource :
    ∃ doc, Document.parse layeredSource = .ok doc ∧ doc.tokens =
      [.start "svg" [("a", .text "1"), ("style", .style (Style.read "fill:red"))], .text "\n",
        .text "x", .text "<", .start "g" [], .stop "g", .stop "svg"] := by
  have hviews : (Reading.ofText layeredSource).views =
      [.instruction "xml", .text " ",
        .start "svg" ⟨[⟨"a", "1"⟩, ⟨"style", "fill:&#114;ed"⟩], none⟩, .text "\n", .comment " c ",
        .text "x", .cdata "<", .empty "g" .nil, .close "svg", .text "\n"] := by
    decide +kernel
  have hending : (Reading.ofText layeredSource).ending = .complete [] := by decide +kernel
  -- the style is decoded before it is read
  have hstyle : decodeEntities "fill:&#114;ed" = .ok "fill:red" :=
    ok_of_toOption (by decide +kernel)
  have hsound : ∀ v ∈ (Reading.ofText layeredSource).views, v.IsSound := by
    rw [hviews]
    simp [EventView.IsSound, AttributeList.IsSound, AttributeList.nil, hstyle]
  obtain ⟨doc, hdoc⟩ := (tokens_parse layeredSource).2.2 ⟨hending, hsound⟩
  have htokens := (tokens_parse layeredSource).1 doc hdoc
  have hsource : sourceTokens? layeredSource = some
      [.start "svg" [("a", .text "1"), ("style", .style (Style.read "fill:red"))], .text "\n",
        .text "x", .text "<", .start "g" [], .stop "g", .stop "svg"] := by
    decide +kernel
  exact ⟨doc, hdoc, Option.some.inj (htokens.symm.trans hsource)⟩

end IconCompiler.Markup
