import IconCompiler.Proofs.Location
import IconCompiler.Proofs.Markup.AttributeText
import IconCompiler.Proofs.Markup.EventView

/-!
# What the reader delivers

The equations of `Reading.run`, one for each thing that can stand at the front of a text, and what
holds of every event that it delivers: names without space, closing tags that close the innermost
open name, texts up to the next angle bracket, and sections that are read again as they are.

## Key results

- `run_append_text`: a text in front joins the text that follows it
- `delivers_run`: every event of a reading is one that the reader can deliver at its place
-/

namespace IconCompiler.Markup

/-- Whether a text can be the name of a tag: no space, and no character in front that makes the tag
    something else. -/
structure IsTagName (name : String) : Prop where
  no_space : ∀ c ∈ name.toList, isMarkupSpace c = false
  front : ∀ c ∈ name.toList.head?, opensTag c

/-- Whether the reader can deliver an event while the elements `opened` are open. -/
def Event.IsDelivered (opened : List String) : Event → Prop
  | .start tag | .empty tag => IsTagName tag.name
  | .close name => opened.head? = some name ∧ isClosed none name.toList = true
  | .text s => s.toList ≠ [] ∧ '<' ∉ s.toList
  | .cdata s =>
    ∀ rest, cutAt cdataEnd (s.toList ++ cdataEnd ++ rest) = some (s.toList, rest)
  | .comment _ | .instruction _ | .doctype _ => True

/-- Whether the reader can deliver events one after another, with `opened` open at the first. -/
def Delivers : (opened : List String) → List Located → Prop
  | _, [] => True
  | opened, l :: ls => l.event.IsDelivered opened ∧ Delivers (l.event.openedAfter opened) ls

/-! ## The equations of a reading -/

namespace Reading

/-- At the end of a text the reading is complete. -/
theorem run_nil (opened : List String) (pos : Nat) :
    run opened pos [] = ⟨[], .complete opened⟩ := by
  rw [run]

/-- A construct is delivered, and the reading goes on behind it. -/
theorem run_event {opened : List String} {pos size : Nat} {cs rest : List Char} {e : Event}
    (h : scanMarkup opened cs = .event e size rest) :
    run opened pos ('<' :: cs) = .cons pos e (run (e.openedAfter opened) (pos + size) rest) := by
  rw [run, if_pos rfl]
  split <;> simp_all

/-- A construct that breaks off ends the reading. -/
theorem run_fault {opened : List String} {pos shift : Nat} {cs : List Char} {f : Fault}
    (h : scanMarkup opened cs = .fault f shift) :
    run opened pos ('<' :: cs) = ⟨[], .broken f (pos + shift)⟩ := by
  rw [run, if_pos rfl]
  split <;> simp_all

/-- A text is read up to the next angle bracket. -/
theorem run_text {opened : List String} {pos : Nat} {c : Char} {cs : List Char} (hc : c ≠ '<') :
    run opened pos (c :: cs) =
      .cons pos (.text (String.ofList (c :: cs.takeWhile (· ≠ '<'))))
        (run opened (pos + byteLength (c :: cs.takeWhile (· ≠ '<'))) (cs.dropWhile (· ≠ '<'))) := by
  rw [run, if_neg hc]

/-- Without a byte order mark nothing is dropped. -/
theorem dropByteOrderMark_eq_self {cs : List Char} (h : '\uFEFF' ∉ cs.head?) :
    dropByteOrderMark cs = cs := by
  cases cs with
  | nil => rfl
  | cons c cs =>
    rw [dropByteOrderMark, if_neg]
    rintro rfl
    exact h rfl

/-- What a text shows, and whether it is complete, does not depend on where it stands. -/
theorem run_shift (opened : List String) (pos pos' : Nat) (cs : List Char) :
    (run opened pos cs).views = (run opened pos' cs).views ∧
      ∀ names, (run opened pos cs).ending = .complete names ↔
        (run opened pos' cs).ending = .complete names := by
  -- only offsets are counted from the position
  fun_induction run opened pos cs generalizing pos' with
  | case1 opened pos => simp [run_nil, Reading.views]
  | case2 opened pos rest f shift h => simp [run_fault h, Reading.views]
  | case3 opened pos rest e size rest' h _ ih =>
    obtain ⟨hviews, hending⟩ := ih (pos' + size)
    rw [run_event h]
    refine ⟨?_, hending⟩
    show e.view :: _ = e.view :: _
    exact congrArg (e.view :: ·) hviews
  | case4 opened pos c rest hc text _ ih =>
    obtain ⟨hviews, hending⟩ := ih (pos' + byteLength text)
    rw [run_text hc]
    refine ⟨?_, hending⟩
    show EventView.text _ :: _ = EventView.text _ :: _
    exact congrArg (EventView.text (String.ofList text) :: ·) hviews

/-! ## Texts -/

/-- Behind an angle bracket stands no text. -/
private theorem views_run_lt (opened : List String) (pos : Nat) (cs : List Char) (s : String)
    (vs : List EventView) : (run opened pos ('<' :: cs)).views ≠ .text s :: vs := by
  cases h : scanMarkup opened cs with
  | fault f shift =>
    rw [run_fault h]
    exact (List.cons_ne_nil _ _).symm
  | event e size rest =>
    rw [run_event h]
    intro hv
    -- a construct is never a text
    have he : e.view = .text s := (List.cons.inj hv).1
    cases scans_of_scanMarkup h with
    | tag =>
      rw [tagEvent] at he
      split at he <;> cases he
    | close | cdata | comment | instruction | doctype => cases he

/-- A reading that does not start in a text delivers no text first. -/
theorem views_run_ne_text {cs : List Char} (h : ∀ c ∈ cs.head?, c = '<') (opened : List String)
    (pos : Nat) (s : String) (vs : List EventView) : (run opened pos cs).views ≠ .text s :: vs := by
  cases cs with
  | nil => simp [run_nil, Reading.views]
  | cons c cs =>
    rw [h c rfl]
    exact views_run_lt opened pos cs s vs

/-- A text in front joins the text that follows it. -/
theorem run_append_text {s : List Char} (hs : s ≠ []) (hlt : '<' ∉ s) (opened : List String)
    (pos : Nat) (cs : List Char) :
    (run opened pos (s ++ cs)).views =
        EventView.consText (String.ofList s) (run opened (pos + byteLength s) cs).views ∧
      (run opened pos (s ++ cs)).ending = (run opened (pos + byteLength s) cs).ending := by
  obtain ⟨c, s, rfl⟩ := List.exists_cons_of_ne_nil hs
  rw [List.mem_cons, not_or] at hlt
  have htake : ∀ d ∈ s, decide (d ≠ '<') = true := by
    intro d hd
    exact decide_eq_true fun h => hlt.2 (h ▸ hd)
  rw [List.cons_append, run_text (Ne.symm hlt.1), List.takeWhile_append_of_pos htake,
    List.dropWhile_append_of_pos htake]
  by_cases hfront : ∃ cs', cs = '<' :: cs'
  · -- the text ends here, and what follows is no text
    obtain ⟨cs, rfl⟩ := hfront
    rw [List.takeWhile_cons_of_neg (by simp), List.dropWhile_cons_of_neg (by simp), List.append_nil]
    refine ⟨?_, rfl⟩
    rw [EventView.consText_of_ne _ (views_run_lt opened _ cs)]
    rfl
  · -- the text goes on into what follows, and is read in one piece with it
    cases cs with
    | nil =>
      simp only [List.takeWhile_nil, List.dropWhile_nil, List.append_nil, run_nil]
      exact ⟨rfl, rfl⟩
    | cons d cs =>
      have hd : d ≠ '<' := fun h => hfront ⟨cs, by rw [h]⟩
      simp only [List.takeWhile_cons, List.dropWhile_cons, decide_eq_true hd, if_true, run_text hd]
      rw [← List.cons_append, byteLength_append, ← Nat.add_assoc, String.ofList_append]
      exact ⟨rfl, rfl⟩

end Reading

/-! ## The events of a reading -/

/-- The name of a tag is cut off its content. -/
private theorem IsTagName.of_content {content : List Char} (h : ∀ c ∈ content.head?, opensTag c) :
    IsTagName (Tag.ofContent content).name := by
  -- the name is the content up to the first space
  have hname : (Tag.ofContent content).name.toList =
      content.takeWhile fun c => !isMarkupSpace c := by
    simp [Tag.ofContent, splitTagName]
  refine ⟨?_, ?_⟩
  · intro c hc
    rw [hname] at hc
    simpa using List.mem_takeWhile_imp hc
  · intro c hc
    rw [hname, List.head?_takeWhile] at hc
    exact h c (Option.mem_def.2 (Option.eq_some_of_filter_eq_some hc))

/-- The space that is cut off a closing tag's content. -/
theorem trimMarkupEnd_append (cs : List Char) :
    ∃ space, cs = trimMarkupEnd cs ++ space ∧ ∀ c ∈ space, isMarkupSpace c = true := by
  refine ⟨(cs.reverse.takeWhile isMarkupSpace).reverse, ?_, ?_⟩
  · rw [trimMarkupEnd, ← List.reverse_append, List.takeWhile_append_dropWhile, List.reverse_reverse]
  · intro c hc
    exact List.mem_takeWhile_imp (List.mem_reverse.1 hc)

/-- A closing tag is closed without the space at its end, too. -/
private theorem isClosed_closeName {content : List Char} (h : isClosed none content = true) :
    isClosed none (closeName content).toList = true := by
  rw [closeName, String.toList_ofList]
  split
  · exact h
  · obtain ⟨space, happ, hspace⟩ := trimMarkupEnd_append content
    refine isClosed_of_isClosed_append (b := space) ?_ (by simp) (happ ▸ h)
    intro c hc
    constructor
    · rintro rfl
      exact absurd (hspace _ hc) (by decide)
    · rintro rfl
      exact absurd (hspace _ hc) (by decide)

/-- The name of a closing tag has no space to lose. -/
theorem closeName_toList {name : String} (h : IsTagName name) : closeName name.toList = name := by
  -- a name without space has none at its end
  have htrim : trimMarkupEnd name.toList = name.toList := by
    have hrev : name.toList.reverse.dropWhile isMarkupSpace = name.toList.reverse := by
      rw [List.dropWhile_eq_self_iff]
      intro hlen hspace
      have hmem := List.mem_reverse.1 (List.getElem_mem hlen)
      rw [h.no_space _ hmem] at hspace
      cases hspace
    rw [trimMarkupEnd, hrev, List.reverse_reverse]
  rw [closeName, htrim, ite_self, String.ofList_toList]

/-- What a construct gives can be delivered. -/
theorem Scans.isDelivered {opened : List String} {cs rest : List Char} {e : Event}
    (h : Scans opened cs e rest) : e.IsDelivered opened := by
  cases h with
  | @tag content rest closed front =>
    rw [tagEvent]
    split
    · -- the slash at the end of an empty tag is no part of its content
      apply IsTagName.of_content
      intro c hc
      rw [List.head?_dropLast] at hc
      split at hc
      · exact front c hc
      · cases hc
    · exact IsTagName.of_content front
  | close closed name => exact ⟨name, isClosed_closeName closed⟩
  | cdata first => simpa [Event.IsDelivered] using first
  | comment | instruction | doctype => trivial

/-- Every event of a reading is one that the reader can deliver at its place. -/
theorem delivers_run (opened : List String) (pos : Nat) (cs : List Char) :
    Delivers opened (Reading.run opened pos cs).events := by
  fun_induction Reading.run opened pos cs with
  | case1 => trivial
  | case2 => trivial
  | case3 opened pos rest e size rest' h _ ih =>
    -- a construct was looked for among the names that are open
    exact ⟨(scans_of_scanMarkup h).isDelivered, ih⟩
  | case4 opened pos c rest hc text _ ih =>
    refine ⟨⟨by simp [text], ?_⟩, ih⟩
    -- a text reaches up to the next angle bracket
    rw [String.toList_ofList]
    intro hmem
    rcases List.mem_cons.1 hmem with h | h
    · exact hc h.symm
    · simpa using List.mem_takeWhile_imp h

end IconCompiler.Markup
