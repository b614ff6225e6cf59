import IconCompiler.Proofs.Markup.Recleaning

/-!
# Offsets and places

A construct takes as many bytes as it stands for, so the offsets of a reading grow from event to
event and never leave the source. A tag whose attributes are faulty takes at least four bytes, so
what follows it has another location.

## Key results

- `size_of_scanMarkup`: the size of a construct is the number of its bytes
- `offsets_run`: the offsets of a reading
- `lt_of_broken`: where a reading breaks off
-/

namespace IconCompiler.Markup

open EventView Reading

/-! ## The size of a construct -/

/-- A comment takes what is between its mark and the rest, and the bracket and mark themselves. -/
private theorem size_of_scanComment {cs rest : List Char} {e : Event} {size : Nat}
    (h : scanComment cs = .event e size rest) : size + byteLength rest = byteLength cs + 2 := by
  unfold scanComment at h
  split at h
  · rename_i hp
    obtain ⟨cs', rfl⟩ := List.isPrefixOf_iff_prefix.1 hp
    split at h
    · rename_i hc
      cases h
      rw [show (['-', '-'] ++ cs').drop 2 = cs' from rfl] at hc
      -- the marks are two and three bytes long
      have hmarks : byteLength ['-', '-'] = 2 ∧ byteLength ['-', '-', '>'] = 3 := ⟨rfl, rfl⟩
      rw [cutAt_eq_append hc, byteLength_append, byteLength_append, byteLength_append, hmarks.1,
        hmarks.2]
      omega
    · cases h
  · cases h

/-- A section takes the text up to the rest, and the bracket and mark in front. -/
private theorem size_of_scanCData {cs rest : List Char} {e : Event} {size : Nat}
    (h : scanCData cs = .event e size rest) : size + byteLength rest = byteLength cs + 2 := by
  unfold scanCData at h
  split at h
  · rename_i hp
    obtain ⟨cs', rfl⟩ := List.isPrefixOf_iff_prefix.1 hp
    split at h
    · rename_i hc
      cases h
      rw [show (cdataOpen ++ cs').drop 7 = cs' from rfl] at hc
      -- the marks are seven and three bytes long
      have hmarks : byteLength cdataOpen = 7 ∧ byteLength [']', ']', '>'] = 3 := ⟨rfl, rfl⟩
      rw [cutAt_eq_append hc, byteLength_append, byteLength_append, byteLength_append, hmarks.1,
        hmarks.2]
      omega
    · cases h
  · cases h

/-- A document type takes the text up to the rest, and the bracket and mark in front. -/
private theorem size_of_scanDoctype {cs rest : List Char} {e : Event} {size : Nat}
    (h : scanDoctype cs = .event e size rest) : size + byteLength rest = byteLength cs + 2 := by
  unfold scanDoctype at h
  split at h
  · rename_i hc
    split at h
    · split at h
      · cases h
      · cases h
        have hmark : ('>').utf8Size = 1 := rfl
        rw [cutBalanced_eq_append hc, byteLength_append, byteLength_cons, hmark]
        omega
    · cases h
  · cases h

/-- An instruction takes the text up to the rest, and the bracket and mark in front. -/
private theorem size_of_scanInstruction {cs rest : List Char} {e : Event} {size : Nat}
    (h : scanInstruction cs = .event e size rest) : size + byteLength rest = byteLength cs + 2 := by
  unfold scanInstruction at h
  split at h
  · cases h
  · split at h
    · rename_i hc
      cases h
      have hmark : byteLength ['?', '>'] = 2 := rfl
      rw [cutAt_eq_append hc, byteLength_append, byteLength_append, hmark]
      omega
    · cases h

/-- A closing tag takes the text up to the rest, and the bracket and slash in front. -/
private theorem size_of_scanClose {opened : List String} {cs rest : List Char} {e : Event}
    {size : Nat} (h : scanClose opened cs = .event e size rest) :
    size + byteLength rest = byteLength cs + 2 := by
  unfold scanClose at h
  split at h
  · rename_i hc
    obtain ⟨rfl, -⟩ := cutTag_eq_some_iff.1 hc
    split at h
    · cases h
    · cases h
      have hmark : ('>').utf8Size = 1 := rfl
      rw [byteLength_append, byteLength_cons, hmark]
      omega
  · cases h

/-- A tag takes the text up to the rest, and the bracket in front. -/
private theorem size_of_scanTag {cs rest : List Char} {e : Event} {size : Nat}
    (h : scanTag cs = .event e size rest) : size + byteLength rest = byteLength cs + 1 := by
  unfold scanTag at h
  split at h
  · rename_i hc
    obtain ⟨rfl, -⟩ := cutTag_eq_some_iff.1 hc
    cases h
    have hmark : ('>').utf8Size = 1 := rfl
    rw [byteLength_append, byteLength_cons, hmark]
    omega
  · cases h

/-- The size of a construct is the number of its bytes, with its opening angle bracket. -/
theorem size_of_scanMarkup {opened : List String} {cs rest : List Char} {e : Event} {size : Nat}
    (h : scanMarkup opened cs = .event e size rest) :
    size + byteLength rest = byteLength cs + 1 := by
  -- the character that tells a construct is one byte long
  have hmarks : ('!').utf8Size = 1 ∧ ('?').utf8Size = 1 ∧ ('/').utf8Size = 1 := ⟨rfl, rfl, rfl⟩
  unfold scanMarkup at h
  split at h
  · cases h
  · have := size_of_scanCData h
    rw [byteLength_cons, hmarks.1]
    omega
  · have := size_of_scanComment h
    rw [byteLength_cons, hmarks.1]
    omega
  · have := size_of_scanDoctype h
    rw [byteLength_cons, hmarks.1]
    omega
  · have := size_of_scanDoctype h
    rw [byteLength_cons, hmarks.1]
    omega
  · cases h
  · have := size_of_scanInstruction h
    rw [byteLength_cons, hmarks.2.1]
    omega
  · have := size_of_scanClose h
    rw [byteLength_cons, hmarks.2.2]
    omega
  · exact size_of_scanTag h

/-- A construct takes at least its angle bracket. -/
private theorem size_pos_of_scanMarkup {opened : List String} {cs rest : List Char} {e : Event}
    {size : Nat} (h : scanMarkup opened cs = .event e size rest) : 0 < size := by
  have hsize := size_of_scanMarkup h
  obtain ⟨taken, rfl⟩ := (scans_of_scanMarkup h).suffix
  rw [byteLength_append] at hsize
  omega

/-- Attributes can be faulty only if something stands behind the space after the tag's name. -/
private theorem two_le_length_of_fault {content : List Char}
    (h : (Tag.ofContent content).attributes.fault ≠ none) : 2 ≤ content.length := by
  rw [Tag.attributes] at h
  have hbody : (Tag.ofContent content).body = content.dropWhile fun c => !isMarkupSpace c := rfl
  rw [hbody] at h
  have hle := dropWhile_length (fun c => !isMarkupSpace c) content
  -- what is left starts with the space that ended the name
  have hfront := List.head?_dropWhile_not (fun c => !isMarkupSpace c) content
  cases hcs : content.dropWhile fun c => !isMarkupSpace c with
  | nil =>
    rw [hcs, readAttributes_of_done rfl] at h
    exact absurd rfl h
  | cons c cs =>
    rw [hcs] at h hle hfront
    have hspace : isMarkupSpace c = true := by simpa using hfront
    cases cs with
    | nil =>
      -- there is nothing but a space
      rw [readAttributes_of_done (by simp [nextAttribute, hspace])] at h
      exact absurd rfl h
    | cons d cs =>
      simp only [List.length_cons] at hle
      omega

/-- A tag whose attributes are faulty takes at least four bytes. -/
private theorem four_le_size {opened : List String} {cs rest : List Char} {e : Event} {size : Nat}
    (h : scanMarkup opened cs = .event e size rest) (hfault : ¬e.view.HasNoFault) : 4 ≤ size := by
  have hsize := size_of_scanMarkup h
  cases scans_of_scanMarkup h with
  | close | cdata | comment | instruction | doctype => exact absurd trivial hfault
  | @tag content rest closed front =>
    have hmark : ('>').utf8Size = 1 := rfl
    rw [byteLength_append, byteLength_cons, hmark] at hsize
    -- the brackets are two bytes, so the content has to have two
    have hlength : 2 ≤ content.length := by
      rw [tagEvent] at hfault
      split at hfault
      · have := two_le_length_of_fault hfault
        rw [List.length_dropLast] at this
        omega
      · exact two_le_length_of_fault hfault
    have := length_le_byteLength content
    omega

/-! ## Offsets -/

/-- Offsets that come one after the other, and four bytes apart if the event at the first of them
    has faulty attributes. -/
def Located.Before (l l' : Located) : Prop :=
  l.offset < l'.offset ∧ (¬l.event.view.HasNoFault → l.offset + 4 ≤ l'.offset)

/-- The offsets of a reading grow and stay inside the text. -/
theorem offsets_run (opened : List String) (pos : Nat) (cs : List Char) :
    (∀ l ∈ (run opened pos cs).events, pos ≤ l.offset ∧ l.offset ≤ pos + byteLength cs) ∧
      (run opened pos cs).events.Pairwise Located.Before := by
  -- over the events, with the bounds of the rest at the offset where it starts
  fun_induction run opened pos cs with
  | case1 => exact ⟨List.forall_mem_nil _, .nil⟩
  | case2 => exact ⟨List.forall_mem_nil _, .nil⟩
  | case3 opened pos rest e size rest' h _ ih =>
    obtain ⟨hbounds, hpairs⟩ := ih
    have hsize := size_of_scanMarkup h
    have hmark : ('<').utf8Size = 1 := rfl
    rw [byteLength_cons, hmark]
    refine ⟨List.forall_mem_cons.2 ⟨⟨Nat.le_refl _, Nat.le_add_right _ _⟩, ?_⟩,
      List.pairwise_cons.2 ⟨?_, hpairs⟩⟩
    · intro l hl
      have := hbounds l hl
      omega
    · -- the next event starts behind the construct, and faulty attributes take their space
      intro l hl
      have hl := hbounds l hl
      refine ⟨?_, fun hfault => ?_⟩
      · have := size_pos_of_scanMarkup h
        show pos < l.offset
        omega
      · have := four_le_size h hfault
        show pos + 4 ≤ l.offset
        omega
  | case4 opened pos c rest hc text _ ih =>
    obtain ⟨hbounds, hpairs⟩ := ih
    have hparts : byteLength (c :: rest) =
        byteLength text + byteLength (rest.dropWhile (· ≠ '<')) := by
      rw [← byteLength_append, List.cons_append, List.takeWhile_append_dropWhile]
    have hpos : 0 < byteLength text := byteLength_cons_pos _ _
    refine ⟨List.forall_mem_cons.2 ⟨⟨Nat.le_refl _, Nat.le_add_right _ _⟩, ?_⟩,
      List.pairwise_cons.2 ⟨?_, hpairs⟩⟩
    · intro l hl
      have := hbounds l hl
      omega
    · -- a text is not empty, and has no attributes
      intro l hl
      have := hbounds l hl
      refine ⟨?_, fun hfault => absurd trivial hfault⟩
      show pos < l.offset
      omega

/-- Where a reading breaks off, all its events stand in front of the place. -/
theorem lt_of_broken {opened : List String} {pos : Nat} {cs : List Char} {f : Fault} {offset : Nat}
    (h : (run opened pos cs).ending = .broken f offset) :
    pos ≤ offset ∧ ∀ l ∈ (run opened pos cs).events, l.offset < offset := by
  fun_induction run opened pos cs with
  | case1 => cases h
  | case2 opened pos rest f' shift hscan =>
    cases h
    exact ⟨Nat.le_add_right _ _, List.forall_mem_nil _⟩
  | case3 opened pos rest e size rest' hscan _ ih =>
    obtain ⟨hpos, hbefore⟩ := ih h
    have hsize := size_pos_of_scanMarkup hscan
    exact ⟨by omega, List.forall_mem_cons.2 ⟨by show pos < offset; omega, hbefore⟩⟩
  | case4 opened pos c rest hc text _ ih =>
    obtain ⟨hpos, hbefore⟩ := ih h
    have htext : 0 < byteLength text := byteLength_cons_pos _ _
    exact ⟨by omega, List.forall_mem_cons.2 ⟨by show pos < offset; omega, hbefore⟩⟩

end IconCompiler.Markup
