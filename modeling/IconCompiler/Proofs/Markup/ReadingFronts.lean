import IconCompiler.Proofs.Markup.Offsets

/-!
# Reading the front of a text

What the reader says about the front of a text does not depend on what follows it. A construct is
read from its own characters, and an event ends where the next one starts. So a text that is read
completely is read the same way in front of markup, and every reading can be cut behind any of its
events: what stands in front of the cut is a text that is read completely on its own.

## Key results

- `scanMarkup_reading`: a construct is read from its own characters, whatever follows them
- `run_append`: reading a text that is read completely, and going on behind it
- `exists_front`: a reading cut behind any number of its events
-/

namespace IconCompiler.Markup

/-! ## The characters of a construct -/

/-- Whether a scanner reads an event from the characters `taken`, whatever follows them. -/
def ReadsFrom (scan : List Char → Construct) (taken : List Char) (e : Event) (size : Nat) : Prop :=
  ∀ rest, scan (taken ++ rest) = .event e size rest

/-- The bracket that matches is found in the text before it and the bracket alone. -/
private theorem cutBalanced_reading {depth : Nat} {cs a b : List Char}
    (h : cutBalanced depth cs = some (a, b)) (rest : List Char) :
    cutBalanced depth (a ++ '>' :: rest) = some (a, rest) := by
  induction cs generalizing a depth with
  | nil => simp [cutBalanced] at h
  | cons c cs ih =>
    simp only [cutBalanced] at h
    split at h
    · rename_i hc
      cases depth with
      | zero =>
        cases h
        simp [cutBalanced]
      | succ d =>
        -- the bracket closes one that was opened inside
        obtain ⟨⟨a', b'⟩, hab, heq⟩ := Option.map_eq_some_iff.1 h
        cases heq
        simp only [List.cons_append, cutBalanced, if_pos hc, ih hab, Option.map_some]
    · rename_i hc
      obtain ⟨⟨a', b'⟩, hab, heq⟩ := Option.map_eq_some_iff.1 h
      cases heq
      simp only [List.cons_append, cutBalanced, if_neg hc, ih hab, Option.map_some]

/-- A comment is read from its own characters, whatever follows them. -/
private theorem scanComment_reading {cs rest : List Char} {e : Event} {size : Nat}
    (h : scanComment ('-' :: cs) = .event e size rest) :
    ∃ taken, cs = taken ++ rest ∧ ReadsFrom scanComment ('-' :: taken) e size := by
  unfold scanComment at h
  split at h
  · rename_i hp
    obtain ⟨cs', hcs⟩ := List.isPrefixOf_iff_prefix.1 hp
    cases hcs
    split at h
    · rename_i body rest' hc
      cases h
      have hcut : cutAt ['-', '-', '>'] cs' = some (body, rest) := hc
      -- the characters taken are the mark, the body and the mark that ends it
      refine ⟨'-' :: body ++ ['-', '-', '>'], ?_, fun rest' => ?_⟩
      · rw [cutAt_eq_append hcut, List.cons_append, List.cons_append]
        rfl
      · have hdrop : ('-' :: ('-' :: body ++ ['-', '-', '>']) ++ rest').drop 2 =
            body ++ ['-', '-', '>'] ++ rest' := rfl
        rw [scanComment, if_pos (by simp), hdrop, cutAt_reading (by simp) hcut]
    · cases h
  · cases h

/-- A section is read from its own characters, whatever follows them. -/
private theorem scanCData_reading {cs rest : List Char} {e : Event} {size : Nat}
    (h : scanCData ('[' :: cs) = .event e size rest) :
    ∃ taken, cs = taken ++ rest ∧ ReadsFrom scanCData ('[' :: taken) e size := by
  unfold scanCData at h
  split at h
  · rename_i hp
    obtain ⟨cs', hcs⟩ := List.isPrefixOf_iff_prefix.1 hp
    cases hcs
    split at h
    · rename_i body rest' hc
      cases h
      have hcut : cutAt [']', ']', '>'] cs' = some (body, rest) := hc
      -- the characters taken are the mark, the body and the mark that ends it
      refine ⟨cdataOpen.tail ++ body ++ [']', ']', '>'], ?_, fun rest' => ?_⟩
      · rw [cutAt_eq_append hcut]
        simp [cdataOpen]
      · have hdrop : ('[' :: (cdataOpen.tail ++ body ++ [']', ']', '>']) ++ rest').drop 7 =
            body ++ [']', ']', '>'] ++ rest' := rfl
        rw [scanCData, if_pos (by simp [cdataOpen]), hdrop, cutAt_reading (by simp) hcut]
    · cases h
  · cases h

/-- A document type is read from its own characters, whatever follows them. -/
private theorem scanDoctype_reading {c : Char} {cs rest : List Char} {e : Event} {size : Nat}
    (h : scanDoctype (c :: cs) = .event e size rest) :
    ∃ taken, cs = taken ++ rest ∧ ReadsFrom scanDoctype (c :: taken) e size := by
  unfold scanDoctype at h
  split at h
  · rename_i body rest' hc
    split at h
    · rename_i hword
      split at h
      · cases h
      · rename_i hname
        cases h
        -- the word stands in front of the bracket
        cases body with
        | nil => cases hword
        | cons d body =>
          obtain ⟨rfl, rfl⟩ := List.cons.inj (cutBalanced_eq_append hc)
          refine ⟨body ++ ['>'], by simp, fun rest' => ?_⟩
          rw [List.cons_append, List.append_assoc, List.singleton_append, ← List.cons_append,
            scanDoctype, cutBalanced_reading hc]
          dsimp only
          rw [if_pos hword, if_neg hname]
    · cases h
  · cases h

/-- An instruction is read from its own characters, whatever follows them. -/
private theorem scanInstruction_reading {cs rest : List Char} {e : Event} {size : Nat}
    (h : scanInstruction cs = .event e size rest) :
    ∃ taken, cs = taken ++ rest ∧ ReadsFrom scanInstruction taken e size := by
  unfold scanInstruction at h
  split at h
  · cases h
  · rename_i hfront
    split at h
    · rename_i body rest' hc
      cases h
      refine ⟨body ++ ['?', '>'], cutAt_eq_append hc, fun rest' => ?_⟩
      have hcut := cutAt_reading (by simp) hc rest'
      unfold scanInstruction
      split
      · -- what is taken starts as the text does
        rename_i more htaken
        cases body with
        | nil => cases htaken
        | cons c body =>
          obtain ⟨rfl, -⟩ := List.cons.inj htaken
          exact absurd (cutAt_eq_append hc) (hfront _)
      · rw [hcut]
    · cases h

/-- A closing tag is read from its own characters, whatever follows them. -/
private theorem scanClose_reading {opened : List String} {cs rest : List Char} {e : Event}
    {size : Nat} (h : scanClose opened cs = .event e size rest) :
    ∃ taken, cs = taken ++ rest ∧ ReadsFrom (scanClose opened) taken e size := by
  unfold scanClose at h
  split at h
  · rename_i content rest' hc
    obtain ⟨rfl, hclosed⟩ := cutTag_eq_some_iff.1 hc
    split at h
    · cases h
    · rename_i hname
      cases h
      refine ⟨content ++ ['>'], by simp, fun rest' => ?_⟩
      rw [List.append_assoc, List.singleton_append, scanClose, cutTag_eq_some_iff.2 ⟨rfl, hclosed⟩]
      dsimp only
      -- the name is compared as before, since the same elements are open
      rw [hname]
  · cases h

/-- A tag is read from its own characters, whatever follows them. -/
private theorem scanTag_reading {opened : List String} {cs rest : List Char} {e : Event}
    {size : Nat} (hfront : ∀ c ∈ cs.head?, opensTag c) (h : scanTag cs = .event e size rest) :
    ∃ taken, cs = taken ++ rest ∧ ReadsFrom (scanMarkup opened) taken e size := by
  unfold scanTag at h
  split at h
  · rename_i content rest' hc
    obtain ⟨rfl, hclosed⟩ := cutTag_eq_some_iff.1 hc
    cases h
    refine ⟨content ++ ['>'], by simp, fun rest' => ?_⟩
    rw [List.append_assoc, List.singleton_append, scanMarkup_tag hclosed]
    -- the first character is that of the content, which is not empty then
    intro c hmem
    apply hfront
    cases content with
    | nil => cases hmem
    | cons d content => exact hmem
  · cases h

/-- A construct is read from its own characters, whatever follows them. -/
theorem scanMarkup_reading {opened : List String} {cs rest : List Char} {e : Event} {size : Nat}
    (h : scanMarkup opened cs = .event e size rest) :
    ∃ taken, cs = taken ++ rest ∧ ReadsFrom (scanMarkup opened) taken e size := by
  unfold scanMarkup at h
  split at h
  · cases h
  · obtain ⟨taken, rfl, hread⟩ := scanCData_reading h
    exact ⟨'!' :: '[' :: taken, rfl, hread⟩
  · obtain ⟨taken, rfl, hread⟩ := scanComment_reading h
    exact ⟨'!' :: '-' :: taken, rfl, hread⟩
  · obtain ⟨taken, rfl, hread⟩ := scanDoctype_reading h
    exact ⟨'!' :: 'D' :: taken, rfl, hread⟩
  · obtain ⟨taken, rfl, hread⟩ := scanDoctype_reading h
    exact ⟨'!' :: 'd' :: taken, rfl, hread⟩
  · cases h
  · obtain ⟨taken, rfl, hread⟩ := scanInstruction_reading h
    exact ⟨'?' :: taken, rfl, hread⟩
  · obtain ⟨taken, rfl, hread⟩ := scanClose_reading h
    exact ⟨'/' :: taken, rfl, hread⟩
  · -- any other first character opens a tag
    rename_i c cs _ _ _ _ hbang hquestion hslash
    apply scanTag_reading ?_ h
    intro d hd
    cases hd
    exact ⟨hbang, hquestion, hslash⟩

/-- The size of a construct is that of its own characters, with the bracket in front. -/
private theorem byteLength_of_reading {opened : List String} {taken rest : List Char} {e : Event}
    {size : Nat} (h : scanMarkup opened (taken ++ rest) = .event e size rest) :
    size = byteLength ('<' :: taken) := by
  have hsize := size_of_scanMarkup h
  have hmark : ('<').utf8Size = 1 := rfl
  rw [byteLength_append] at hsize
  rw [byteLength_cons, hmark]
  omega

/-! ## The characters of a text event -/

section

variable {p : Char → Bool} {rest : List Char}

/-- A text that stops the characters of a kind leaves those in front of it as they are. -/
private theorem takeWhile_append_of_stop (hrest : ∀ c ∈ rest.head?, p c = false) (cs : List Char) :
    (cs ++ rest).takeWhile p = cs.takeWhile p ∧
      (cs ++ rest).dropWhile p = cs.dropWhile p ++ rest := by
  induction cs with
  | nil =>
    cases rest with
    | nil => exact ⟨rfl, rfl⟩
    | cons c rest =>
      have hc := hrest c rfl
      simp [hc]
  | cons c cs ih =>
    cases hc : p c with
    | false => simp [hc]
    | true => simp [hc, ih]

end

/-! ## Cutting a reading -/

namespace Reading

/-- The first event of a reading, and the reading behind it. -/
private theorem eq_of_cons_eq {pos : Nat} {e : Event} {r : Reading} {ls : List Located}
    {ending : Ending} (h : cons pos e r = ⟨ls, ending⟩) :
    ∃ ls', ls = ⟨pos, e⟩ :: ls' ∧ r = ⟨ls', ending⟩ := by
  cases h
  exact ⟨r.events, rfl, rfl⟩

/-- A text that is read completely is read the same way in front of markup, and the reading goes on
    behind it. -/
theorem run_append {opened opened' : List String} {pos : Nat} {before rest : List Char}
    (h : (run opened pos before).ending = .complete opened') (hrest : ∀ c ∈ rest.head?, c = '<') :
    run opened pos (before ++ rest) =
      ⟨(run opened pos before).events ++ (run opened' (pos + byteLength before) rest).events,
        (run opened' (pos + byteLength before) rest).ending⟩ := by
  fun_induction run opened pos before with
  | case1 opened pos =>
    cases h
    rfl
  | case2 => cases h
  | case3 opened pos cs e size behind hscan _ ih =>
    obtain ⟨taken, rfl, hread⟩ := scanMarkup_reading hscan
    rw [← List.cons_append, List.append_assoc, List.cons_append, run_event (hread _), ih h,
      byteLength_append, ← Nat.add_assoc, byteLength_of_reading hscan]
    rfl
  | case4 opened pos c cs hc text _ ih =>
    -- markup ends a text, so the text in front of the cut ends there as well
    have hstop : ∀ d ∈ rest.head?, decide (d ≠ '<') = false := by
      intro d hd
      simp [hrest d hd]
    obtain ⟨htake, hdrop⟩ := takeWhile_append_of_stop hstop cs
    have hbytes : byteLength (c :: cs) =
        byteLength text + byteLength (cs.dropWhile (· ≠ '<')) := by
      rw [← byteLength_append, List.cons_append, List.takeWhile_append_dropWhile]
    rw [List.cons_append, run_text hc, htake, hdrop, ih h, hbytes, ← Nat.add_assoc]
    rfl

/-- A reading can be cut behind any number of its events: the text in front of the cut is read
    completely on its own, and the rest is read from there on. -/
theorem exists_front {opened : List String} {pos : Nat} {cs : List Char} {ls : List Located}
    {r : Reading} (h : run opened pos cs = ⟨ls ++ r.events, r.ending⟩) :
    ∃ before rest opened', cs = before ++ rest ∧ run opened pos before = ⟨ls, .complete opened'⟩ ∧
      run opened' (pos + byteLength before) rest = r := by
  -- over the events in front of the cut
  induction ls generalizing opened pos cs with
  | nil => exact ⟨[], cs, opened, rfl, run_nil opened pos, h⟩
  | cons l ls ih =>
    cases cs with
    | nil =>
      rw [run_nil] at h
      cases h
    | cons c cs =>
      by_cases hc : c = '<'
      · subst hc
        cases hscan : scanMarkup opened cs with
        | fault f shift =>
          rw [run_fault hscan] at h
          cases h
        | event e size behind =>
          rw [run_event hscan] at h
          obtain ⟨ls', hls, hbehind⟩ := eq_of_cons_eq h
          cases hls
          obtain ⟨before, rest, opened', rfl, hbefore, hr⟩ := ih hbehind
          -- the construct is read alike in front of what is left of the text
          obtain ⟨taken, rfl, hread⟩ := scanMarkup_reading hscan
          have hsize := byteLength_of_reading hscan
          refine ⟨'<' :: taken ++ before, rest, opened', by simp, ?_, ?_⟩
          · rw [List.cons_append, run_event (hread before), hbefore]
            rfl
          · rw [byteLength_append, ← hsize, ← Nat.add_assoc, hr]
      · rw [run_text hc] at h
        obtain ⟨ls', hls, hbehind⟩ := eq_of_cons_eq h
        cases hls
        obtain ⟨before, rest, opened', hcs, hbefore, hr⟩ := ih hbehind
        refine ⟨c :: cs.takeWhile (· ≠ '<') ++ before, rest, opened', ?_, ?_, ?_⟩
        · rw [List.append_assoc, ← hcs, List.cons_append, List.takeWhile_append_dropWhile]
        · -- what is left of the text starts with markup, if anything is left
          have hfront : ∀ d ∈ before.head?, decide (d ≠ '<') = false := by
            intro d hd
            have hhead : (cs.dropWhile (· ≠ '<')).head? = some d := by
              rw [hcs, List.head?_append, hd, Option.some_or]
            have hstop := List.head?_dropWhile_not (fun d => decide (d ≠ '<')) cs
            rw [hhead] at hstop
            exact hstop
          obtain ⟨htake, hdrop⟩ := takeWhile_append_of_stop hfront (cs.takeWhile (· ≠ '<'))
          have hnothing : (cs.takeWhile (· ≠ '<')).dropWhile (· ≠ '<') = [] := by
            rw [List.dropWhile_eq_nil_iff]
            intro d hd
            have hkept := List.mem_takeWhile_imp hd
            exact hkept
          rw [List.cons_append, run_text hc, htake, hdrop, List.takeWhile_idem, hnothing,
            List.nil_append, hbefore]
          rfl
        · rw [byteLength_append, ← Nat.add_assoc, hr]

/-- The first event of a reading is a text, or what the scanner makes of the construct in front. -/
theorem run_eq_cons {opened : List String} {pos : Nat} {cs : List Char} {l : Located}
    {ls : List Located} {ending : Ending} (h : run opened pos cs = ⟨l :: ls, ending⟩) :
    (∃ s, l.event = .text s) ∨
      ∃ cs' size rest, cs = '<' :: cs' ∧ l.offset = pos ∧
        scanMarkup opened cs' = .event l.event size rest := by
  cases cs with
  | nil =>
    rw [run_nil] at h
    cases h
  | cons c cs =>
    -- markup is looked at, and everything else is a text
    by_cases hc : c = '<'
    · subst hc
      cases hscan : scanMarkup opened cs with
      | fault f shift =>
        rw [run_fault hscan] at h
        cases h
      | event e size rest =>
        rw [run_event hscan] at h
        cases h
        exact .inr ⟨cs, size, rest, rfl, rfl, hscan⟩
    · rw [run_text hc] at h
      cases h
      exact .inl ⟨_, rfl⟩

/-- A reading without events is at the end, or breaks off at the construct in front. -/
theorem run_eq_nil {opened : List String} {pos : Nat} {cs : List Char} {ending : Ending}
    (h : run opened pos cs = ⟨[], ending⟩) :
    cs = [] ∧ ending = .complete opened ∨
      ∃ cs' f shift, cs = '<' :: cs' ∧ scanMarkup opened cs' = .fault f shift ∧
        ending = .broken f (pos + shift) := by
  cases cs with
  | nil =>
    rw [run_nil] at h
    cases h
    exact .inl ⟨rfl, rfl⟩
  | cons c cs =>
    by_cases hc : c = '<'
    · subst hc
      cases hscan : scanMarkup opened cs with
      | fault f shift =>
        rw [run_fault hscan] at h
        cases h
        exact .inr ⟨cs, f, shift, rfl, hscan, rfl⟩
      | event e size rest =>
        rw [run_event hscan] at h
        cases h
    · rw [run_text hc] at h
      cases h

end Reading

end IconCompiler.Markup
