import Mathlib.Data.List.TakeWhile
import IconCompiler.Markup.Cleaning
import IconCompiler.Proofs.Markup.Scanning

/-!
# Attributes as they are written

The reader of attributes gives back what `renderAttribute` wrote, and whatever it delivers can be
written that way. Written attributes are also told apart from every text that breaks off earlier.

## Key results

- `readAttributes_render`: written attributes are read back, whatever follows them
- `readAttributes_ne_of_cut`: attributes that break off earlier are not read as all of them
- `Tag.areWritable_attributes`: what the reader delivers can be written
-/

namespace IconCompiler.Markup

/-- Whether a text can be a key: no space, and no equals sign behind the first character. -/
def IsKey (cs : List Char) : Prop :=
  ∃ c rest, cs = c :: rest ∧ isMarkupSpace c = false ∧ ∀ d ∈ rest, isKeyChar d = true

/-- Whether a character can stand around a value. -/
def IsQuote (q : Char) : Prop :=
  q = '"' ∨ q = '\''

/-- Whether an attribute can be written. -/
structure Attribute.IsWritable (a : Attribute) : Prop where
  key : IsKey a.key.toList
  /-- The quote of the value does not occur in it. -/
  value : quoteFor a.value ∉ a.value.toList

/-- Whether attributes can be written in one tag. -/
structure AreWritable (attrs : List Attribute) : Prop where
  each : ∀ a ∈ attrs, a.IsWritable
  distinct : (attrs.map (·.key.toList)).Nodup

theorem AreWritable.tail {a : Attribute} {attrs : List Attribute} (h : AreWritable (a :: attrs)) :
    AreWritable attrs :=
  ⟨fun b hb => h.each b (List.mem_cons_of_mem _ hb), (List.nodup_cons.1 h.distinct).2⟩

/-- Some of the attributes of a tag can be written if all can. -/
theorem AreWritable.filter {attrs : List Attribute} (h : AreWritable attrs)
    (p : Attribute → Bool) : AreWritable (attrs.filter p) :=
  ⟨fun a ha => h.each a (List.mem_filter.1 ha).1,
    h.distinct.sublist (List.filter_sublist.map _)⟩

/-! ## One attribute -/

/-- What is put around a value is a quote. -/
theorem isQuote_quoteFor (value : String) : IsQuote (quoteFor value) := by
  unfold quoteFor
  split
  · exact .inr rfl
  · exact .inl rfl

/-- A value that can stand in some quotes can stand in the quotes that are written. -/
theorem quoteFor_not_mem {q : Char} {value : String} (hq : IsQuote q)
    (hv : q ∉ value.toList) : quoteFor value ∉ value.toList := by
  unfold quoteFor
  split
  · rename_i hd
    rcases hq with rfl | rfl
    · -- double quotes are avoided because one occurs, so it was the single ones that fit
      exact absurd (List.contains_iff_mem.1 hd) hv
    · exact hv
  · rename_i hd
    exact fun hmem => hd (List.contains_iff_mem.2 hmem)

/-- A key ends where the equals sign stands. -/
private theorem takeKey_eq {c : Char} {key : List Char} (hk : ∀ d ∈ key, isKeyChar d = true)
    (pos : Nat) (rest : List Char) :
    takeKey pos c (key ++ '=' :: rest) =
      (c :: key, pos + byteLength (c :: key), '=' :: rest) := by
  have heq : isKeyChar '=' = false := by decide
  have hsp : isMarkupSpace '=' = false := by decide
  simp [takeKey, List.takeWhile_append_of_pos hk, List.dropWhile_append_of_pos hk, heq, hsp]

/-- A quoted value ends at its quote. -/
private theorem takeValue_eq {q : Char} {value : List Char} (hq : IsQuote q) (hv : q ∉ value)
    (pos : Nat) (rest : List Char) :
    takeValue pos (q :: (value ++ q :: rest)) =
      .ok (value, pos + 1 + byteLength value + 1, rest) := by
  have hsp : isMarkupSpace q = false := by rcases hq with rfl | rfl <;> decide
  have hcut : cutAt [q] (value ++ q :: rest) = some (value, rest) :=
    cutAt_singleton_eq_some_iff.2 ⟨rfl, hv⟩
  have hq' : (q = '"' || q = '\'') = true := by rcases hq with rfl | rfl <;> decide
  simp [takeValue, hsp, hcut, hq']

/-- A value that was read stands behind space, between two quotes that do not occur in it. -/
private theorem takeValue_eq_ok {pos pos' : Nat} {cs value rest : List Char}
    (h : takeValue pos cs = .ok (value, pos', rest)) :
    ∃ space q, (∀ c ∈ space, isMarkupSpace c = true) ∧ IsQuote q ∧ q ∉ value ∧
      cs = space ++ q :: (value ++ q :: rest) := by
  have htext : cs.takeWhile isMarkupSpace ++ cs.dropWhile isMarkupSpace = cs :=
    List.takeWhile_append_dropWhile
  -- what is not an item is a fault, which reads nothing
  unfold takeValue at h
  dsimp only at h
  split at h
  · cases h
  · rename_i q r hr
    rw [hr] at htext
    split at h
    · rename_i hq
      split at h
      · cases h
      · rename_i hcut
        cases h
        obtain ⟨rfl, hmem⟩ := cutAt_singleton_eq_some_iff.1 hcut
        exact ⟨_, q, fun c hc => List.mem_takeWhile_imp hc, by simpa [IsQuote] using hq, hmem,
          htext.symm⟩
    · cases h

/-- A written attribute with a new key is read back, whatever follows it. -/
private theorem nextAttribute_render {a : Attribute} (ha : a.IsWritable)
    {seen : List (List Char × Nat)} (hs : seen.lookup a.key.toList = none) (pos : Nat)
    (rest : List Char) :
    ∃ pos', nextAttribute seen pos (renderAttribute a ++ rest) =
      .item a.key.toList (pos + 1) a.value.toList pos' rest := by
  obtain ⟨c, key, hkey, hc, hk⟩ := ha.key
  have hsp : isMarkupSpace ' ' = true := by decide
  -- one space, the first character of the key, the rest of it, and the quoted value
  have htext : renderAttribute a ++ rest = ' ' :: c :: (key ++ '=' ::
      quoteFor a.value :: (a.value.toList ++ quoteFor a.value :: rest)) := by
    simp [renderAttribute, hkey]
  rw [htext, hkey]
  rw [hkey] at hs
  simp only [nextAttribute, List.takeWhile_cons, List.dropWhile_cons, hsp, hc, if_true,
    Bool.false_eq_true, if_false, takeKey_eq hk, hs, takeValue_eq (isQuote_quoteFor _) ha.value]
  exact ⟨_, rfl⟩

/-- An attribute that was read stands in the text as its key, an equals sign and its value between
    quotes, with nothing but space between them. -/
theorem nextAttribute_eq_item {seen : List (List Char × Nat)} {pos start pos' : Nat}
    {cs key value rest : List Char}
    (h : nextAttribute seen pos cs = .item key start value pos' rest) :
    IsKey key ∧ seen.lookup key = none ∧
      ∃ before between space q, (∀ c ∈ before ++ between ++ space, isMarkupSpace c = true) ∧
        IsQuote q ∧ q ∉ value ∧
          cs = before ++ (key ++ (between ++ '=' :: (space ++ q :: (value ++ q :: rest)))) := by
  have hbefore : cs.takeWhile isMarkupSpace ++ cs.dropWhile isMarkupSpace = cs :=
    List.takeWhile_append_dropWhile
  -- the reader skips space, takes a key, asks whether it is new, and takes a value
  unfold nextAttribute at h
  dsimp only at h
  split at h
  · cases h
  · rename_i c r hr
    have hc : isMarkupSpace c = false := by
      have := List.head?_dropWhile_not isMarkupSpace cs
      rw [hr] at this
      simpa using this
    split at h
    · rename_i k p r' hk
      split at h
      · cases h
      · rename_i hseen
        split at h
        · cases h
        · rename_i hv
          cases h
          simp only [takeKey, Prod.mk.injEq] at hk
          obtain ⟨rfl, -, hr'⟩ := hk
          obtain ⟨space, q, hspace, hq, hqv, rfl⟩ := takeValue_eq_ok hv
          -- the spaces are those that were skipped in front of the key and behind it
          refine ⟨⟨c, _, rfl, hc, fun d hd => List.mem_takeWhile_imp hd⟩, hseen,
            cs.takeWhile isMarkupSpace, (r.dropWhile isKeyChar).takeWhile isMarkupSpace, space, q,
            ?_, hq, hqv, ?_⟩
          · intro d hd
            rcases List.mem_append.1 hd with hd | hd
            · rcases List.mem_append.1 hd with hd | hd
              · exact List.mem_takeWhile_imp hd
              · exact List.mem_takeWhile_imp hd
            · exact hspace d hd
          · rw [← hr', List.takeWhile_append_dropWhile, List.cons_append,
              List.takeWhile_append_dropWhile, ← hr, hbefore]
    · cases h

/-! ## All attributes of a tag -/

/-- Where no attribute follows, none is read. -/
theorem readAttributes_of_done {seen : List (List Char × Nat)} {pos : Nat} {cs : List Char}
    (h : nextAttribute seen pos cs = .done) : readAttributes seen pos cs = .nil := by
  rw [readAttributes]
  split <;> simp_all

/-- A fault ends the attributes. -/
theorem readAttributes_of_fault {seen : List (List Char × Nat)} {pos : Nat} {cs : List Char}
    {f : AttributeFault} (h : nextAttribute seen pos cs = .fault f) :
    readAttributes seen pos cs = .stop f := by
  rw [readAttributes]
  split <;> simp_all

/-- An attribute is read, and the others behind it with its key among those seen. -/
theorem readAttributes_of_item {seen : List (List Char × Nat)} {pos start pos' : Nat}
    {cs key value rest : List Char}
    (h : nextAttribute seen pos cs = .item key start value pos' rest) :
    readAttributes seen pos cs =
      .cons ⟨String.ofList key, String.ofList value⟩
        (readAttributes ((key, start) :: seen) pos' rest) := by
  rw [readAttributes]
  split <;> simp_all

/-- Attributes are read with their keys distinct from each other and from the earlier ones. -/
private theorem readAttributes_nodup (seen : List (List Char × Nat)) (pos : Nat) (cs : List Char) :
    ((readAttributes seen pos cs).items.map (·.key.toList)).Nodup ∧
      ∀ a ∈ (readAttributes seen pos cs).items, seen.lookup a.key.toList = none := by
  fun_induction readAttributes seen pos cs with
  | case1 seen pos cs h => exact ⟨List.nodup_nil, List.forall_mem_nil _⟩
  | case2 seen pos cs f h => exact ⟨List.nodup_nil, List.forall_mem_nil _⟩
  | case3 seen pos cs key start value pos' rest h hlt ih =>
    obtain ⟨-, hseen, -⟩ := nextAttribute_eq_item h
    obtain ⟨hnodup, hfresh⟩ := ih
    -- the attributes after this one have keys that are neither its own nor among the earlier ones
    have hne : ∀ a ∈ (readAttributes ((key, start) :: seen) pos' rest).items,
        a.key.toList ≠ key ∧ seen.lookup a.key.toList = none := by
      intro a ha
      have hl := hfresh a ha
      rw [List.lookup_cons] at hl
      split at hl
      · cases hl
      · rename_i hk
        exact ⟨by simpa using hk, hl⟩
    simp only [AttributeList.cons, List.map_cons, String.toList_ofList, List.nodup_cons]
    refine ⟨⟨?_, hnodup⟩, ?_⟩
    · intro hmem
      obtain ⟨a, ha, hak⟩ := List.mem_map.1 hmem
      exact (hne a ha).1 hak
    · intro a ha
      rcases List.mem_cons.1 ha with rfl | ha
      · rwa [String.toList_ofList]
      · exact (hne a ha).2

/-- Every attribute that is read can be written. -/
private theorem readAttributes_isWritable (seen : List (List Char × Nat)) (pos : Nat)
    (cs : List Char) :
    ∀ a ∈ (readAttributes seen pos cs).items, a.IsWritable := by
  fun_induction readAttributes seen pos cs with
  | case1 => exact List.forall_mem_nil _
  | case2 => exact List.forall_mem_nil _
  | case3 seen pos cs key start value pos' rest h hlt ih =>
    obtain ⟨hkey, -, -, -, -, q, -, hq, hqv, -⟩ := nextAttribute_eq_item h
    intro a ha
    -- the quote that is written may differ from the one that was read
    rcases List.mem_cons.1 ha with rfl | ha
    · exact ⟨by rwa [String.toList_ofList], quoteFor_not_mem hq (by rwa [String.toList_ofList])⟩
    · exact ih a ha

/-- What the reader delivers can be written. -/
theorem Tag.areWritable_attributes (tag : Tag) : AreWritable tag.attributes.items :=
  ⟨readAttributes_isWritable _ _ _, (readAttributes_nodup _ _ _).1⟩

/-- Once the first of distinct new keys is known, the others are still new. -/
private theorem lookup_cons_of_distinct {a : Attribute} {attrs : List Attribute}
    {seen : List (List Char × Nat)} (h : AreWritable (a :: attrs))
    (hs : ∀ b ∈ a :: attrs, seen.lookup b.key.toList = none) (start : Nat) :
    ∀ b ∈ attrs, List.lookup b.key.toList ((a.key.toList, start) :: seen) = none := by
  intro b hb
  have hne : b.key.toList ≠ a.key.toList := by
    intro hba
    exact (List.nodup_cons.1 h.distinct).1 (List.mem_map.2 ⟨b, hb, hba⟩)
  rw [List.lookup_cons, beq_false_of_ne hne]
  exact hs b (List.mem_cons_of_mem _ hb)

/-- Written attributes with distinct new keys are read back, whatever follows them. -/
theorem readAttributes_render {attrs : List Attribute} (h : AreWritable attrs)
    (seen : List (List Char × Nat)) (hs : ∀ a ∈ attrs, seen.lookup a.key.toList = none)
    (pos : Nat) (tail : List Char) :
    ∃ seen' pos', readAttributes seen pos (attrs.flatMap renderAttribute ++ tail) =
      ⟨attrs ++ (readAttributes seen' pos' tail).items,
        (readAttributes seen' pos' tail).fault⟩ := by
  -- every attribute that is read adds its key to those seen
  induction attrs generalizing seen pos with
  | nil => exact ⟨seen, pos, rfl⟩
  | cons a attrs ih =>
    obtain ⟨pos₁, h₁⟩ := nextAttribute_render (h.each a List.mem_cons_self)
      (hs a List.mem_cons_self) pos (attrs.flatMap renderAttribute ++ tail)
    obtain ⟨seen', pos', h₂⟩ := ih h.tail _ (lookup_cons_of_distinct h hs _) pos₁
    refine ⟨seen', pos', ?_⟩
    rw [List.flatMap_cons, List.append_assoc, readAttributes_of_item h₁, h₂]
    simp [AttributeList.cons]

/-- A text that breaks off inside an attribute is not read as this attribute and others: too little
    is left for its key, value and quotes. -/
private theorem readAttributes_ne_of_prefix {a : Attribute} {cs : List Char}
    (hlt : cs.length < (renderAttribute a).length) (hpre : cs <+: renderAttribute a)
    (seen : List (List Char × Nat)) (pos : Nat) (attrs : List Attribute) :
    readAttributes seen pos cs ≠ ⟨a :: attrs, none⟩ := by
  intro hread
  cases hnext : nextAttribute seen pos cs with
  | done =>
    rw [readAttributes_of_done hnext] at hread
    cases hread
  | fault f =>
    rw [readAttributes_of_fault hnext] at hread
    cases hread
  | item key start value pos' rest =>
    rw [readAttributes_of_item hnext] at hread
    simp only [AttributeList.cons, AttributeList.mk.injEq, List.cons.injEq] at hread
    obtain ⟨⟨c, key', rfl, hc, -⟩, -, before, between, space, q, -, -, -, rfl⟩ :=
      nextAttribute_eq_item hnext
    have hkey := congrArg (fun b : Attribute => b.key.toList.length) hread.1.1
    have hvalue := congrArg (fun b : Attribute => b.value.toList.length) hread.1.1
    simp only [String.toList_ofList, List.length_cons] at hkey hvalue
    -- the space in front was read, too
    have hsp : before ≠ [] := by
      rintro rfl
      obtain ⟨t, ht⟩ := hpre
      simp only [renderAttribute, List.nil_append, List.cons_append, List.cons.injEq] at ht
      rw [ht.1] at hc
      exact absurd hc (by decide)
    -- a written attribute has one space and no others, so something else is missing
    have hlen : 0 < before.length := List.length_pos_iff.2 hsp
    simp only [renderAttribute, List.length_append, List.length_cons, List.length_nil] at hlt
    omega

/-- Attributes that break off earlier are not read as all of them. -/
theorem readAttributes_ne_of_cut {attrs : List Attribute} (h : AreWritable attrs)
    (seen : List (List Char × Nat)) (hs : ∀ a ∈ attrs, seen.lookup a.key.toList = none)
    (pos : Nat) {cs more : List Char} {c : Char}
    (hcs : attrs.flatMap renderAttribute = cs ++ c :: more) :
    readAttributes seen pos cs ≠ ⟨attrs, none⟩ := by
  induction attrs generalizing seen pos cs with
  | nil => simp at hcs
  | cons a attrs ih =>
    -- the cut is behind the first attribute or inside it
    have hsplit : (∃ cs', cs = renderAttribute a ++ cs' ∧
        attrs.flatMap renderAttribute = cs' ++ c :: more) ∨
        cs.length < (renderAttribute a).length ∧ cs <+: renderAttribute a := by
      rw [List.flatMap_cons, List.append_eq_append_iff] at hcs
      rcases hcs with h | ⟨_ | ⟨d, t⟩, ht, hmore⟩
      · exact .inl h
      · exact .inl ⟨[], by simpa using ht.symm, hmore.symm⟩
      · exact .inr ⟨by simp [ht], ⟨d :: t, ht.symm⟩⟩
    rcases hsplit with ⟨cs', rfl, hcs'⟩ | ⟨hlt, hpre⟩
    · -- the first attribute is whole, and one of the others breaks off
      intro hread
      obtain ⟨pos₁, h₁⟩ := nextAttribute_render (h.each a List.mem_cons_self)
        (hs a List.mem_cons_self) pos cs'
      rw [readAttributes_of_item h₁] at hread
      simp only [AttributeList.cons, AttributeList.mk.injEq, List.cons.injEq] at hread
      refine ih h.tail ((a.key.toList, pos + 1) :: seen) (lookup_cons_of_distinct h hs _) pos₁
        hcs' ?_
      rw [← hread.1.2, ← hread.2]
    · exact readAttributes_ne_of_prefix hlt hpre seen pos attrs

end IconCompiler.Markup
