import IconCompiler.Markup.Event

/-!
# What the scanners cut off

Every scanner parts a text into what it takes, a mark and the rest, and the mark is the first one.
`isClosed` says which texts can stand before the bracket that ends a tag.

## Key results

- `cutTag_eq_some_iff`: a tag ends at the first closing bracket outside quotes
- `cutAt_singleton_eq_some_iff`: a quoted value ends at the first quote
- `cutAt_reading`: what was cut off is cut off again, whatever follows the mark
- `scans_of_scanMarkup`: the constructs, each with its text and what follows it
-/

namespace IconCompiler.Markup

/-- Whether a text that is scanned from inside the quote `open?` ends outside quotes, with no
    closing angle bracket outside them. -/
def isClosed : (open? : Option Char) → List Char → Bool
  | open?, [] => open?.isNone
  | none, c :: cs => c ≠ '>' && isClosed (if c = '"' || c = '\'' then some c else none) cs
  | some q, c :: cs => isClosed (if c = q then none else some q) cs

/-! ## Texts that close their quotes -/

/-- Behind a closed text, the rest is gone over without an open quote. -/
theorem isClosed_append {a b : List Char} {open? : Option Char} (ha : isClosed open? a = true) :
    isClosed open? (a ++ b) = isClosed none b := by
  -- over the text in front, with the quote that is open in it
  induction a generalizing open? with
  | nil =>
    cases open? with
    | none => rfl
    | some q => cases ha
  | cons c a ih =>
    cases open? with
    | none =>
      simp only [isClosed, Bool.and_eq_true] at ha
      rw [List.cons_append, isClosed, ha.1, ih ha.2, Bool.true_and]
    | some q => exact ih ha

/-- A text in which a quote is open stays open if the quote does not occur. -/
private theorem isClosed_some_of_not_mem {q : Char} {cs : List Char} (h : q ∉ cs) :
    isClosed (some q) cs = false := by
  induction cs with
  | nil => rfl
  | cons c cs ih =>
    rw [List.mem_cons, not_or] at h
    rw [isClosed, if_neg (Ne.symm h.1), ih h.2]

/-- A quoted text closes its quote. -/
theorem isClosed_quoted {q : Char} {v : List Char} (hq : q = '"' ∨ q = '\'') (hv : q ∉ v) :
    isClosed none (q :: (v ++ [q])) = true := by
  have hopen : ∀ v : List Char, q ∉ v → isClosed (some q) (v ++ [q]) = true := by
    intro v hv
    induction v with
    | nil => simp [isClosed]
    | cons c v ih =>
      rw [List.mem_cons, not_or] at hv
      rw [List.cons_append, isClosed, if_neg (Ne.symm hv.1), ih hv.2]
  rcases hq with rfl | rfl <;> simp [isClosed, hopen v hv]

/-- A text without quotes and brackets is closed. -/
theorem isClosed_of_plain {cs : List Char} (h : ∀ c ∈ cs, c ≠ '"' ∧ c ≠ '\'' ∧ c ≠ '>') :
    isClosed none cs = true := by
  induction cs with
  | nil => rfl
  | cons c cs ih =>
    obtain ⟨h₁, h₂, h₃⟩ := h c List.mem_cons_self
    simp [isClosed, h₁, h₂, h₃, ih fun d hd => h d (List.mem_cons_of_mem _ hd)]

/-- What stands before characters that are no quotes is closed if the whole is. -/
theorem isClosed_of_isClosed_append {a b : List Char} {open? : Option Char}
    (hb : ∀ c ∈ b, c ≠ '"' ∧ c ≠ '\'') (ho : ∀ q ∈ open?, q ∉ b)
    (h : isClosed open? (a ++ b) = true) : isClosed open? a = true := by
  -- the open quote changes along the text, and `ho` has to go along with it
  induction a generalizing open? with
  | nil =>
    cases open? with
    | none => rfl
    | some q =>
      rw [List.nil_append, isClosed_some_of_not_mem (ho q rfl)] at h
      cases h
  | cons c a ih =>
    cases open? with
    | none =>
      simp only [List.cons_append, isClosed, Bool.and_eq_true] at h ⊢
      -- a quote that is opened here is no character of `b`
      refine ⟨h.1, ih ?_ h.2⟩
      intro q hq hqb
      split at hq
      · cases hq
        rename_i hc
        simp [hb c hqb] at hc
      · cases hq
    | some q =>
      simp only [List.cons_append, isClosed] at h ⊢
      refine ih ?_ h
      intro q' hq'
      split at hq'
      · cases hq'
      · exact ho q' hq'

/-! ## Cutting at a mark -/

/-- A cut takes the mark out of the text. -/
theorem cutAt_eq_append {mark cs a b : List Char} (h : cutAt mark cs = some (a, b)) :
    cs = a ++ mark ++ b := by
  -- up to the place where the mark stands first
  induction cs generalizing a with
  | nil => simp [cutAt] at h
  | cons c cs ih =>
    simp only [cutAt] at h
    split at h
    · -- the mark stands here
      rename_i hp
      cases h
      obtain ⟨t, ht⟩ := List.isPrefixOf_iff_prefix.1 hp
      rw [← ht, List.nil_append, List.drop_left]
    · obtain ⟨⟨a', b'⟩, hab, heq⟩ := Option.map_eq_some_iff.1 h
      cases heq
      rw [List.cons_append, List.cons_append, ← ih hab]

/-- Whether the mark stands at a place of the text before it is decided by the text and the mark
    alone. -/
theorem cutAt_reading {mark cs a b : List Char} (hm : mark ≠ []) (h : cutAt mark cs = some (a, b))
    (rest : List Char) : cutAt mark (a ++ mark ++ rest) = some (a, rest) := by
  induction cs generalizing a with
  | nil => simp [cutAt] at h
  | cons c cs ih =>
    have happ := cutAt_eq_append h
    simp only [cutAt] at h
    split at h
    · cases h
      obtain ⟨m, ms, rfl⟩ := List.exists_cons_of_ne_nil hm
      rw [List.nil_append, List.cons_append, cutAt, ← List.cons_append,
        if_pos (List.isPrefixOf_iff_prefix.2 (List.prefix_append _ _)), List.drop_left]
    · -- the mark stands further on, and what is put after it does not bring it here
      rename_i hp
      obtain ⟨⟨a', b'⟩, hab, heq⟩ := Option.map_eq_some_iff.1 h
      cases heq
      have hp' : ¬mark.isPrefixOf (c :: (a' ++ mark ++ rest)) = true := by
        intro hpre
        apply hp
        -- the mark is no longer than `c :: a' ++ mark`, which both texts start with
        have hle : mark <+: c :: (a' ++ mark) :=
          List.prefix_of_prefix_length_le (List.isPrefixOf_iff_prefix.1 hpre)
            ⟨rest, by simp⟩ (by simp; omega)
        rw [happ, List.isPrefixOf_iff_prefix]
        exact hle.trans (List.prefix_append _ _)
      rw [List.cons_append, List.cons_append, cutAt, if_neg hp', ih hab]
      rfl

/-- A mark of one character is cut at where it stands first. -/
theorem cutAt_singleton_eq_some_iff {q : Char} {cs a b : List Char} :
    cutAt [q] cs = some (a, b) ↔ cs = a ++ q :: b ∧ q ∉ a := by
  constructor
  · intro h
    refine ⟨by simpa using cutAt_eq_append h, ?_⟩
    induction cs generalizing a with
    | nil => simp [cutAt] at h
    | cons c cs ih =>
      simp only [cutAt] at h
      split at h
      · cases h
        exact List.not_mem_nil
      · rename_i hp
        obtain ⟨⟨a', b'⟩, hab, heq⟩ := Option.map_eq_some_iff.1 h
        cases heq
        have hc : q ≠ c := fun hqc => hp (by simp [hqc])
        exact fun hmem => (List.mem_cons.1 hmem).elim hc (ih hab)
  · rintro ⟨rfl, ha⟩
    induction a with
    | nil => simp [cutAt]
    | cons c a ih =>
      rw [List.mem_cons, not_or] at ha
      rw [List.cons_append, cutAt, if_neg (by simpa using ha.1), ih ha.2]
      rfl

/-! ## Cutting at brackets -/

/-- A tag ends at the first closing bracket outside quotes. -/
theorem cutTag_eq_some_iff {open? : Option Char} {cs a b : List Char} :
    cutTag open? cs = some (a, b) ↔ cs = a ++ '>' :: b ∧ isClosed open? a = true := by
  constructor
  · intro h
    induction cs generalizing a open? with
    | nil => cases open? <;> simp [cutTag] at h
    | cons c cs ih =>
      cases open? with
      | none =>
        simp only [cutTag] at h
        split at h
        · -- a bracket outside quotes
          rename_i hc
          cases h
          exact ⟨by rw [hc, List.nil_append], rfl⟩
        · rename_i hc
          obtain ⟨⟨a', b'⟩, hab, heq⟩ := Option.map_eq_some_iff.1 h
          cases heq
          obtain ⟨h₁, h₂⟩ := ih hab
          refine ⟨by rw [h₁, List.cons_append], ?_⟩
          rw [isClosed, h₂, Bool.and_true]
          exact decide_eq_true hc
      | some q =>
        -- inside quotes a bracket is a character like any other
        simp only [cutTag] at h
        obtain ⟨⟨a', b'⟩, hab, heq⟩ := Option.map_eq_some_iff.1 h
        cases heq
        obtain ⟨h₁, h₂⟩ := ih hab
        exact ⟨by rw [h₁, List.cons_append], h₂⟩
  · rintro ⟨rfl, ha⟩
    -- over the text in front of the bracket, with the quote that is open in it
    induction a generalizing open? with
    | nil =>
      cases open? with
      | none => simp [cutTag]
      | some q => cases ha
    | cons c a ih =>
      cases open? with
      | none =>
        simp only [isClosed, Bool.and_eq_true, decide_eq_true_eq] at ha
        rw [List.cons_append, cutTag, if_neg ha.1, ih ha.2]
        rfl
      | some q =>
        rw [List.cons_append, cutTag, ih ha]
        rfl

/-- A cut takes the bracket that matches out of the text. -/
theorem cutBalanced_eq_append {depth : Nat} {cs a b : List Char}
    (h : cutBalanced depth cs = some (a, b)) : cs = a ++ '>' :: b := by
  -- with the number of brackets that are open inside
  induction cs generalizing a depth with
  | nil => simp [cutBalanced] at h
  | cons c cs ih =>
    simp only [cutBalanced] at h
    split at h
    · rename_i hc
      cases depth with
      | zero =>
        cases h
        rw [hc, List.nil_append]
      | succ d =>
        -- the bracket closes one that was opened inside
        obtain ⟨⟨a', b'⟩, hab, heq⟩ := Option.map_eq_some_iff.1 h
        cases heq
        rw [List.cons_append, ← ih hab]
    · obtain ⟨⟨a', b'⟩, hab, heq⟩ := Option.map_eq_some_iff.1 h
      cases heq
      rw [List.cons_append, ← ih hab]

/-! ## Constructs -/

/-- The mark that ends a CDATA section. -/
def cdataEnd : List Char :=
  [']', ']', '>']

/-- Whether a character can stand in front of a tag's content. -/
def opensTag (c : Char) : Prop :=
  c ≠ '!' ∧ c ≠ '?' ∧ c ≠ '/'

/-- What a construct can be: the text after its angle bracket, its event, and the text that follows
    it, while the elements `opened` are open. -/
inductive Scans (opened : List String) : List Char → Event → List Char → Prop
  | tag {content rest : List Char} (closed : isClosed none content = true)
    (front : ∀ c ∈ content.head?, opensTag c) :
    Scans opened (content ++ '>' :: rest) (tagEvent content) rest
  | close {content rest : List Char} (closed : isClosed none content = true)
    (name : opened.head? = some (closeName content)) :
    Scans opened ('/' :: content ++ '>' :: rest) (.close (closeName content)) rest
  | cdata {body rest : List Char} (first : ∀ rest, cutAt cdataEnd (body ++ cdataEnd ++ rest) =
      some (body, rest)) :
    Scans opened ('!' :: cdataOpen ++ body ++ cdataEnd ++ rest) (.cdata (String.ofList body)) rest
  | comment {body rest : List Char} :
    Scans opened ('!' :: '-' :: '-' :: body ++ ['-', '-', '>'] ++ rest)
      (.comment (String.ofList body)) rest
  | instruction {body rest : List Char} :
    Scans opened ('?' :: body ++ ['?', '>'] ++ rest) (.instruction (String.ofList body)) rest
  | doctype {body rest : List Char} :
    Scans opened ('!' :: body ++ '>' :: rest) (.doctype (String.ofList (body.drop 7))) rest

/-- What follows a construct is an end of the text. -/
theorem Scans.suffix {opened : List String} {cs rest : List Char} {e : Event}
    (h : Scans opened cs e rest) : rest <:+ cs := by
  cases h with
  | tag | close | doctype => exact (List.suffix_cons _ _).trans (List.suffix_append _ _)
  | cdata | comment | instruction => exact List.suffix_append _ _

/-- What is read as a comment is one. -/
private theorem scans_of_scanComment {opened : List String} {cs rest : List Char} {e : Event}
    {size : Nat} (h : scanComment cs = .event e size rest) : Scans opened ('!' :: cs) e rest := by
  unfold scanComment at h
  split at h
  · rename_i hp
    obtain ⟨cs', rfl⟩ := List.isPrefixOf_iff_prefix.1 hp
    split at h
    · rename_i hc
      cases h
      rw [show (['-', '-'] ++ cs').drop 2 = cs' from rfl] at hc
      rw [cutAt_eq_append hc]
      exact .comment
    · cases h
  · cases h

/-- What is read as a section is one, which ends at the first mark. -/
private theorem scans_of_scanCData {opened : List String} {cs rest : List Char} {e : Event}
    {size : Nat} (h : scanCData cs = .event e size rest) : Scans opened ('!' :: cs) e rest := by
  unfold scanCData at h
  split at h
  · rename_i hp
    obtain ⟨cs', rfl⟩ := List.isPrefixOf_iff_prefix.1 hp
    split at h
    · rename_i hc
      cases h
      rw [show (cdataOpen ++ cs').drop 7 = cs' from rfl] at hc
      -- the end was looked for from the front, so none stands further in front
      have hfirst := cutAt_reading (by simp) hc
      rw [cutAt_eq_append hc, ← List.append_assoc, ← List.append_assoc]
      exact .cdata hfirst
    · cases h
  · cases h

/-- What is read as a document type is one. -/
private theorem scans_of_scanDoctype {opened : List String} {cs rest : List Char} {e : Event}
    {size : Nat} (h : scanDoctype cs = .event e size rest) : Scans opened ('!' :: cs) e rest := by
  unfold scanDoctype at h
  split at h
  · rename_i hc
    split at h
    · split at h
      · cases h
      · cases h
        rw [cutBalanced_eq_append hc]
        exact .doctype
    · cases h
  · cases h

/-- What is read as an instruction is one. -/
private theorem scans_of_scanInstruction {opened : List String} {cs rest : List Char} {e : Event}
    {size : Nat} (h : scanInstruction cs = .event e size rest) :
    Scans opened ('?' :: cs) e rest := by
  unfold scanInstruction at h
  split at h
  · cases h
  · split at h
    · rename_i hc
      cases h
      rw [cutAt_eq_append hc]
      exact .instruction
    · cases h

/-- What is read as a closing tag has the name of the innermost open element. -/
private theorem scans_of_scanClose {opened : List String} {cs rest : List Char} {e : Event}
    {size : Nat} (h : scanClose opened cs = .event e size rest) :
    Scans opened ('/' :: cs) e rest := by
  unfold scanClose at h
  split at h
  · rename_i content rest' hc
    obtain ⟨rfl, hclosed⟩ := cutTag_eq_some_iff.1 hc
    split at h
    · cases h
    · rename_i hf
      cases h
      refine .close hclosed ?_
      -- without a fault, the name is that of the innermost open element
      unfold closeFault? at hf
      split at hf
      · cases hf
      · split at hf
        · rename_i heq
          rw [List.head?_cons, heq]
        · cases hf
  · cases h

/-- What is read as a tag is closed outside quotes. -/
private theorem scans_of_scanTag {opened : List String} {cs rest : List Char} {e : Event}
    {size : Nat} (hfront : ∀ c ∈ cs.head?, opensTag c)
    (h : scanTag cs = .event e size rest) : Scans opened cs e rest := by
  unfold scanTag at h
  split at h
  · rename_i content rest' hc
    obtain ⟨rfl, hclosed⟩ := cutTag_eq_some_iff.1 hc
    cases h
    refine .tag hclosed ?_
    intro c hmem
    apply hfront
    cases content with
    | nil => cases hmem
    | cons d content => exact hmem
  · cases h

/-- Every construct is one of these. -/
theorem scans_of_scanMarkup {opened : List String} {cs rest : List Char} {e : Event} {size : Nat}
    (h : scanMarkup opened cs = .event e size rest) : Scans opened cs e rest := by
  unfold scanMarkup at h
  split at h
  · cases h
  · exact scans_of_scanCData h
  · exact scans_of_scanComment h
  · exact scans_of_scanDoctype h
  · exact scans_of_scanDoctype h
  · cases h
  · exact scans_of_scanInstruction h
  · exact scans_of_scanClose h
  · rename_i c cs _ _ _ _ hbang hquestion hslash
    refine scans_of_scanTag ?_ h
    intro d hd
    cases hd
    exact ⟨hbang, hquestion, hslash⟩

/-- How a construct can fail to be read: the text after its angle bracket, the fault, and how many
    bytes behind the bracket the fault is found, while the elements `opened` are open. -/
inductive Breaks (opened : List String) : List Char → Fault → Nat → Prop
  | tag {cs : List Char} : Breaks opened cs .tagNotClosed 0
  | unknown {cs : List Char} : Breaks opened cs .unknownMarkup 0
  | comment {cs : List Char} : Breaks opened cs .commentNotClosed 0
  | cdata {cs : List Char} : Breaks opened cs .cdataNotClosed 0
  | doctype {cs : List Char} : Breaks opened cs .doctypeNotClosed 0
  | instruction {cs : List Char} : Breaks opened cs .instructionNotClosed 0
  | close {cs : List Char} {name : String} {f : Fault} (fault : closeFault? opened name = some f) :
    Breaks opened cs f 0
  | nameless {body rest : List Char}
    (closes : cutBalanced 0 (body ++ '>' :: rest) = some (body, rest)) :
    Breaks opened ('!' :: body ++ '>' :: rest) .doctypeWithoutName (byteLength body + 2)

/-- A comment breaks off without its end. -/
private theorem breaks_of_scanComment {opened : List String} {cs cs' : List Char} {f : Fault}
    {shift : Nat} (h : scanComment cs = .fault f shift) : Breaks opened cs' f shift := by
  unfold scanComment at h
  split at h
  · split at h
    · cases h
    · cases h
      exact .comment
  · cases h
    exact .comment

/-- A section breaks off without its end. -/
private theorem breaks_of_scanCData {opened : List String} {cs cs' : List Char} {f : Fault}
    {shift : Nat} (h : scanCData cs = .fault f shift) : Breaks opened cs' f shift := by
  unfold scanCData at h
  split at h
  · split at h
    · cases h
    · cases h
      exact .cdata
  · cases h
    exact .cdata

/-- A document type breaks off without its end, or has no name. -/
private theorem breaks_of_scanDoctype {opened : List String} {cs : List Char} {f : Fault}
    {shift : Nat} (h : scanDoctype cs = .fault f shift) : Breaks opened ('!' :: cs) f shift := by
  unfold scanDoctype at h
  split at h
  · rename_i body rest hc
    split at h
    · split at h
      · -- nothing but space follows the word
        cases h
        have happ := cutBalanced_eq_append hc
        rw [happ] at hc ⊢
        exact .nameless hc
      · cases h
    · cases h
      exact .doctype
  · cases h
    exact .doctype

/-- An instruction breaks off without its end. -/
private theorem breaks_of_scanInstruction {opened : List String} {cs cs' : List Char} {f : Fault}
    {shift : Nat} (h : scanInstruction cs = .fault f shift) : Breaks opened cs' f shift := by
  unfold scanInstruction at h
  split at h
  · cases h
    exact .instruction
  · split at h
    · cases h
    · cases h
      exact .instruction

/-- A closing tag breaks off without its bracket, or has another name than the innermost open
    element. -/
private theorem breaks_of_scanClose {opened : List String} {cs cs' : List Char} {f : Fault}
    {shift : Nat} (h : scanClose opened cs = .fault f shift) : Breaks opened cs' f shift := by
  unfold scanClose at h
  split at h
  · split at h
    · rename_i hfault
      cases h
      exact .close hfault
    · cases h
  · cases h
    exact .tag

/-- A tag breaks off without its bracket. -/
private theorem breaks_of_scanTag {opened : List String} {cs cs' : List Char} {f : Fault}
    {shift : Nat} (h : scanTag cs = .fault f shift) : Breaks opened cs' f shift := by
  unfold scanTag at h
  split at h
  · cases h
  · cases h
    exact .tag

/-- Every construct that cannot be read is one of these. -/
theorem breaks_of_scanMarkup {opened : List String} {cs : List Char} {f : Fault} {shift : Nat}
    (h : scanMarkup opened cs = .fault f shift) : Breaks opened cs f shift := by
  unfold scanMarkup at h
  split at h
  · cases h
    exact .tag
  · exact breaks_of_scanCData h
  · exact breaks_of_scanComment h
  · exact breaks_of_scanDoctype h
  · exact breaks_of_scanDoctype h
  · cases h
    exact .unknown
  · exact breaks_of_scanInstruction h
  · exact breaks_of_scanClose h
  · exact breaks_of_scanTag h

/-- A tag is read up to its bracket. -/
theorem scanMarkup_tag {opened : List String} {content rest : List Char}
    (hclosed : isClosed none content = true) (hfront : ∀ c ∈ content.head?, opensTag c) :
    scanMarkup opened (content ++ '>' :: rest) =
      .event (tagEvent content) (byteLength content + 2) rest := by
  have htag : scanTag (content ++ '>' :: rest) =
      .event (tagEvent content) (byteLength content + 2) rest := by
    rw [scanTag, cutTag_eq_some_iff.2 ⟨rfl, hclosed⟩]
  rw [← htag]
  -- the first character tells a tag from the other constructs
  cases content with
  | nil => rfl
  | cons c content =>
    obtain ⟨hbang, hquestion, hslash⟩ := hfront c rfl
    rw [List.cons_append]
    unfold scanMarkup
    split <;> simp_all

/-- A closing tag of the innermost open name is read. -/
theorem scanMarkup_close {opened : List String} {content rest : List Char}
    (hclosed : isClosed none content = true)
    (hname : opened.head? = some (closeName content)) :
    scanMarkup opened ('/' :: content ++ '>' :: rest) =
      .event (.close (closeName content)) (byteLength content + 3) rest := by
  obtain ⟨outer, rfl⟩ := List.head?_eq_some_iff.1 hname
  show scanClose _ (content ++ '>' :: rest) = _
  rw [scanClose, cutTag_eq_some_iff.2 ⟨rfl, hclosed⟩]
  simp [closeFault?]

/-- A CDATA section is read up to its mark. -/
theorem scanMarkup_cdata {opened : List String} {body rest : List Char}
    (hfirst : cutAt cdataEnd (body ++ cdataEnd ++ rest) = some (body, rest)) :
    scanMarkup opened ('!' :: cdataOpen ++ body ++ cdataEnd ++ rest) =
      .event (.cdata (String.ofList body)) (byteLength body + 12) rest := by
  show scanCData (cdataOpen ++ body ++ cdataEnd ++ rest) = _
  have hpre : cdataOpen.isPrefixOf (cdataOpen ++ body ++ cdataEnd ++ rest) = true :=
    List.isPrefixOf_iff_prefix.2 ⟨body ++ cdataEnd ++ rest, by simp⟩
  have hdrop : (cdataOpen ++ body ++ cdataEnd ++ rest).drop 7 = body ++ cdataEnd ++ rest := rfl
  have hfirst' : cutAt [']', ']', '>'] (body ++ cdataEnd ++ rest) = some (body, rest) := hfirst
  rw [scanCData, if_pos hpre, hdrop, hfirst']

end IconCompiler.Markup
