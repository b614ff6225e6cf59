import Mathlib.Data.List.Chain
import IconCompiler.Proofs.Markup.EventView

/-!
# Events that the policy leaves as they are

The policy of cleaning takes events out in steps and then joins what has come together. What is left
has nothing in it that any step would take out, and nothing that would be joined: no step undoes
what an earlier one did. So the policy leaves it as it is.

## Key results

- `policy_eq_self`: the policy leaves settled and joined events as they are
- `settled_policy`, `areJoined_policy`: what the policy keeps is settled and joined
- `policy_policy`: the policy keeps all of what it kept
-/

namespace IconCompiler.Markup

namespace EventView

/-- Whether no step of the policy takes an event out, or an attribute of it, wherever it stands. -/
def IsKept : EventView → Prop
  | .start name attrs | .empty name attrs =>
    isDroppedElement name = false ∧ ∀ a ∈ attrs.items, isDroppedAttribute a.key = false
  | .close _ | .text _ | .cdata _ => True
  | .comment _ | .instruction _ | .doctype _ => False

/-- Whether a text has more than white space, or stands inside a `text` element. -/
def HasContent (opened : List String) : EventView → Prop
  | .text s => Text.isBlank s.toList = false ∨ "text" ∈ opened
  | _ => True

/-- The open names after an event, the innermost first. -/
def openedAfter (opened : List String) : EventView → List String
  | .start name _ => name :: opened
  | .close _ => opened.tail
  | _ => opened

/-- Whether no step of the policy takes anything out of events, with `opened` open at the first. -/
def Settled : (opened : List String) → List EventView → Prop
  | _, [] => True
  | opened, v :: vs => v.IsKept ∧ v.HasContent opened ∧ Settled (v.openedAfter opened) vs

/-- Whether the policy joins an event with the one behind it. -/
def JoinsWith : EventView → EventView → Prop
  | .text _, .text _ => True
  | .start _ _, .close _ => True
  | _, _ => False

/-- Whether no event is to be joined with the one behind it. -/
def AreJoined (vs : List EventView) : Prop :=
  vs.IsChain fun v w => ¬v.JoinsWith w

/-! ## What is left as it is -/

/-- Settled events are all of a kind that is kept. -/
private theorem Settled.isKept {opened : List String} {vs : List EventView}
    (h : Settled opened vs) :
    ∀ v ∈ vs, v.IsKept := by
  induction vs generalizing opened with
  | nil => exact List.forall_mem_nil _
  | cons v vs ih => exact List.forall_mem_cons.2 ⟨h.1, ih h.2.2⟩

/-- Without dropped elements, none is taken out. -/
private theorem withoutElements_eq_self {vs : List EventView} (h : ∀ v ∈ vs, v.IsKept) :
    withoutElements vs = vs := by
  induction vs with
  | nil => rw [withoutElements]
  | cons v vs ih =>
    obtain ⟨hv, hvs⟩ := List.forall_mem_cons.1 h
    cases v with
    -- no tag is dropped, so no events behind one are skipped
    | start name attrs | empty name attrs => simp [withoutElements, hv.1, ih hvs]
    | close | text | cdata | comment | instruction | doctype => simp [withoutElements, ih hvs]

/-- Without dropped attributes, none is taken out. -/
private theorem withoutDropped_eq_self {l : AttributeList}
    (h : ∀ a ∈ l.items, isDroppedAttribute a.key = false) : withoutDropped l = l := by
  have hitems : (l.items.filter fun a => !isDroppedAttribute a.key) = l.items := by
    rw [List.filter_eq_self]
    intro a ha
    simp [h a ha]
  rw [withoutDropped, hitems]

/-- An event that is kept loses no attributes. -/
private theorem withoutAttributes_eq_self {v : EventView} (h : v.IsKept) :
    v.withoutAttributes = v := by
  cases v with
  | start name attrs | empty name attrs => rw [withoutAttributes, withoutDropped_eq_self h.2]
  | close | text | cdata | comment | instruction | doctype => rfl

/-- Settled events lose no blank texts. -/
private theorem withoutBlanks_eq_self {opened : List String} {vs : List EventView}
    (h : Settled opened vs) : withoutBlanks opened vs = vs := by
  fun_induction withoutBlanks opened vs with
  | case1 => rfl
  | case2 opened name attrs vs ih => rw [ih h.2.2]
  | case3 opened name vs ih => rw [ih h.2.2]
  | case4 opened s vs hblank ih =>
    -- a blank text would stand outside `text` elements
    obtain ⟨hs, htext⟩ : Text.isBlank s.toList = true ∧ "text" ∉ opened := by simpa using hblank
    have hcontent : Text.isBlank s.toList = false ∨ "text" ∈ opened := h.2.1
    simp [hs, htext] at hcontent
  | case5 opened s vs hblank ih => rw [ih h.2.2]
  | case6 opened v vs hstart hclose htext ih =>
    have hopened : v.openedAfter opened = opened := by
      cases v with
      | start name attrs => exact absurd rfl (hstart name attrs)
      | close name => exact absurd rfl (hclose name)
      | empty | text | cdata | comment | instruction | doctype => rfl
    have hrest := h.2.2
    rw [hopened] at hrest
    rw [ih hrest]

/-- Joined events have no texts left to join. -/
private theorem joinTexts_eq_self {vs : List EventView} (h : AreJoined vs) : joinTexts vs = vs := by
  induction vs with
  | nil => rfl
  | cons v vs ih =>
    obtain ⟨hnext, hvs⟩ := List.isChain_cons.1 h
    have htail := ih hvs
    cases v with
    | text s =>
      have hne : ∀ t us, vs ≠ .text t :: us := by
        rintro t us rfl
        exact hnext (.text t) rfl trivial
      rw [joinTexts, htail, consText_of_ne s hne]
    | start | empty | close | cdata | comment | instruction | doctype => simp [joinTexts, htail]

/-- Joined events have no element left that ends right after its start. -/
private theorem joinEmpty_eq_self {vs : List EventView} (h : AreJoined vs) : joinEmpty vs = vs := by
  fun_induction joinEmpty vs with
  -- a start right in front of its end would be joined
  | case1 name attrs closed vs ih => exact absurd trivial (List.isChain_cons_cons.1 h).1
  | case2 v vs hne ih => rw [ih h.tail]
  | case3 => rfl

/-- The policy leaves settled and joined events as they are. -/
theorem policy_eq_self {vs : List EventView} (h : Settled [] vs) (hjoined : AreJoined vs) :
    policy vs = vs := by
  -- asides are not of a kind that is kept
  have hfilter : (vs.filter fun v => !v.isAside) = vs := by
    rw [List.filter_eq_self]
    intro v hv
    have hkept := h.isKept v hv
    cases v with
    | comment | instruction | doctype => exact absurd hkept id
    | start | empty | close | text | cdata => rfl
  have hmap : vs.map withoutAttributes = vs := by
    rw [List.map_congr_left fun v hv => withoutAttributes_eq_self (h.isKept v hv), List.map_id']
  rw [policy, hfilter, withoutElements_eq_self h.isKept, hmap, withoutBlanks_eq_self h,
    joinTexts_eq_self hjoined, joinEmpty_eq_self hjoined]

/-! ## What the steps leave -/

/-- What stands behind an element is an end of the events. -/
private theorem afterElement_suffix (inner : Nat) (vs : List EventView) :
    afterElement inner vs <:+ vs := by
  fun_induction afterElement inner vs with
  | case1 => exact List.suffix_rfl
  | case3 => exact List.suffix_cons _ _
  | case2 inner name attrs vs ih => exact ih.trans (List.suffix_cons _ _)
  | case4 inner name vs ih => exact ih.trans (List.suffix_cons _ _)
  | case5 inner v vs _ _ _ ih => exact ih.trans (List.suffix_cons _ _)

/-- Outside dropped elements, dropping attributes takes out the rest of what can be taken out
    anywhere. -/
private theorem isKept_withoutElements {vs : List EventView} (h : ∀ v ∈ vs, v.isAside = false) :
    ∀ v ∈ withoutElements vs, v.withoutAttributes.IsKept := by
  -- the attributes that are left are those that the filter let through
  have hattrs : ∀ (l : AttributeList), ∀ a ∈ (withoutDropped l).items,
      isDroppedAttribute a.key = false := by
    intro l a ha
    simpa using (List.mem_filter.1 ha).2
  fun_induction withoutElements vs with
  | case1 => exact List.forall_mem_nil _
  | case2 name attrs vs hdrop hlength ih =>
    -- the element is skipped up to its end; the events behind it are some of all
    exact ih fun v hv => h v (List.mem_cons_of_mem _ ((afterElement_suffix 0 vs).subset hv))
  | case3 name attrs vs hdrop ih =>
    obtain ⟨-, hvs⟩ := List.forall_mem_cons.1 h
    exact List.forall_mem_cons.2 ⟨⟨by simpa using hdrop, hattrs attrs⟩, ih hvs⟩
  | case4 name attrs vs hdrop ih => exact ih (List.forall_mem_cons.1 h).2
  | case5 name attrs vs hdrop ih =>
    obtain ⟨-, hvs⟩ := List.forall_mem_cons.1 h
    exact List.forall_mem_cons.2 ⟨⟨by simpa using hdrop, hattrs attrs⟩, ih hvs⟩
  | case6 v vs hstart hempty ih =>
    obtain ⟨hv, hvs⟩ := List.forall_mem_cons.1 h
    refine List.forall_mem_cons.2 ⟨?_, ih hvs⟩
    cases v with
    | start name attrs => exact absurd rfl (hstart name attrs)
    | empty name attrs => exact absurd rfl (hempty name attrs)
    | comment | instruction | doctype => cases hv
    | close | text | cdata => trivial

/-- Without blank texts, events that are kept are settled. -/
private theorem settled_withoutBlanks {opened : List String} {vs : List EventView}
    (h : ∀ v ∈ vs, v.IsKept) : Settled opened (withoutBlanks opened vs) := by
  fun_induction withoutBlanks opened vs with
  | case1 => trivial
  | case2 opened name attrs vs ih =>
    obtain ⟨hv, hvs⟩ := List.forall_mem_cons.1 h
    exact ⟨hv, trivial, ih hvs⟩
  | case3 opened name vs ih => exact ⟨trivial, trivial, ih (List.forall_mem_cons.1 h).2⟩
  | case4 opened s vs hblank ih => exact ih (List.forall_mem_cons.1 h).2
  | case5 opened s vs hblank ih =>
    -- a blank text that stays is inside a `text` element
    have hcontent : Text.isBlank s.toList = false ∨ "text" ∈ opened := by
      by_cases hs : Text.isBlank s.toList = true
      · exact .inr (by simpa [hs] using hblank)
      · exact .inl (by simpa using hs)
    exact ⟨trivial, hcontent, ih (List.forall_mem_cons.1 h).2⟩
  | case6 opened v vs hstart hclose htext ih =>
    obtain ⟨hv, hvs⟩ := List.forall_mem_cons.1 h
    cases v with
    | start name attrs => exact absurd rfl (hstart name attrs)
    | close name => exact absurd rfl (hclose name)
    | text s => exact absurd rfl (htext s)
    | empty | cdata | comment | instruction | doctype => exact ⟨hv, trivial, ih hvs⟩

/-- Joined with whatever follows it, a text still has content. -/
private theorem settled_joinTexts {opened : List String} {vs : List EventView}
    (h : Settled opened vs) :
    Settled opened (joinTexts vs) := by
  fun_induction joinTexts vs generalizing opened with
  | case1 => trivial
  | case2 s vs ih =>
    have hvs := ih h.2.2
    have hcontent : Text.isBlank s.toList = false ∨ "text" ∈ opened := h.2.1
    unfold consText
    split
    · rename_i t us heq
      rw [heq] at hvs
      -- two texts are blank together only if both of them are
      have hjoined : Text.isBlank (s ++ t).toList = false ∨ "text" ∈ opened := by
        rcases hcontent with hs | htext
        · have hall : s.toList.all Text.isWhiteSpace = false := hs
          exact .inl (by rw [String.toList_append, Text.isBlank, List.all_append, hall]; rfl)
        · exact .inr htext
      exact ⟨trivial, hjoined, hvs.2.2⟩
    · exact ⟨trivial, hcontent, hvs⟩
  | case3 v vs htext ih => exact ⟨h.1, h.2.1, ih h.2.2⟩

/-- An empty element has nothing inside it that would have to stay settled. -/
private theorem settled_joinEmpty {opened : List String} {vs : List EventView}
    (h : Settled opened vs) :
    Settled opened (joinEmpty vs) := by
  fun_induction joinEmpty vs generalizing opened with
  | case1 name attrs closed vs ih => exact ⟨h.1, trivial, ih h.2.2.2.2⟩
  | case2 v vs hne ih => exact ⟨h.1, h.2.1, ih h.2.2⟩
  | case3 => trivial

/-- What the policy keeps is settled. -/
theorem settled_policy (vs : List EventView) : Settled [] (policy vs) := by
  have hasides : ∀ v ∈ vs.filter (fun v => !v.isAside), v.isAside = false := by
    intro v hv
    simpa using (List.mem_filter.1 hv).2
  -- the first three steps leave what is kept, and the joining steps leave it settled
  have hkept : ∀ v ∈ (withoutElements (vs.filter fun v => !v.isAside)).map withoutAttributes,
      v.IsKept := by
    rw [List.forall_mem_map]
    exact isKept_withoutElements hasides
  exact settled_joinEmpty (settled_joinTexts (settled_withoutBlanks hkept))

/-! ## What is joined -/

/-- Behind a text no text stands any more. -/
private theorem isChain_joinTexts (vs : List EventView) :
    (joinTexts vs).IsChain fun v w => ∀ s t, ¬(v = .text s ∧ w = .text t) := by
  fun_induction joinTexts vs with
  | case1 => exact .nil
  | case2 s vs ih =>
    unfold consText
    split
    · rename_i t us heq
      rw [heq] at ih
      obtain ⟨hnext, hus⟩ := List.isChain_cons.1 ih
      -- behind the joined text stands what stood behind the second one
      exact hus.cons fun w hw _ r hr => hnext w hw t r ⟨rfl, hr.2⟩
    · rename_i hne
      refine ih.cons ?_
      rintro w hw _ r ⟨-, rfl⟩
      obtain ⟨us, hus⟩ := List.head?_eq_some_iff.1 hw
      exact hne r us hus
  | case3 v vs htext ih => exact ih.cons fun w _ s _ h => htext s h.1

/-- Joining empty elements puts nothing in front but empty elements. -/
private theorem head?_joinEmpty {vs : List EventView} :
    ∀ w ∈ (joinEmpty vs).head?, w ∈ vs.head? ∨ ∃ name attrs, w = .empty name attrs := by
  intro w hw
  unfold joinEmpty at hw
  split at hw
  · rename_i name attrs _ _
    exact .inr ⟨name, attrs, (Option.some.inj hw).symm⟩
  · exact .inl hw
  · cases hw

/-- If no text follows a text, joining empty elements leaves nothing to join. -/
private theorem areJoined_joinEmpty {vs : List EventView}
    (h : vs.IsChain fun v w => ∀ s t, ¬(v = .text s ∧ w = .text t)) : AreJoined (joinEmpty vs) := by
  fun_induction joinEmpty vs with
  -- an empty element is joined with nothing behind it
  | case1 name attrs closed vs ih => exact (ih h.tail.tail).cons fun w _ hw => hw
  | case2 v vs hne ih =>
    obtain ⟨hnext, hvs⟩ := List.isChain_cons.1 h
    refine (ih hvs).cons ?_
    intro w hw hjoins
    rcases head?_joinEmpty w hw with hw | ⟨name, attrs, rfl⟩
    · -- the event behind it is the one that was there
      obtain ⟨us, rfl⟩ := List.head?_eq_some_iff.1 hw
      cases v with
      | text s =>
        cases w with
        | text t => exact hnext (.text t) rfl s t ⟨rfl, rfl⟩
        | _ => exact hjoins
      | start name attrs =>
        cases w with
        | close closed => exact hne name attrs closed us rfl rfl
        | _ => exact hjoins
      | _ => exact hjoins
    · cases v <;> exact hjoins
  | case3 => exact .nil

theorem areJoined_policy (vs : List EventView) : AreJoined (policy vs) :=
  areJoined_joinEmpty (isChain_joinTexts _)

/-- The policy keeps all of what it kept. -/
theorem policy_policy (vs : List EventView) : policy (policy vs) = policy vs :=
  policy_eq_self (settled_policy vs) (areJoined_policy vs)

end EventView

end IconCompiler.Markup
