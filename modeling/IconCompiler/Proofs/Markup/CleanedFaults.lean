import IconCompiler.Proofs.Markup.FaultPlaces
import IconCompiler.Proofs.Markup.ReadingFronts

/-!
# Faults with and without cleaning

A fault that cleaning finds is placed in the source. A fault that is found afterwards is placed in
the cleaned source, behind what cleaning left of the front: it dropped some of the events there and
wrote the others anew. Both have the line and column that the fault has without cleaning only if
what was dropped and rewritten makes no difference to line feeds and columns.

## Key results

- `viewsOf_takeWhile`: the front of what is to be seen of pieces is that of their own front
- `faultPlace_of_isReadBack`: the fault of a cleaned source stands behind its kept front
- `location_iff_of_same_wording`: when errors with one wording have one location
-/

namespace IconCompiler.Markup

open EventView Reading

/-! ## What stays in front of a fault -/

instance : DecidablePred EventView.IsLegible
  | .start _ _ | .empty _ _ => inferInstanceAs (Decidable (_ ∧ (_ → _)))
  | .close _ | .text _ | .cdata _ | .comment _ | .instruction _ | .doctype _ => .isTrue trivial

/-- What cleaning writes for the events that it keeps in front of the first one that is not sound,
    or for all of them. -/
def keptFront (x : String) : List Char :=
  ((keptEvents x).takeWhile (·.IsSound)).flatMap EventView.renderChars

/-- Whether a cleaned source is read as the events that were written: their tags can be told from
    others, and no byte order mark comes to the front. -/
def IsReadBack (x : String) : Prop :=
  (∀ v ∈ keptEvents x, v.IsLegible) ∧
    ((keptEvents x).flatMap EventView.renderChars).head? ≠ some '\uFEFF'

instance (x : String) : Decidable (IsReadBack x) :=
  inferInstanceAs (Decidable (_ ∧ _))

/-- The characters of a source in front of its fault. -/
def faultFront (x : String) : List Char :=
  Location.within (faultPlace x) x.toList

/-- Whether the fault of a source is placed by cleaning, or by parsing what was cleaned, where it is
    placed without cleaning. If cleaning fails, no tag in front of the place has faulty attributes,
    not even one that would be dropped. If parsing fails afterwards, what cleaning leaves of the
    front of the source ends in the line and column in which that front ends. Where the cleaned
    source is not read as it was written, its fault has to be looked for in its text. -/
def FaultIsPlacedAlike (x : String) : Prop :=
  match (ofText x).kept with
  | .error (_, offset) => ∀ l ∈ (ofText x).events, l.offset < offset → l.event.view.HasNoFault
  | .ok pieces =>
    Location.EndAlike
      (if IsReadBack x then keptFront x else faultFront (String.ofList (renderPieces pieces)))
      (faultFront x)

/-! ## The fault of a cleaned source -/

private theorem takeWhile_consText (s : String) (vs : List EventView) :
    (consText s vs).takeWhile (·.IsSound) = consText s (vs.takeWhile (·.IsSound)) := by
  have htext : ∀ t, EventView.IsSound (.text t) := fun _ => trivial
  by_cases h : ∃ t us, vs = .text t :: us
  · obtain ⟨t, us, rfl⟩ := h
    simp [consText, htext]
  · have hne : ∀ t us, vs ≠ .text t :: us := fun t us hvs => h ⟨t, us, hvs⟩
    have hne' : ∀ t us, vs.takeWhile (·.IsSound) ≠ .text t :: us := by
      intro t us hvs
      cases vs with
      | nil => cases hvs
      | cons v vs =>
        rw [List.takeWhile_cons] at hvs
        split at hvs
        · exact hne t vs (by rw [(List.cons.inj hvs).1])
        · cases hvs
    rw [consText_of_ne s hne, consText_of_ne s hne', List.takeWhile_cons_of_pos (by simp [htext])]

/-- A piece that is seen as an event of its own is in the sound front exactly if the event is. -/
private theorem viewsOf_takeWhile_cons {p : Piece} {v : EventView} {rest : List Piece}
    (hsound : p.view.IsSound ↔ v.IsSound) (hview : viewsOf (p :: rest) = v :: viewsOf rest)
    (hfront : viewsOf (p :: rest.takeWhile (·.view.IsSound)) =
      v :: viewsOf (rest.takeWhile (·.view.IsSound)))
    (hrest : viewsOf (rest.takeWhile (·.view.IsSound)) = (viewsOf rest).takeWhile (·.IsSound)) :
    viewsOf ((p :: rest).takeWhile (·.view.IsSound)) =
      (viewsOf (p :: rest)).takeWhile (·.IsSound) := by
  rw [hview]
  -- the front goes on behind a sound piece, and ends before any other one
  by_cases h : p.view.IsSound
  · rw [List.takeWhile_cons_of_pos (by simpa using h), hfront, hrest,
      List.takeWhile_cons_of_pos (by simpa using hsound.1 h)]
  · rw [List.takeWhile_cons_of_neg (by simpa using h),
      List.takeWhile_cons_of_neg (by simpa using fun hv => h (hsound.2 hv))]
    rfl

/-- The sound front of what is to be seen of pieces is what is to be seen of their sound front: what
    is not sound is a tag with attributes, which is joined with nothing in front of it. -/
theorem viewsOf_takeWhile (pieces : List Piece) :
    viewsOf (pieces.takeWhile (·.view.IsSound)) = (viewsOf pieces).takeWhile (·.IsSound) := by
  have htext : ∀ s, (Piece.text s).view.IsSound := fun _ => trivial
  have hclosing : ∀ name, (Piece.closing name).view.IsSound := fun _ => trivial
  -- the recursion of `renderPieces` is also the one that joins an opening with its closing
  fun_induction renderPieces pieces with
  | case1 => rfl
  | case2 name attrs closed rest ih =>
    -- the two are seen as one empty element, which is as sound as the opening
    have hviews : ∀ ps, viewsOf (.opening name attrs :: .closing closed :: ps) =
        .empty name ⟨attrs, none⟩ :: viewsOf ps := fun _ => rfl
    have hiff : (Piece.opening name attrs).view.IsSound ↔
        EventView.IsSound (.empty name ⟨attrs, none⟩) := Iff.rfl
    by_cases hsound : (Piece.opening name attrs).view.IsSound
    · rw [List.takeWhile_cons_of_pos (by simpa using hsound),
        List.takeWhile_cons_of_pos (by simp [hclosing]), hviews, hviews, ih,
        List.takeWhile_cons_of_pos (by simpa using hiff.1 hsound)]
    · rw [List.takeWhile_cons_of_neg (by simpa using hsound), hviews,
        List.takeWhile_cons_of_neg (by simpa using fun hv => hsound (hiff.2 hv))]
      rfl
  | case3 name attrs rest hne ih =>
    -- the front of the rest does not start with a closing if the rest does not
    have hne' : ∀ closed ps, rest.takeWhile (·.view.IsSound) ≠ .closing closed :: ps := by
      intro closed ps hps
      cases rest with
      | nil => cases hps
      | cons p rest =>
        rw [List.takeWhile_cons] at hps
        split at hps
        · exact hne closed rest (by rw [(List.cons.inj hps).1])
        · cases hps
    exact viewsOf_takeWhile_cons Iff.rfl (viewsOf_opening hne) (viewsOf_opening hne') ih
  | case4 name attrs rest ih =>
    exact viewsOf_takeWhile_cons (v := .empty name ⟨attrs, none⟩) Iff.rfl rfl rfl ih
  | case5 name rest ih =>
    exact viewsOf_takeWhile_cons (v := .close name) Iff.rfl rfl rfl ih
  | case6 s rest ih =>
    rw [List.takeWhile_cons_of_pos (by simp [htext]), viewsOf_text, viewsOf_text, ih,
      takeWhile_consText]
  | case7 s rest ih =>
    exact viewsOf_takeWhile_cons (v := .cdata s) Iff.rfl rfl rfl ih

theorem Writable.of_append {opened : List String} {front back : List Piece}
    (h : Writable opened (front ++ back)) : Writable opened front := by
  induction front generalizing opened with
  | nil => trivial
  | cons p front ih => exact ⟨h.1, ih h.2⟩

/-- A source whose events are all sound, and whose reading is complete, is at fault at its end. -/
private theorem faultPlace_of_sound {y : String} {cs : List Char} {opened : List String}
    (hof : ofText y = run [] 0 cs) (hending : (run [] 0 cs).ending = .complete opened)
    (hsound : ∀ l ∈ (run [] 0 cs).events, l.event.view.IsSound) :
    faultPlace y = y.utf8ByteSize := by
  have hfind : (run [] 0 cs).events.find? (fun l => ¬l.event.view.IsSound) = none := by
    simpa [List.find?_eq_none] using hsound
  rw [faultPlace, hof, hfind]
  dsimp only
  rw [hending]

/-- A source with a sound front that goes on with a tag that is not sound is at fault behind its
    front. -/
private theorem faultPlace_of_front {y : String} {front rest : List Char} {opened : List String}
    {v : EventView} {vs : List EventView} (hof : ofText y = run [] 0 (front ++ rest))
    (hending : (run [] 0 front).ending = .complete opened)
    (hsound : ∀ l ∈ (run [] 0 front).events, l.event.view.IsSound)
    (hrest : ∀ c ∈ rest.head?, c = '<')
    (hviews : (run [] 0 (front ++ rest)).views = (run [] 0 front).views ++ v :: vs)
    (hv : ¬v.IsSound) : faultPlace y = byteLength front := by
  have hrun := run_append hending hrest
  -- the events behind the front start with the tag
  have hbehind : (run opened (0 + byteLength front) rest).views = v :: vs := by
    rw [hrun, views, List.map_append] at hviews
    exact List.append_cancel_left hviews
  obtain ⟨l, ls, hevents, rfl, -⟩ := List.map_eq_cons_iff.1 hbehind
  have hoffset : l.offset = byteLength front := by
    cases hreading : run opened (0 + byteLength front) rest with
    | mk events ending =>
      rw [hreading] at hevents
      obtain rfl : events = l :: ls := hevents
      rcases run_eq_cons hreading with ⟨s, hs⟩ | ⟨-, -, -, -, hoffset, -⟩
      · exact absurd (by rw [hs]; trivial) hv
      · rw [hoffset, Nat.zero_add]
  -- so the tag is the first event that is not sound
  have hfind : ((run [] 0 front).events ++ l :: ls).find? (fun l => ¬l.event.view.IsSound) =
      some l := by
    rw [List.find?_eq_some_iff_append]
    exact ⟨by simpa using hv, _, ls, rfl, by simpa using hsound⟩
  rw [faultPlace, hof, hrun, hevents, hfind]
  exact hoffset

/-- The front that cleaning leaves is read as the sound events in front of the fault. -/
private theorem views_run_keptFront {x : String} {pieces : List Piece}
    (hkeep : keepAll .zero (ofText x).events = .ok pieces)
    (hlegible : ∀ v ∈ keptEvents x, v.IsLegible) :
    (run [] 0 (keptFront x)).views = (keptEvents x).takeWhile (·.IsSound) ∧
      ∃ opened, (run [] 0 (keptFront x)).ending = .complete opened := by
  -- the front is made of pieces that can be written as well
  have hw : Writable [] (pieces.takeWhile (·.view.IsSound)) := by
    have hall : Writable [] pieces := writable_keepAll hkeep (delivers_run [] 0 _)
    rw [← List.takeWhile_append_dropWhile (p := fun p : Piece => decide p.view.IsSound)
      (l := pieces)] at hall
    exact hall.of_append
  have hviews : viewsOf (pieces.takeWhile (·.view.IsSound)) =
      (keptEvents x).takeWhile (·.IsSound) := by
    rw [viewsOf_takeWhile, viewsOf_keepAll hkeep]
  have hread := readsAs_renderPieces hw (by simp) 0
  rw [renderPieces_eq, hviews, ← keptFront] at hread
  -- what stands in front of the fault is as legible as the whole
  have hfront : ∀ v ∈ (keptEvents x).takeWhile (·.IsSound), v.IsLegible :=
    fun v hv => hlegible v ((List.takeWhile_prefix _).subset hv)
  exact ⟨hread.views.2 hfront, hread.complete hfront⟩

/-- The fault of a cleaned source that is read back stands behind what is written for the events in
    front of the first one that is not sound, or at the end of the source. -/
theorem faultPlace_of_isReadBack {x : String} {pieces : List Piece}
    (hkeep : keepAll .zero (ofText x).events = .ok pieces) (h : IsReadBack x) :
    (∃ rest, renderPieces pieces = keptFront x ++ rest) ∧
      faultPlace (String.ofList (renderPieces pieces)) = byteLength (keptFront x) := by
  obtain ⟨hlegible, hmark⟩ := h
  have hwritten : renderPieces pieces = (keptEvents x).flatMap EventView.renderChars := by
    rw [renderPieces_eq, viewsOf_keepAll hkeep]
  have hof : ofText (String.ofList (renderPieces pieces)) = run [] 0 (renderPieces pieces) := by
    rw [ofText, String.toList_ofList, hwritten, dropByteOrderMark_eq_self hmark]
  obtain ⟨hfront, opened, hending⟩ := views_run_keptFront hkeep hlegible
  -- the front was cut where the first event is not sound
  have hsound : ∀ l ∈ (run [] 0 (keptFront x)).events, l.event.view.IsSound := by
    intro l hl
    have hmem : l.event.view ∈ (run [] 0 (keptFront x)).views := List.mem_map_of_mem hl
    rw [hfront] at hmem
    simpa using List.mem_takeWhile_imp hmem
  have hsplit := List.takeWhile_append_dropWhile
    (p := fun v : EventView => decide v.IsSound) (l := keptEvents x)
  have hrest : renderPieces pieces = keptFront x ++
      ((keptEvents x).dropWhile (·.IsSound)).flatMap EventView.renderChars := by
    rw [hwritten, keptFront, ← List.flatMap_append, hsplit]
  refine ⟨⟨_, hrest⟩, ?_⟩
  cases hback : (keptEvents x).dropWhile (·.IsSound) with
  | nil =>
    -- nothing that stays is faulty
    rw [hback, List.flatMap_nil, List.append_nil] at hrest
    rw [hrest] at hof ⊢
    rw [faultPlace_of_sound hof hending hsound, ← byteLength_toList, String.toList_ofList]
  | cons v back =>
    have hv : ¬v.IsSound := by
      have hhead := List.head?_dropWhile_not (fun v : EventView => decide v.IsSound) (keptEvents x)
      rw [hback] at hhead
      simpa using hhead
    have hw : Writable [] pieces := writable_keepAll hkeep (delivers_run [] 0 _)
    have hviews := (readsAs_renderPieces hw (by simp) 0).views.2 (by rwa [viewsOf_keepAll hkeep])
    rw [viewsOf_keepAll hkeep, ← hsplit, hback, ← hfront] at hviews
    rw [hback] at hrest
    rw [hrest] at hof hviews ⊢
    refine faultPlace_of_front hof hending hsound ?_ hviews hv
    -- what is not sound is a tag, and those are written with a bracket in front
    intro c hc
    cases v with
    | start name attrs | empty name attrs =>
      simpa [EventView.renderChars, renderTagFront] using hc.symm
    | close | text | cdata | comment | instruction | doctype => exact absurd trivial hv

/-- The fault of a cleaned source is located behind its front. -/
private theorem ofOffset_cleaned {x : String} {pieces : List Piece}
    (hkept : (ofText x).kept = .ok pieces) :
    let cleaned := String.ofList (renderPieces pieces)
    Location.ofOffset cleaned (faultPlace cleaned) =
      Location.behind (if IsReadBack x then keptFront x else faultFront cleaned) := by
  intro cleaned
  split
  · rename_i hread
    obtain ⟨⟨rest, hrest⟩, hplace⟩ := faultPlace_of_isReadBack (keepAll_of_kept hkept) hread
    have htext : cleaned.toList = keptFront x ++ rest := by rw [String.toList_ofList, hrest]
    rw [hplace]
    exact Location.ofOffset_eq_behind htext (Location.isCut_self _ _)
  · exact Location.ofOffset_eq_behind_within cleaned _

/-! ## One fault in two pipelines -/

/-- A text loses no more than its byte order mark. -/
private theorem byteLength_dropByteOrderMark_le (cs : List Char) :
    byteLength (dropByteOrderMark cs) ≤ byteLength cs := by
  cases cs with
  | nil => exact Nat.le_refl _
  | cons c cs =>
    rw [dropByteOrderMark]
    split
    · exact Nat.le_add_left _ _
    · exact Nat.le_refl _

/-- An event whose fault is worded like one of an attribute has a faulty attribute. -/
private theorem Fault.IsOfEvent.not_hasNoFault {f : Fault} {v : EventView} {g : AttributeFault}
    (h : f.IsOfEvent v) (hsame : (Fault.attribute g).message = f.message) : ¬v.HasNoFault := by
  rcases h with ⟨g', rfl⟩ | ⟨g', rfl, hfault⟩
  · -- a fault of an entity is worded in other ways than one of an attribute
    have hfront : (Fault.attribute g).front = (Fault.entity g').front := by
      rw [Fault.front, hsame, Fault.front]
    rw [Fault.front_attribute] at hfront
    rcases Fault.front_entity g' with hg | hg | hg <;> rw [hg] at hfront <;> cases hfront
  · exact hfault

/-- Faulty attributes do not stand in front of the first event that is not sound. -/
private theorem eq_or_before_of_not_hasNoFault {ls before after : List Located} {l m : Located}
    (hpairs : ls.Pairwise Located.Before) (hls : ls = before ++ l :: after)
    (hbefore : ∀ l' ∈ before, l'.event.view.IsSound) (hm : m ∈ ls)
    (hfault : ¬m.event.view.HasNoFault) : m = l ∨ l.Before m := by
  rw [hls] at hpairs hm
  rcases List.mem_append.1 hm with hm | hm
  · exact absurd (hbefore m hm).hasNoFault hfault
  · rcases List.mem_cons.1 hm with rfl | hm
    · exact .inl rfl
    · exact .inr (List.rel_of_pairwise_cons (List.pairwise_append.1 hpairs).2.1 hm)

/-- Cleaning that fails at a tag places the fault where parsing does, if both word it alike, exactly
    if no tag in front is faulty. -/
private theorem ofOffset_eq_iff_of_keepAll {x : String} {f f' : Fault} {offset offset' : Nat}
    (hkeep : keepAll .zero (ofText x).events = .error (f, offset))
    (hparse : Document.ofReading x.utf8ByteSize (ofText x) = .error (f', offset'))
    (hsame : f.message = f'.message) :
    Location.ofOffset x offset = Location.ofOffset x offset' ↔
      ∀ l ∈ (ofText x).events, l.offset < offset → l.event.view.HasNoFault := by
  obtain ⟨l, hl, rfl, g, hg, rfl⟩ := keepAll_eq_error hkeep
  have hfault : ¬l.event.view.HasNoFault := by simp [EventView.hasNoFault_iff, hg]
  have hunsound : ¬l.event.view.IsSound := fun h => hfault h.hasNoFault
  rcases ofReading_eq_error hparse with
    ⟨before, l', after, hevents, hbefore, -, hkind, rfl⟩ | ⟨hall, -⟩
  · -- parsing fails for an attribute as well, at the first event that is not sound
    have hfault' := hkind.not_hasNoFault hsame
    have hafter : ∀ m ∈ (ofText x).events, ¬m.event.view.HasNoFault → m = l' ∨ l'.Before m :=
      fun m => eq_or_before_of_not_hasNoFault (offsets_run [] 0 _).2 hevents hbefore
    constructor
    · intro heq m hm hlt
      by_contra hm'
      have hle : l'.offset ≤ m.offset := by
        rcases hafter m hm hm' with rfl | hbefore
        · exact Nat.le_refl _
        · exact Nat.le_of_lt hbefore.1
      rcases hafter l hl hfault with rfl | hbefore
      · omega
      · -- the tag at which parsing stops is long enough to have a location of its own
        have hend := ((offsets_run [] 0 (dropByteOrderMark x.toList)).1 l hl).2
        have hmark := byteLength_dropByteOrderMark_le x.toList
        exact Location.ofOffset_ne (hbefore.2 hfault') (by omega) heq.symm
    · intro hall
      rcases hafter l hl hfault with rfl | hbefore
      · rfl
      · have hl' : l' ∈ (ofText x).events := by
          rw [hevents]
          exact List.mem_append_right _ List.mem_cons_self
        exact absurd (hall l' hl' hbefore.1) hfault'
  · exact absurd (hall l hl) hunsound

/-- Cleaning that fails where the reading of a source breaks off places the fault where parsing
    does, if both word it alike; then no tag is faulty. -/
private theorem place_eq_of_ending {x : String} {f f' : Fault} {offset offset' : Nat}
    (hending : (ofText x).ending = .broken f offset)
    (hparse : Document.ofReading x.utf8ByteSize (ofText x) = .error (f', offset'))
    (hsame : f.message = f'.message) :
    offset = offset' ∧ ∀ l ∈ (ofText x).events, l.event.view.HasNoFault := by
  rcases ofReading_eq_error hparse with ⟨-, l, -, -, -, -, hkind, -⟩ | ⟨hall, hend⟩
  · -- a fault of an event is worded differently
    have hreading : f'.IsOfReading := by
      have hf := isOfReading_of_ending hending
      rwa [Fault.IsOfReading, Fault.front, hsame] at hf
    exact absurd hreading hkind.not_isOfReading
  · refine ⟨?_, fun l hl => (hall l hl).hasNoFault⟩
    rw [hending] at hend
    rcases hend with hend | ⟨opened, hend, -⟩ <;> cases hend
    rfl

/-- Without cleaning, a refused source is refused at a place of its own. With cleaning and the same
    wording, it is refused at the same line and column exactly if the fault is placed alike. -/
theorem location_iff_of_same_wording {x : String} {e e' : SourceError}
    (hstandard : compileFragment x .standard = .error e)
    (hidentity : compileFragment x .identity = .error e') (hsame : e.wording = e'.wording) :
    e'.location = Location.ofOffset x (faultPlace x) ∧
      (e.location = e'.location ↔ FaultIsPlacedAlike x) := by
  -- without cleaning, the source is parsed as it stands
  have hparse : Document.parse x = .error e' := by
    rw [compileFragment] at hidentity
    cases hdoc : Document.parse x with
    | ok doc => simp [Cleaner.identity, hdoc] at hidentity
    | error e' => simpa [Cleaner.identity, hdoc] using hidentity
  obtain ⟨f', hreading, rfl⟩ := parse_eq_error hparse
  refine ⟨rfl, ?_⟩
  rw [FaultIsPlacedAlike]
  rw [compileFragment, Cleaner.standard, clean] at hstandard
  cases hkept : (ofText x).kept with
  | error p =>
    obtain ⟨f, offset⟩ := p
    rw [hkept] at hstandard
    cases hstandard
    -- cleaning fails at a tag, or where the reading breaks off
    rw [Reading.kept] at hkept
    cases hkeep : keepAll .zero (ofText x).events with
    | error p =>
      rw [hkeep] at hkept
      cases hkept
      exact ofOffset_eq_iff_of_keepAll hkeep hreading hsame
    | ok pieces =>
      rw [hkeep] at hkept
      cases hend : (ofText x).ending with
      | complete opened =>
        rw [hend] at hkept
        cases hkept
      | broken f₀ offset₀ =>
        rw [hend] at hkept
        cases hkept
        obtain ⟨rfl, hall⟩ := place_eq_of_ending hend hreading hsame
        exact iff_of_true rfl fun l hl _ => hall l hl
  | ok pieces =>
    rw [hkept] at hstandard
    dsimp only at hstandard ⊢
    cases hdoc : Document.parse (String.ofList (renderPieces pieces)) with
    | ok doc =>
      rw [hdoc] at hstandard
      cases hstandard
    | error e₀ =>
      rw [hdoc] at hstandard
      cases hstandard
      obtain ⟨f, -, rfl⟩ := parse_eq_error hdoc
      show Location.ofOffset _ _ = Location.ofOffset x (faultPlace x) ↔ _
      -- both places are ends of fronts, and locations tell fronts apart by their ends
      rw [ofOffset_cleaned hkept, Location.ofOffset_eq_behind_within x, Location.behind_eq_iff]
      exact Iff.rfl

/-- A source with a faulty tag behind a declaration, a dropped element and two line feeds, which
    cleaning leaves out. -/
def lateFaultSource : String :=
  "<?xml?>\n<svg><title>t</title>\n<g a=1/></svg>"

/-- A source with a faulty style behind a comment, which cleaning leaves out, and a value, which it
    writes with other quotes. Both are on an earlier line. -/
def restyledSource : String :=
  "<svg a='1'><!-- c -->x\n<g style='&x;'/></svg>"

/-- The fault that cleaning finds, and the one that is found in the cleaned source, are where they
    are without cleaning. -/
theorem location_of_late_faults :
    (∃ e e', compileFragment lateFaultSource .standard = .error e ∧
      compileFragment lateFaultSource .identity = .error e' ∧ e.wording = e'.wording ∧
        e'.location = ⟨none, 3, 1⟩ ∧ e.location = e'.location) ∧
    ∃ e e', compileFragment restyledSource .standard = .error e ∧
      compileFragment restyledSource .identity = .error e' ∧ e.wording = e'.wording ∧
        e'.location = ⟨none, 2, 1⟩ ∧ e.location = e'.location := by
  constructor
  · -- cleaning itself finds the fault of this one
    let e : SourceError := .parse (.attribute (.unquotedValue 4)) ⟨none, 3, 1⟩
    have hstandard : compileFragment lateFaultSource .standard = .error e :=
      error_of_error? (by decide +kernel)
    have hidentity : compileFragment lateFaultSource .identity = .error e :=
      error_of_error? (by decide +kernel)
    have hplaced : FaultIsPlacedAlike lateFaultSource := by
      have hkept : (ofText lateFaultSource).kept = .error (.attribute (.unquotedValue 4), 30) :=
        error_of_error? (by decide +kernel)
      have hall : ∀ l ∈ (ofText lateFaultSource).events, l.offset < 30 →
          l.event.view.IsSound := by decide +kernel
      rw [FaultIsPlacedAlike, hkept]
      exact fun l hl hlt => (hall l hl hlt).hasNoFault
    obtain ⟨-, hiff⟩ := location_iff_of_same_wording hstandard hidentity rfl
    exact ⟨e, e, hstandard, hidentity, rfl, rfl, hiff.2 hplaced⟩
  · -- the fault of this one is left to parsing
    let e : SourceError := .parse (.entity (.unrecognized 1 2 "x")) ⟨none, 2, 1⟩
    have hstandard : compileFragment restyledSource .standard = .error e :=
      error_of_error? (by decide +kernel)
    have hidentity : compileFragment restyledSource .identity = .error e :=
      error_of_error? (by decide +kernel)
    have hplaced : FaultIsPlacedAlike restyledSource := by
      have hread : IsReadBack restyledSource := by decide +kernel
      have hfronts : keptFront restyledSource = "<svg a=\"1\">x\n".toList ∧
          faultFront restyledSource = "<svg a='1'><!-- c -->x\n".toList := by decide +kernel
      have hkept : (ofText restyledSource).kept.toOption.isSome = true := by decide +kernel
      rw [FaultIsPlacedAlike]
      cases hpieces : (ofText restyledSource).kept with
      | error e =>
        rw [hpieces] at hkept
        cases hkept
      | ok pieces =>
        show Location.EndAlike _ _
        rw [if_pos hread, hfronts.1, hfronts.2]
        exact ⟨by decide, by decide⟩
    obtain ⟨-, hiff⟩ := location_iff_of_same_wording hstandard hidentity rfl
    exact ⟨e, e, hstandard, hidentity, rfl, rfl, hiff.2 hplaced⟩

/-- An element that is left open is reported at the end of the cleaned source, here behind the six
    characters that cleaning leaves and not behind all sixteen. -/
theorem location_ne_of_comment :
    ∃ e e', compileFragment "<!-- c --><svg>" .standard = .error e ∧
      compileFragment "<!-- c --><svg>" .identity = .error e' ∧ e.wording = e'.wording ∧
        e.location = ⟨none, 1, 6⟩ ∧ e'.location = ⟨none, 1, 16⟩ := by
  refine ⟨.parse (.unclosedElement "svg") ⟨none, 1, 6⟩,
    .parse (.unclosedElement "svg") ⟨none, 1, 16⟩, ?_, ?_, rfl, rfl, rfl⟩
  · exact error_of_error? (by decide +kernel)
  · exact error_of_error? (by decide +kernel)

end IconCompiler.Markup
