import IconCompiler.Proofs.Markup.FirstFault
import IconCompiler.Proofs.Markup.ReadingFronts

/-!
# The construct that an error is about

A source is refused for one of three things: a tag with a faulty attribute or style, a construct
that cannot be read, or an element that is left open at the end. Everything in front of it is sound.
The location of the error leads to the angle bracket that opens the tag or the construct, or to the
end of the source. Behind a byte order mark, which the reader skips without counting it, the offsets
of tags and constructs come out too small, and their locations lead to another place.

## Key results

- `error?_ofReading_eq_some_iff`: the fault of a source, and the text in front of it
- `location_of_blamed`: where the location of an error leads to
-/

namespace IconCompiler.Markup

open EventView Reading Location

/-! ## The place of a fault -/

/-- The character that a fault is reported at. At the end of a source there is none. -/
def Fault.mark? : Fault → Option Char
  | .unclosedElement _ => none
  | .doctypeWithoutName => some '>'
  | _ => some '<'

/-- Whether a text is read completely, without a fault, and leaves the elements `opened` open. -/
structure ReadsSoundly (cs : List Char) (opened : List String) : Prop where
  complete : (run [] 0 cs).ending = .complete opened
  sound : firstFaultOf (run [] 0 cs).events = none

/-- What can be wrong with a source, behind the text `before`: the text `place` starts with what is
    at fault. -/
inductive Blames : Fault → (before place : List Char) → Prop
  /-- The tag that opens here has a faulty attribute or style. -/
  | tag {f : Fault} {before cs rest : List Char} {opened : List String} {e : Event} {size : Nat}
    (front : ReadsSoundly before opened) (read : scanMarkup opened cs = .event e size rest)
    (fault : e.view.firstFault? = some f) : Blames f before ('<' :: cs)
  /-- The construct that opens here cannot be read. -/
  | construct {f : Fault} {before cs : List Char} {opened : List String} {shift : Nat}
    (front : ReadsSoundly before opened) (broken : scanMarkup opened cs = .fault f shift)
    (kind : f ≠ .doctypeWithoutName) : Blames f before ('<' :: cs)
  /-- The document type that closes here has no name. -/
  | doctype {before body rest : List Char} {opened : List String} {shift : Nat}
    (front : ReadsSoundly before opened)
    (broken : scanMarkup opened ('!' :: body ++ '>' :: rest) = .fault .doctypeWithoutName shift)
    (closes : cutBalanced 0 (body ++ '>' :: rest) = some (body, rest)) :
    Blames .doctypeWithoutName (before ++ '<' :: '!' :: body) ('>' :: rest)
  /-- The source ends here and leaves an element open. -/
  | leftOpen {before : List Char} {tag : String} {outer : List String}
    (front : ReadsSoundly before (tag :: outer)) : Blames (.unclosedElement tag) before []

/-- Whether a source is at fault at the place from which on it is `place`. -/
def IsBlamed (x : String) (f : Fault) (place : List Char) : Prop :=
  ∃ before, dropByteOrderMark x.toList = before ++ place ∧ Blames f before place

/-- The offset that is reported for a place of a source of `size` bytes: at its end the size, and
    elsewhere the bytes in front, which leave out a byte order mark. -/
def reportedOffset (size : Nat) (before : List Char) : (place : List Char) → Nat
  | [] => size
  | _ :: _ => byteLength before

/-! ## The mark of a fault -/

/-- A construct that cannot be read is reported where it opens, unless it is a document type without
    a name. -/
private theorem Breaks.opens {opened : List String} {cs : List Char} {f : Fault} {shift : Nat}
    (h : Breaks opened cs f shift) (hf : f ≠ .doctypeWithoutName) :
    f.mark? = some '<' ∧ shift = 0 := by
  cases h with
  | tag | unknown | comment | cdata | doctype | instruction => exact ⟨rfl, rfl⟩
  | close fault =>
    -- the name is not that of the innermost open element, or none is open
    unfold closeFault? at fault
    split at fault
    · cases fault
      exact ⟨rfl, rfl⟩
    · split at fault
      · cases fault
      · cases fault
        exact ⟨rfl, rfl⟩
  | nameless => exact absurd rfl hf

/-- A document type without a name is found to be one at its closing bracket. -/
theorem Breaks.closes {opened : List String} {cs : List Char} {shift : Nat}
    (h : Breaks opened cs .doctypeWithoutName shift) :
    ∃ body rest, cs = '!' :: body ++ '>' :: rest ∧
      cutBalanced 0 (body ++ '>' :: rest) = some (body, rest) ∧ shift = byteLength body + 2 := by
  -- no other construct is refused for a missing name
  cases h with
  | close fault =>
    unfold closeFault? at fault
    split at fault
    · cases fault
    · split at fault <;> cases fault
  | nameless closes => exact ⟨_, _, rfl, closes, rfl⟩

/-- What is wrong with a tag is reported where the tag opens. -/
private theorem mark?_of_firstFault? {e : Event} {f : Fault} (h : e.view.firstFault? = some f) :
    f.mark? = some '<' := by
  have htag : ∀ tag : Tag, tag.attributes.firstFault? = some f → f.mark? = some '<' := by
    intro tag htag
    have hread := error_of_error? (tag.error?_readAttributes.trans htag)
    rcases tag.readAttributes_eq_error hread with ⟨g, rfl⟩ | ⟨g, rfl, -⟩ <;> rfl
  cases e with
  | start tag | empty tag => exact htag tag h
  | close | text | cdata | comment | instruction | doctype => cases h

/-- The place of a fault starts with the character that the fault is reported at. -/
private theorem Blames.head?_place {f : Fault} {before place : List Char}
    (h : Blames f before place) :
    place.head? = f.mark? := by
  cases h with
  | tag front read fault => exact (mark?_of_firstFault? fault).symm
  | construct front broken kind =>
    exact ((breaks_of_scanMarkup broken).opens kind).1.symm
  | doctype | leftOpen => rfl

/-! ## Finding the place -/

/-- Behind events without a fault, the first fault is that of the others. -/
private theorem firstFaultOf_append {ls ls' : List Located} (h : firstFaultOf ls = none) :
    firstFaultOf (ls ++ ls') = firstFaultOf ls' := by
  rw [firstFaultOf, List.findSome?_append, show ls.findSome? _ = none from h, Option.none_or]
  rfl

/-- Behind a sound text, a reading is refused for what follows it. -/
theorem ReadsSoundly.fault {before place : List Char} {opened : List String} {size : Nat}
    (h : ReadsSoundly before opened) (hplace : ∀ c ∈ place.head?, c = '<') :
    (firstFaultOf (run [] 0 (before ++ place)).events).or
        ((run [] 0 (before ++ place)).ending.fault? size) =
      (firstFaultOf (run opened (byteLength before) place).events).or
        ((run opened (byteLength before) place).ending.fault? size) := by
  rw [run_append h.complete hplace, firstFaultOf_append h.sound, Nat.zero_add]

/-- The bracket and the mark of a declaration are two bytes. -/
private theorem byteLength_nameless (before body : List Char) :
    byteLength (before ++ '<' :: '!' :: body) = byteLength before + (byteLength body + 2) := by
  have hmarks : ('<').utf8Size = 1 ∧ ('!').utf8Size = 1 := ⟨rfl, rfl⟩
  rw [byteLength_append, byteLength_cons, byteLength_cons, hmarks.1, hmarks.2]
  omega

/-- A source that is blamed is refused. -/
theorem Blames.error?_ofReading {x : String} {f : Fault} {before place : List Char}
    (hx : dropByteOrderMark x.toList = before ++ place) (h : Blames f before place) :
    error? (Document.ofReading x.utf8ByteSize (ofText x)) =
      some (f, reportedOffset x.utf8ByteSize before place) := by
  rw [Markup.error?_ofReading, ofText, hx]
  cases h with
  | tag front read fault =>
    -- the first event behind the front is the tag
    rw [front.fault (by simp), run_event read]
    simp [Reading.cons, firstFaultOf, fault, reportedOffset]
  | @construct f before cs opened shift front broken kind =>
    obtain ⟨-, rfl⟩ := (breaks_of_scanMarkup broken).opens kind
    rw [front.fault (by simp), run_fault broken]
    rfl
  | @doctype before body rest opened shift front broken closes =>
    -- there is only one closing bracket that matches
    obtain ⟨body', rest', hcs, hcut, rfl⟩ := (breaks_of_scanMarkup broken).closes
    have htail : body ++ '>' :: rest = body' ++ '>' :: rest' := (List.cons.inj hcs).2
    rw [← htail, closes] at hcut
    cases hcut
    have hplace : before ++ '<' :: '!' :: body ++ '>' :: rest =
        before ++ '<' :: ('!' :: body ++ '>' :: rest) := by simp
    rw [hplace, front.fault (by simp), run_fault broken, reportedOffset, byteLength_nameless]
    rfl
  | leftOpen front =>
    rw [front.fault (by simp), run_nil]
    rfl

/-- A reading that is cut behind sound events has a sound text in front of the cut. -/
private theorem exists_sound_front {cs : List Char} {ls : List Located} {r : Reading}
    (h : run [] 0 cs = ⟨ls ++ r.events, r.ending⟩) (hls : firstFaultOf ls = none) :
    ∃ before rest opened, cs = before ++ rest ∧ ReadsSoundly before opened ∧
      run opened (byteLength before) rest = r := by
  obtain ⟨before, rest, opened, hcs, hbefore, hrest⟩ := exists_front h
  rw [Nat.zero_add] at hrest
  exact ⟨before, rest, opened, hcs, ⟨by rw [hbefore], by rw [hbefore]; exact hls⟩, hrest⟩

/-- A text with a faulty tag is blamed for the first one. -/
private theorem exists_blames_of_firstFault {cs : List Char} {f : Fault} {offset : Nat}
    (h : firstFaultOf (run [] 0 cs).events = some (f, offset)) (size : Nat) :
    ∃ before place, cs = before ++ place ∧ Blames f before place ∧
      offset = reportedOffset size before place := by
  obtain ⟨ls, l, ls', hevents, hl, hbefore⟩ := List.findSome?_eq_some_iff.1 h
  obtain ⟨f', hfault, hp⟩ := Option.map_eq_some_iff.1 hl
  cases hp
  have hrun : run [] 0 cs = ⟨ls ++ l :: ls', (run [] 0 cs).ending⟩ := by rw [← hevents]
  obtain ⟨before, rest, opened, rfl, hsound, hrest⟩ :=
    exists_sound_front (r := ⟨l :: ls', (run [] 0 cs).ending⟩) hrun
      (List.findSome?_eq_none_iff.2 hbefore)
  rcases run_eq_cons hrest with ⟨s, hs⟩ | ⟨cs', _, _, rfl, hoffset, hscan⟩
  · -- nothing can be wrong with a text
    rw [hs] at hfault
    cases hfault
  · exact ⟨before, _, rfl, .tag hsound hscan hfault, hoffset⟩

/-- A text whose events are sound is blamed for its ending. -/
private theorem exists_blames_of_ending {cs : List Char} {size : Nat} {f : Fault} {offset : Nat}
    (hevents : firstFaultOf (run [] 0 cs).events = none)
    (h : (run [] 0 cs).ending.fault? size = some (f, offset)) :
    ∃ before place, cs = before ++ place ∧ Blames f before place ∧
      offset = reportedOffset size before place := by
  have hrun : run [] 0 cs = ⟨(run [] 0 cs).events ++ [], (run [] 0 cs).ending⟩ := by
    rw [List.append_nil]
  obtain ⟨before, rest, opened, rfl, hsound, hrest⟩ :=
    exists_sound_front (r := ⟨[], (run [] 0 cs).ending⟩) hrun hevents
  rcases run_eq_nil hrest with ⟨rfl, hending⟩ | ⟨cs', f', shift, rfl, hscan, hending⟩
  · -- an element is left open at the end
    rw [hending] at h
    cases opened with
    | nil => cases h
    | cons tag outer =>
      cases h
      exact ⟨before, [], rfl, .leftOpen hsound, rfl⟩
  · rw [hending] at h
    cases h
    by_cases hf : f = .doctypeWithoutName
    · subst hf
      obtain ⟨body, behind, rfl, hcut, rfl⟩ := (breaks_of_scanMarkup hscan).closes
      refine ⟨before ++ '<' :: '!' :: body, '>' :: behind, by simp, .doctype hsound hscan hcut, ?_⟩
      exact (byteLength_nameless before body).symm
    · obtain ⟨-, rfl⟩ := (breaks_of_scanMarkup hscan).opens hf
      exact ⟨before, _, rfl, .construct hsound hscan hf, rfl⟩

/-- A source is refused exactly for what it is blamed for. -/
theorem error?_ofReading_eq_some_iff {x : String} {f : Fault} {offset : Nat} :
    error? (Document.ofReading x.utf8ByteSize (ofText x)) = some (f, offset) ↔
      ∃ before place, dropByteOrderMark x.toList = before ++ place ∧ Blames f before place ∧
        offset = reportedOffset x.utf8ByteSize before place := by
  constructor
  · intro h
    rw [error?_ofReading, ofText] at h
    -- a faulty tag comes before whatever is wrong with the ending
    cases hfirst : firstFaultOf (run [] 0 (dropByteOrderMark x.toList)).events with
    | some p =>
      rw [hfirst, Option.some_or] at h
      cases h
      exact exists_blames_of_firstFault hfirst _
    | none =>
      rw [hfirst, Option.none_or] at h
      exact exists_blames_of_ending hfirst h
  · intro h
    obtain ⟨before, place, hx, hblames, rfl⟩ := h
    exact hblames.error?_ofReading hx

/-! ## The location of an error -/

/-- A source is blamed for one thing only. -/
theorem IsBlamed.unique {x : String} {f f' : Fault} {place place' : List Char}
    (h : IsBlamed x f place) (h' : IsBlamed x f' place') : f' = f ∧ place' = place := by
  obtain ⟨before, hx, hblames⟩ := h
  obtain ⟨before', hx', hblames'⟩ := h'
  -- both are what the one error says
  have hsame := (hblames.error?_ofReading hx).symm.trans (hblames'.error?_ofReading hx')
  obtain ⟨hf, hoffset⟩ := Prod.mk.inj (Option.some.inj hsame)
  subst hf
  refine ⟨rfl, ?_⟩
  -- either both are the end, or as many bytes stand in front of both
  have hhead : place.head? = place'.head? := hblames.head?_place.trans hblames'.head?_place.symm
  cases place with
  | nil => exact List.head?_eq_none_iff.1 hhead.symm
  | cons c place =>
    cases place' with
    | nil => cases hhead
    | cons c' place' => exact (append_inj_of_byteLength (hx.symm.trans hx') hoffset).2.symm

/-- The offset that is reported for a place leads to it, unless a byte order mark is left out. -/
private theorem textFrom?_reportedOffset {x : String} {before place : List Char}
    (hx : dropByteOrderMark x.toList = before ++ place) :
    textFrom? x.toList (ofOffset x (reportedOffset x.utf8ByteSize before place)) = some place ↔
      x.toList.head? ≠ some '\uFEFF' ∨ place = [] := by
  cases place with
  | nil =>
    -- the size of the source counts the mark
    have hend := textFrom?_ofOffset (List.append_nil x.toList).symm
    rw [byteLength_toList] at hend
    exact iff_of_true hend (.inr rfl)
  | cons c place =>
    by_cases hmark : x.toList.head? = some '\uFEFF'
    · -- the bytes of the mark are missing
      obtain ⟨cs, hcs⟩ := List.head?_eq_some_iff.1 hmark
      rw [hcs, dropByteOrderMark, if_pos rfl] at hx
      have hwhole : x.toList = ('\uFEFF' :: before) ++ c :: place := by
        rw [hcs, hx, List.cons_append]
      have hless : byteLength before < byteLength ('\uFEFF' :: before) :=
        Nat.lt_add_of_pos_left (Char.utf8Size_pos _)
      exact iff_of_false (textFrom?_ofOffset_ne hwhole hless) (by simp [hmark])
    · rw [dropByteOrderMark_eq_self hmark] at hx
      exact iff_of_true (textFrom?_ofOffset hx) (.inl hmark)

/-- The error for a refused source gives the one fault that the source is blamed for. Its location
    leads to the place of that fault: to the angle bracket that opens the tag or the construct, to
    the closing bracket of a document type without a name, or to the end of the source if an element
    is left open. Behind a byte order mark it does so for an element that is left open, and for
    nothing else. -/
theorem location_of_blamed {x : String} {e : SourceError} (h : Document.parse x = .error e) :
    ∃ f place, e = .parse f e.location ∧ IsBlamed x f place ∧ place.head? = f.mark? ∧
      (∀ f' place', IsBlamed x f' place' → f' = f ∧ place' = place) ∧
        (textFrom? x.toList e.location = some place ↔
          x.toList.head? ≠ some '\uFEFF' ∨ ∃ tag, f = .unclosedElement tag) := by
  obtain ⟨f, hread, rfl⟩ := parse_eq_error h
  obtain ⟨before, place, hx, hblames, hoffset⟩ :=
    error?_ofReading_eq_some_iff.1 (congrArg error? hread)
  have hblamed : IsBlamed x f place := ⟨before, hx, hblames⟩
  -- only an element that is left open is reported at the end
  have hend : place = [] ↔ ∃ tag, f = .unclosedElement tag := by
    rw [← List.head?_eq_none_iff, hblames.head?_place]
    cases f <;> simp [Fault.mark?]
  have hlocation : (SourceError.atOffset f x (faultPlace x)).location =
      ofOffset x (reportedOffset x.utf8ByteSize before place) := by rw [← hoffset]; rfl
  refine ⟨f, place, rfl, hblamed, hblames.head?_place, fun f' place' => hblamed.unique, ?_⟩
  rw [hlocation, textFrom?_reportedOffset hx, hend]

/-- A source with a faulty tag on its second line, behind a character of two bytes. -/
def unquotedSource : String :=
  "<svg>é\n <g a=1/></svg>"

/-- Without a byte order mark, the location of a faulty tag leads to its angle bracket. -/
theorem location_of_blamed_unquotedSource :
    ∃ e place, Document.parse unquotedSource = .error e ∧ e.location = ⟨none, 2, 2⟩ ∧
      IsBlamed unquotedSource (.attribute (.unquotedValue 4)) place ∧ place.head? = some '<' ∧
        textFrom? unquotedSource.toList e.location = some place := by
  have hparse : Document.parse unquotedSource =
      .error (.parse (.attribute (.unquotedValue 4)) ⟨none, 2, 2⟩) :=
    error_of_error? (by decide +kernel)
  obtain ⟨f, place, hf, hblamed, hmark, -, hleads⟩ := location_of_blamed hparse
  cases hf
  exact ⟨_, place, hparse, rfl, hblamed, hmark, hleads.2 (.inl (by decide +kernel))⟩

/-- A source with a byte order mark and a faulty tag on its second line. -/
def markedSource : String :=
  "\uFEFF<svg>\n<g a=1/></svg>"

/-- Behind a byte order mark, the location of a faulty tag leads into the tag in front of it. -/
theorem location_ne_blamed_of_mark :
    ∃ e place, Document.parse markedSource = .error e ∧ e.location = ⟨none, 1, 5⟩ ∧
      IsBlamed markedSource (.attribute (.unquotedValue 4)) place ∧ place.head? = some '<' ∧
        textFrom? markedSource.toList e.location = some ("g>\n<g a=1/></svg>").toList := by
  have hparse : Document.parse markedSource =
      .error (.parse (.attribute (.unquotedValue 4)) ⟨none, 1, 5⟩) :=
    error_of_error? (by decide +kernel)
  -- six bytes stand in front of the tag, without the three of the mark
  have hread : error? (Document.ofReading markedSource.utf8ByteSize (ofText markedSource)) =
      some (.attribute (.unquotedValue 4), 6) := by decide +kernel
  obtain ⟨before, place, hx, hblames, -⟩ := error?_ofReading_eq_some_iff.1 hread
  exact ⟨_, place, hparse, rfl, ⟨before, hx, hblames⟩, hblames.head?_place, by decide +kernel⟩

end IconCompiler.Markup
