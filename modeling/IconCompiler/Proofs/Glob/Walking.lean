import IconCompiler.Glob.Walk
import IconCompiler.Proofs.FileSystem.Resolution
import IconCompiler.Proofs.Glob.Escaping

/-!
# Where walks lead

A walk only adds to the path at which it starts, once it has left the current directory; a dot at
the front is lost when it leaves. A component that is an escaped name adds that name and nothing
else.

## Key results

- `startsWith_of_mem_walk`: what a walk finds starts as the walk does
- `walk_sourcePart`, `mem_walk_sourcePart`: an escaped name is added as it is
- `exists_of_mem_walk_of_isCurrent`: where a walk along escaped names leaves off
-/

namespace IconCompiler.Glob

open IconCompiler.Path

/-! ## What a walk adds -/

/-- Whether a path with some text starts with the given components. -/
structure StartsWith (front : List PathComponent) (q : Path) : Prop where
  units_ne_nil : q.units ≠ []
  front : front <+: q.components

/-- Whether components say more than that a path starts at the current directory. -/
structure HasLeft (front : List PathComponent) : Prop where
  ne_nil : front ≠ []
  ne_current : front ≠ [.current]

/-- A path that has left is not the current directory. -/
private theorem StartsWith.isCurrent_eq_false {front : List PathComponent} {q : Path}
    (h : StartsWith front q) (hf : HasLeft front) : isCurrent q = false := by
  rw [← Bool.not_eq_true, isCurrent_iff]
  intro hq
  have hpre := h.front
  rw [hq] at hpre
  rcases List.prefix_cons_iff.1 hpre with rfl | ⟨rest, rfl, hrest⟩
  · exact hf.ne_nil rfl
  · exact hf.ne_current (by rw [List.prefix_nil.1 hrest])

/-- A name without slashes is a relative path. -/
theorem isAbsolute_of_slash_not_mem {n : FileName} (hn : slash ∉ n) :
    (Path.mk n).isAbsolute = false := by
  cases n with
  | nil => rfl
  | cons u n =>
    rw [List.mem_cons, not_or] at hn
    simpa [isAbsolute] using Ne.symm hn.1

/-- A joined path has some text if the first one has. -/
private theorem units_join_ne_nil {p : Path} (hp : p.units ≠ []) (n : FileName) :
    (p.join ⟨n⟩).units ≠ [] := by
  rw [join]
  split
  · rename_i habs
    intro hnil
    rw [isAbsolute, hnil] at habs
    cases habs
  · split <;> simp [hp]

/-- A name that is joined leaves the front as it is. -/
theorem StartsWith.join {front : List PathComponent} {p : Path} (h : StartsWith front p)
    {n : FileName} (hn : slash ∉ n) : StartsWith front (p.join ⟨n⟩) :=
  ⟨units_join_ne_nil h.units_ne_nil n,
    h.front.trans (components_prefix_join p (isAbsolute_of_slash_not_mem hn))⟩

/-- A walk that adds a name leaves the front as it is. -/
theorem StartsWith.extend {front : List PathComponent} {p : Path} (h : StartsWith front p)
    (hf : HasLeft front) {n : FileName} (hn : slash ∉ n) : StartsWith front (extend p n) := by
  rw [Glob.extend, if_neg (by simp [h.isCurrent_eq_false hf])]
  exact h.join hn

mutual

/-- What holds of a label and is passed on to longer ones holds of all labels of a listing. -/
private theorem forall_mem_listing {α : Type} {extend : α → FileName → α} {P : α → Prop}
    (hstep : ∀ a n, P a → slash ∉ n → P (extend a n)) {a : α} (ha : P a) :
    (t : FileTree) → t.WellNamed → ∀ e ∈ t.listing extend a, P e.1
  | .file _, _ => List.forall_mem_nil _
  | .dir es, ht => by
    cases ht with
    | dir names trees => exact forall_mem_listEntries hstep ha es names trees

/-- What holds of a label and is passed on to longer ones holds of all labels of a directory's
    entries. -/
private theorem forall_mem_listEntries {α : Type} {extend : α → FileName → α} {P : α → Prop}
    (hstep : ∀ a n, P a → slash ∉ n → P (extend a n)) {a : α} (ha : P a) :
    (es : List (FileName × FileTree)) → (∀ e ∈ es, FileName.IsFileName e.1) →
      (∀ e ∈ es, FileTree.WellNamed e.2) → ∀ e ∈ FileTree.listEntries extend a es, P e.1
  | [], _, _ => List.forall_mem_nil _
  | (name, t) :: es, names, trees => by
    intro e he
    have hname : P (extend a name) := hstep a name ha (names _ List.mem_cons_self).no_slash
    rw [FileTree.listEntries, List.cons_append, List.mem_cons, List.mem_append] at he
    rcases he with rfl | he | he
    · exact hname
    · exact forall_mem_listing hstep hname t (trees _ List.mem_cons_self) e he
    · exact forall_mem_listEntries hstep ha es (fun e he => names e (List.mem_cons_of_mem _ he))
        (fun e he => trees e (List.mem_cons_of_mem _ he)) e he

end

/-- Whether a component, if it is a name, is one without slashes. -/
def Part.IsSlashFree : Part → Prop
  | .literal cs => '/' ∉ cs
  | _ => True

variable {fs : FileSystem}

/-- What a path finds stands in the tree. -/
private theorem exists_at?_of_find? {p : Path} {t : FileTree} (h : fs.find? p = some t) :
    ∃ k, fs.tree.at? k = some t := by
  unfold FileSystem.find? at h
  split at h
  · rename_i trail hp
    obtain rfl := Option.some.inj h
    -- what a path finds stands where its way ends
    have hway := FileSystem.isWay_of_resolveFrom .root (FileSystem.resolve_eq_ok hp).2
    exact ⟨_, hway.at?_keyOf⟩
  · cases h

/-- What a path names in a well-named tree is well-named. -/
private theorem wellNamed_of_find? (hn : fs.tree.WellNamed) {p : Path} {t : FileTree}
    (h : fs.find? p = some t) : t.WellNamed := by
  obtain ⟨k, hk⟩ := exists_at?_of_find? h
  exact hn.at? hk

/-- The names in a directory hold no slash. -/
private theorem slash_not_mem_of_mem_children (hn : fs.tree.WellNamed) {p : Path} {n : FileName}
    (h : n ∈ fs.children p) : slash ∉ n := by
  unfold FileSystem.children at h
  split at h
  · rename_i t ht
    obtain ⟨e, he, rfl⟩ := List.mem_map.1 h
    exact ((wellNamed_of_find? hn ht).isFileName he).no_slash
  · cases h

/-- The dot and the double dot hold no slash. -/
private theorem slash_not_mem_of_mem_specialNames {items : List Token} {n : FileName}
    (h : n ∈ specialNames items) : slash ∉ n := by
  unfold specialNames at h
  split at h
  · rcases List.mem_cons.1 (List.mem_filter.1 h).1 with rfl | h
    · decide
    · rw [List.mem_singleton.1 h]
      decide
  · cases h

/-- What lies below a directory starts as the directory does. -/
private theorem startsWith_of_mem_entriesBelow (hn : fs.tree.WellNamed) {front : List PathComponent}
    (hf : HasLeft front) {p : Path} (hp : StartsWith front p) {e : Path × FileName}
    (h : e ∈ entriesBelow fs p) : StartsWith front e.1 := by
  unfold entriesBelow at h
  split at h
  · rename_i t ht
    obtain ⟨e', he', rfl⟩ := List.mem_map.1 h
    exact forall_mem_listing (fun a n ha hslash => ha.extend hf hslash) hp t
      (wellNamed_of_find? hn ht) e' he'
  · cases h

/-- What a walk finds starts as the walk does. -/
theorem startsWith_of_mem_walk (hn : fs.tree.WellNamed) {front : List PathComponent}
    (hf : HasLeft front) {parts : List Part} (hparts : ∀ part ∈ parts, part.IsSlashFree) {p : Path}
    (hp : StartsWith front p) : ∀ q ∈ walk fs parts p, StartsWith front q := by
  intro q hq
  -- every step of the walk puts a name without slashes behind the path, and keeps its front
  fun_induction walk fs parts p with
  | case1 p =>
    rw [List.mem_singleton.1 hq]
    exact hp
  | case2 cs rest p _ ih =>
    have hslash := FileName.slash_not_mem_ofChars (hparts _ List.mem_cons_self)
    exact ih (fun part h => hparts part (List.mem_cons_of_mem _ h)) (hp.extend hf hslash) hq
  | case3 => cases hq
  | case4 items rest p _ ihChild ihSpecial =>
    have hrest : ∀ part ∈ rest, part.IsSlashFree :=
      fun part h => hparts part (List.mem_cons_of_mem _ h)
    rcases List.mem_append.1 hq with hq | hq
    · obtain ⟨n, hmem, hq⟩ := List.mem_flatMap.1 hq
      have hslash := slash_not_mem_of_mem_children hn (List.mem_filter.1 hmem).1
      exact ihChild n hrest (hp.extend hf hslash) hq
    · obtain ⟨n, hmem, hq⟩ := List.mem_flatMap.1 hq
      exact ihSpecial n hrest (hp.join (slash_not_mem_of_mem_specialNames hmem)) hq
  | case5 => cases hq
  | case6 p =>
    obtain ⟨e, he, rfl⟩ := List.mem_map.1 (List.mem_filter.1 hq).1
    exact startsWith_of_mem_entriesBelow hn hf hp he
  | case7 rest p ih => exact ih (fun part h => hparts part (List.mem_cons_of_mem _ h)) hp hq
  | case8 part rest p _ ih =>
    obtain ⟨e, hmem, hq⟩ := List.mem_flatMap.1 hq
    have hbelow := startsWith_of_mem_entriesBelow hn hf hp (List.mem_filter.1 hmem).1
    exact ih e (fun part h => hparts part (List.mem_cons_of_mem _ (List.mem_cons_of_mem _ h)))
      hbelow hq

/-! ## Escaped names -/

/-- The component of an escaped name. -/
def sourcePart (name : List Char) : Part :=
  .ofTokens (name.map exactToken)

/-- An escaped name is a name as it stands, unless some character had to be escaped. -/
private theorem sourcePart_eq (name : List Char) : sourcePart name =
    if name.any isSpecial then .wild (name.map exactToken) else .literal name := by
  rw [sourcePart, Part.ofTokens, literal?_map_exactToken]
  by_cases hs : name.any isSpecial = true
  · -- the two asterisks are no item of an escaped character
    have hne : name.map exactToken ≠ [.directories] := by
      intro h
      obtain ⟨c, -, hc⟩ := List.mem_map.1 (h ▸ List.mem_singleton_self Token.directories)
      rw [exactToken] at hc
      split at hc <;> cases hc
    simp [hs, hne]
  · simp [hs]

/-- The items of an escaped name match that name alone. -/
private theorem eq_of_matchesFileName {name : List Char} {n : FileName}
    (h : matchesFileName (name.map exactToken) n = true) : n = FileName.ofChars name := by
  unfold matchesFileName at h
  split at h
  · rename_i cs hcs
    rw [matchName_map_exactToken, decide_eq_true_eq] at h
    rw [FileName.eq_ofChars_of_text? hcs, h]
  · cases h

/-- Items match a name that is a text as they match the text. -/
theorem matchesFileName_ofChars (items : List Token) (cs : List Char) :
    matchesFileName items (FileName.ofChars cs) = matchName items cs := by
  rw [matchesFileName, FileName.text?_ofChars]

/-- The items of an escaped name match that name alone. -/
private theorem matchesFileName_map_exactToken (name : List Char) (n : FileName) :
    matchesFileName (name.map exactToken) n = decide (n = FileName.ofChars name) := by
  rw [Bool.eq_iff_iff, decide_eq_true_iff]
  constructor
  · exact eq_of_matchesFileName
  · rintro rfl
    rw [matchesFileName_ofChars, matchName_map_exactToken, decide_eq_true_iff]

/-- A dot or double dot has no character that had to be escaped. -/
private theorem specialNames_map_exactToken {name : List Char} (h : name.any isSpecial = true) :
    specialNames (name.map exactToken) = [] := by
  rw [List.eq_nil_iff_forall_not_mem]
  intro n hn
  unfold specialNames at hn
  split at hn
  · obtain ⟨hdots, hmatch⟩ := List.mem_filter.1 hn
    have hname := eq_of_matchesFileName hmatch
    -- an escaped name matches itself alone, so it would be a dot or a double dot
    have hchars : name = ['.'] ∨ name = ['.', '.'] := by
      have hdisplay := congrArg FileName.display hname
      rw [FileName.display_ofChars] at hdisplay
      rcases List.mem_cons.1 hdots with rfl | hdots
      · exact .inl hdisplay.symm
      · rw [List.mem_singleton.1 hdots] at hdisplay
        exact .inr hdisplay.symm
    rcases hchars with rfl | rfl <;> exact absurd h (by decide)
  · cases hn

private theorem not_contains_empty (fs : FileSystem) : fs.contains Path.empty = false := rfl

/-- The names in a directory are distinct. -/
private theorem nodup_children (fs : FileSystem) (p : Path) : (fs.children p).Nodup := by
  unfold FileSystem.children
  split
  · rename_i t ht
    obtain ⟨k, hk⟩ := exists_at?_of_find? ht
    exact (fs.distinct.at? hk).nodup_entries
  · exact List.nodup_nil

/-- Whether a walk goes on with an escaped name. -/
def goesOn (fs : FileSystem) (p : Path) (name : List Char) : Bool :=
  if name.any isSpecial then fs.isDir p && decide (FileName.ofChars name ∈ fs.children p)
  else admits fs p (FileName.ofChars name)

/-- A walk goes on with an escaped name once, or not at all. -/
theorem walk_sourcePart (p : Path) (name : List Char) (rest : List Part) :
    walk fs (sourcePart name :: rest) p =
      if goesOn fs p name then walk fs rest (extend p (FileName.ofChars name)) else [] := by
  rw [sourcePart_eq, goesOn]
  -- a name with special characters is matched, any other one is looked up
  split
  · rename_i hspecial
    -- among distinct names, at most one is the escaped one
    have hfilter : (fs.children p).filter (matchesFileName (name.map exactToken)) =
        if FileName.ofChars name ∈ fs.children p then [FileName.ofChars name] else [] := by
      rw [funext (matchesFileName_map_exactToken name), List.filter_eq, (nodup_children fs p).count]
      split <;> rfl
    rw [walk, specialNames_map_exactToken hspecial, List.flatMap_nil, List.append_nil, hfilter]
    by_cases hmem : FileName.ofChars name ∈ fs.children p <;> simp [hmem]
  · rw [walk]

/-- An escaped name is added as it is. In the current directory it is not empty. -/
theorem mem_walk_sourcePart {name : List Char} {rest : List Part} {p q : Path}
    (hq : q ∈ walk fs (sourcePart name :: rest) p) :
    q ∈ walk fs rest (extend p (FileName.ofChars name)) ∧ (name = [] → isCurrent p = false) := by
  rw [walk_sourcePart] at hq
  split at hq
  · -- in the current directory the empty name gives the empty path, which is not there
    rename_i hgoes
    refine ⟨hq, ?_⟩
    rintro rfl
    by_cases hcurrent : isCurrent p = true
    · have hadmits : admits fs p (FileName.ofChars []) = true := hgoes
      have hempty : extend p (FileName.ofChars []) = Path.empty := if_pos hcurrent
      rw [admits, if_neg (by decide), hempty] at hadmits
      exact absurd hadmits (by rw [not_contains_empty]; exact Bool.false_ne_true)
    · simpa using hcurrent
  · cases hq

/-- The components inside a list of names. -/
def innerOf (names : List (List Char)) : List PathComponent :=
  (names.map FileName.ofChars).filterMap innerComponent?

private theorem innerOf_cons (name : List Char) (names : List (List Char)) :
    innerOf (name :: names) =
      (innerComponent? (FileName.ofChars name)).toList ++ innerOf names := by
  rw [innerOf, List.map_cons, List.filterMap_cons]
  cases innerComponent? (FileName.ofChars name) <;> rfl

/-- A path that is one name has one component inside at most. -/
private theorem innerComponents_mk {n : FileName} (hn : slash ∉ n) :
    (Path.mk n).innerComponents = (innerComponent? n).toList := by
  rw [innerComponents, segments, splitUnits_of_not_mem hn, List.filterMap_cons]
  cases innerComponent? n <;> rfl

/-- Where a walk along escaped names leaves off, once it has left the current directory. -/
theorem exists_of_mem_walk_of_not_isCurrent {names : List (List Char)}
    (hnames : ∀ name ∈ names, '/' ∉ name) {more : List Part} {p q : Path}
    (hunits : p.units ≠ []) (hfront : HasLeft p.components)
    (hq : q ∈ walk fs (names.map sourcePart ++ more) p) :
    ∃ p', q ∈ walk fs more p' ∧ p'.units ≠ [] ∧ p'.components = p.components ++ innerOf names := by
  -- over the names; each is joined to a path that has left, and so stays behind its front
  induction names generalizing p with
  | nil => exact ⟨p, hq, hunits, (List.append_nil _).symm⟩
  | cons name names ih =>
    have hcurrent : isCurrent p = false :=
      StartsWith.isCurrent_eq_false ⟨hunits, List.prefix_refl _⟩ hfront
    have hslash := FileName.slash_not_mem_ofChars (hnames name List.mem_cons_self)
    obtain ⟨hq, -⟩ := mem_walk_sourcePart hq
    rw [extend, if_neg (by simp [hcurrent])] at hq
    have hjoin : (p.join ⟨FileName.ofChars name⟩).components =
        p.components ++ (innerComponent? (FileName.ofChars name)).toList := by
      rw [components_join hunits (isAbsolute_of_slash_not_mem hslash), innerComponents_mk hslash]
    have hfront' : HasLeft (p.join ⟨FileName.ofChars name⟩).components := by
      rw [hjoin]
      refine ⟨by simp [hfront.ne_nil], ?_⟩
      intro h
      rcases List.append_eq_singleton_iff.1 h with ⟨hnil, -⟩ | ⟨hcurrent, -⟩
      · exact hfront.ne_nil hnil
      · exact hfront.ne_current hcurrent
    obtain ⟨p', hq', hunits', hcomponents⟩ :=
      ih (fun n hn => hnames n (List.mem_cons_of_mem _ hn)) (units_join_ne_nil hunits _) hfront' hq
    refine ⟨p', hq', hunits', ?_⟩
    rw [hcomponents, hjoin, innerOf_cons, List.append_assoc]

/-- A path that is one name has one component. -/
private theorem components_mk {n : FileName} (hn : slash ∉ n) {c : PathComponent}
    (hc : innerComponent? n = some c) : (Path.mk n).components = [c] := by
  have hdot : n ≠ FileName.dot := by
    rintro rfl
    cases hc
  -- a name without a slash is no root, and one that is no dot is no current directory
  have hleading : (Path.mk n).leading? = none := by
    rw [leading?, isAbsolute_of_slash_not_mem hn, segments, splitUnits_of_not_mem hn]
    simpa using hdot
  rw [components_eq, hleading, innerComponents_mk hn, hc]
  rfl

/-- Where a walk along escaped names leaves off that starts in the current directory. -/
theorem exists_of_mem_walk_of_isCurrent {names : List (List Char)}
    (hnames : ∀ name ∈ names, '/' ∉ name) {more : List Part} {p q : Path}
    (hcurrent : isCurrent p = true) (hq : q ∈ walk fs (names.map sourcePart ++ more) p) :
    ∃ p', q ∈ walk fs more p' ∧
      (innerOf names = [] ∨ (p'.units ≠ [] ∧ p'.components = innerOf names)) := by
  -- over the names, as long as they are dots
  induction names generalizing p with
  | nil => exact ⟨p, hq, .inl rfl⟩
  | cons name names ih =>
    have hnames' : ∀ n ∈ names, '/' ∉ n := fun n hn => hnames n (List.mem_cons_of_mem _ hn)
    have hslash := FileName.slash_not_mem_ofChars (hnames name List.mem_cons_self)
    obtain ⟨hq, hne⟩ := mem_walk_sourcePart hq
    have hunits : FileName.ofChars name ≠ [] := by
      intro hnil
      rw [hne (List.map_eq_nil_iff.1 hnil)] at hcurrent
      cases hcurrent
    rw [extend, if_pos hcurrent] at hq
    cases hinner : innerComponent? (FileName.ofChars name) with
    | none =>
      -- the name is a dot, and the walk stays where it is
      have hdot : FileName.ofChars name = FileName.dot := by
        rw [innerComponent?_eq_none_iff] at hinner
        simpa [isVoid, hunits] using hinner
      rw [hdot] at hq
      obtain ⟨p', hq', hp'⟩ := ih hnames' (by decide) hq
      rw [innerOf_cons, hinner]
      exact ⟨p', hq', hp'⟩
    | some c =>
      -- the walk leaves, and from here on it only adds
      have hcomponents : (Path.mk (FileName.ofChars name)).components = [c] :=
        components_mk hslash hinner
      have hfront : HasLeft (Path.mk (FileName.ofChars name)).components := by
        rw [hcomponents]
        refine ⟨List.cons_ne_nil _ _, ?_⟩
        intro h
        rw [(List.cons.inj h).1] at hinner
        exact innerComponent?_ne_current _ hinner
      obtain ⟨p', hq', hunits', hp'⟩ :=
        exists_of_mem_walk_of_not_isCurrent (p := ⟨FileName.ofChars name⟩) hnames' hunits hfront hq
      refine ⟨p', hq', .inr ⟨hunits', ?_⟩⟩
      rw [hp', hcomponents, innerOf_cons, hinner]
      rfl

end IconCompiler.Glob
