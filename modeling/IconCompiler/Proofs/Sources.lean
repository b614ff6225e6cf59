import IconCompiler.Proofs.Discovery
import IconCompiler.Proofs.Glob.IconPattern
import IconCompiler.Proofs.Glob.PlainPaths

/-!
# The sources that the default pattern finds

With the default pattern, and a source directory that is written as plain names, the sources are the
files with the ending of icons at any depth below that directory. What the pattern means in the
names does not matter, and neither do directories that are named like icons.

## Key results

- `read_sourceGlob`: the pattern, with the names of the source directory
- `walk_sourceParts`: the walk along these names
- `mem_walk_iconParts_iff`, `nodup_walk_iconParts`: what it finds below them, each once
- `discover_icons`: what is discovered
-/

namespace IconCompiler

open IconCompiler.Path FileSystem Glob

/-- Whether a path is written as plain names below the current directory, with dots in front of them
    and slashes behind. -/
structure Path.IsPlain (p : Path) (names : List FileName) : Prop where
  parts : ∃ dots slashes, p.segments =
    List.replicate dots FileName.dot ++ names ++ List.replicate slashes []
  names : ∀ n ∈ names, n.IsText ∧ innerComponent? n = some (.name n)
  relative : p.isAbsolute = false
  ne_nil : p.units ≠ []

variable {fs : FileSystem} {config : Config} {names : List FileName}

/-- The names of a plain path hold no slash and are neither dots nor empty. -/
theorem Path.IsPlain.isPlain {p : Path} (h : p.IsPlain names) : ∀ n ∈ names, n.IsPlain := by
  intro n hn
  obtain ⟨dots, slashes, hparts⟩ := h.parts
  have hseg : n ∈ splitUnits p.units := by
    rw [← segments, hparts]
    exact List.mem_append_left _ (List.mem_append_right _ hn)
  exact ⟨(h.names n hn).2, slash_not_mem_of_mem_splitUnits n hseg⟩

/-! ## The pattern -/

/-- A path whose parts are texts shows them between its slashes. -/
private theorem splitSlashes_display {p : Path} (h : ∀ seg ∈ p.segments, FileName.IsText seg) :
    splitSlashes p.display.toList = p.segments.map FileName.display := by
  have hunits : FileName.ofChars p.display.toList = p.units := by
    rw [display, String.toList_ofList]
    refine FileName.IsText.ofChars_display ?_
    rw [← ofSegments_segments p]
    exact FileName.IsText.intercalate h
  have hsplit : (splitSlashes p.display.toList).map FileName.ofChars = p.segments := by
    rw [← splitUnits_ofChars, hunits]
    rfl
  have hback : FileName.display ∘ FileName.ofChars = id := funext FileName.display_ofChars
  rw [← hsplit, List.map_map, hback, List.map_id]

namespace Path.IsPlain

variable {p : Path}

/-- All parts of a plain path are text. -/
theorem isText (h : p.IsPlain names) : ∀ seg ∈ p.segments, FileName.IsText seg := by
  obtain ⟨dots, slashes, hparts⟩ := h.parts
  intro seg hseg
  rw [hparts, List.append_assoc, List.mem_append, List.mem_append] at hseg
  obtain hdot | hname | hslash := hseg
  · rw [List.eq_of_mem_replicate hdot]
    exact ⟨['.'], rfl⟩
  · exact (h.names seg hname).1
  · rw [List.eq_of_mem_replicate hslash]
    exact .nil

/-- A path of slashes is absolute, or has no text. -/
theorem exists_ne_nil (h : p.IsPlain names) : ∃ seg ∈ p.segments, seg ≠ [] := by
  obtain ⟨u, us, hus⟩ := List.exists_cons_of_ne_nil h.ne_nil
  have hu : u ≠ slash := by
    intro hu
    have habs : p.isAbsolute = true := by rw [isAbsolute, hus, hu]; rfl
    rw [h.relative] at habs
    cases habs
  obtain ⟨seg, rest, hsegs⟩ := segments_cons hu us
  refine ⟨u :: seg, ?_, List.cons_ne_nil _ _⟩
  rw [segments, hus, ← segments, hsegs]
  exact List.mem_cons_self

end Path.IsPlain

/-- The parts of the source directory's text, without the slashes at its end. -/
theorem splitSlashes_sourcePath {p : Path} (h : p.IsPlain names) :
    ∃ dots, splitSlashes (trimSlashes p.display.toList) =
      List.replicate dots ['.'] ++ names.map FileName.display := by
  obtain ⟨dots, slashes, hparts⟩ := h.parts
  have htexts : splitSlashes p.display.toList =
      (List.replicate dots ['.'] ++ names.map FileName.display) ++ List.replicate slashes [] := by
    rw [splitSlashes_display h.isText, hparts, List.map_append, List.map_append,
      List.map_replicate, List.map_replicate]
    rfl
  refine ⟨dots, splitSlashes_trimSlashes htexts ?_ ?_⟩
  · intro t ht
    rcases List.mem_append.1 ht with ht | ht
    · rw [List.eq_of_mem_replicate ht]
      exact List.cons_ne_nil _ _
    · obtain ⟨n, hn, rfl⟩ := List.mem_map.1 ht
      exact fun hnil => (h.isPlain n hn).ne_nil (List.map_eq_nil_iff.1 hnil)
  · intro hnil
    obtain ⟨hdots, hnames⟩ := List.append_eq_nil_iff.1 hnil
    obtain ⟨seg, hseg, hne⟩ := h.exists_ne_nil
    rw [hparts, (List.replicate_eq_nil_iff _).1 hdots, List.map_eq_nil_iff.1 hnames] at hseg
    exact hne (List.eq_of_mem_replicate hseg)

/-- The default pattern, with the names of the source directory. -/
theorem read_sourceGlob (hsource : config.sourcePath.IsPlain names)
    (hpattern : config.pattern = "**/*.svg") :
    ∃ dots, Pattern.read config.sourceGlob = .ok ⟨false,
      List.replicate dots (sourcePart ['.']) ++
        (names.map (fun n => sourcePart n.display) ++ iconParts), false⟩ := by
  obtain ⟨dots, hparts⟩ := splitSlashes_sourcePath hsource
  have hrel : config.sourceGlob.toList.head? ≠ some '/' := by
    intro hhead
    -- a pattern that starts with a slash has an absolute source directory, or none
    rcases (head?_sourceGlob config).1 hhead with habs | hnil
    · rw [hsource.relative] at habs
      cases habs
    · exact hsource.ne_nil hnil
  have hglob : config.sourceGlob.toList =
      escape (trimSlashes config.sourcePath.display.toList) ++ '/' :: iconPattern := by
    rw [toList_sourceGlob, hpattern]
    rfl
  refine ⟨dots, ?_⟩
  rw [read_escape_iconPattern hglob hrel, hparts]
  simp

/-! ## The walk to the source directory -/

/-- Dots at the front of the source directory stay in the current one. -/
private theorem walk_dots (hfs : fs.IsProper) (dots : Nat) (rest : List Part) :
    walk fs (List.replicate dots (sourcePart ['.']) ++ rest) .dot = walk fs rest .dot := by
  have hdot : fs.Names (ofNames []) (fs.current ++ []) := by
    refine (hfs.names_ofNames_iff (List.forall_mem_nil _)).2 ⟨by decide, rfl, ?_⟩
    rw [List.append_nil]
    exact isSome_kindAt?_of_isDirAt hfs.current
  have hdir : fs.isDir .dot = true := by
    rw [List.append_nil] at hdot
    exact isDir_iff_names.2 ⟨_, hdot, hfs.current⟩
  -- every dot is a directory that stands, and the walk stays where it is
  induction dots with
  | zero => rfl
  | succ dots ih =>
    have hgoes : goesOn fs .dot ['.'] = true := hdir
    rw [List.replicate_succ, List.cons_append, walk_sourcePart, if_pos hgoes]
    exact ih

/-- Names of the source directory that stand are added. -/
private theorem goesOn_of_names (hfs : fs.IsProper) {name : FileName} (hname : name.IsText)
    (hnames : ∀ n ∈ names ++ [name], n.IsPlain)
    (h : fs.Names (ofNames (names ++ [name])) (fs.current ++ (names ++ [name]))) :
    goesOn fs (ofNames names) name.display = true := by
  have hdir := hfs.names_ofNames_of_append hnames h
  obtain ⟨-, -, hkind⟩ := (hfs.names_ofNames_iff hnames).1 h
  rw [← List.append_assoc] at hkind
  rw [goesOn, hname.ofChars_display]
  -- a name is looked up in the listing, and any other part as a path
  split
  · have hat := isDirAt_of_append hkind (List.cons_ne_nil _ _)
    rw [isDir_iff_names.2 ⟨_, hdir, hat⟩, Bool.true_and, decide_eq_true_iff]
    exact (mem_children_iff hdir).2 hkind
  · have hplain : name.IsPlain := hnames name (by simp)
    -- a plain name is no dot, so only what stands under it counts
    have hdot : name ≠ FileName.dot := by
      rintro rfl
      exact absurd hplain.isVoid_eq_false (by decide)
    rw [admits, if_neg (by simp [hdot, hplain.ne_dotDot]), extend_ofNames hnames]
    exact contains_iff.2 ⟨_, h⟩

/-- The walk along the names of the source directory leads there, unless there is no such
    directory. -/
theorem walk_sourceParts (hfs : fs.IsProper) {more : List FileName} (rest : List Part)
    (hmore : ∀ n ∈ more, n.IsText) (hnames : ∀ n ∈ names ++ more, n.IsPlain) :
    walk fs (more.map (fun n => sourcePart n.display) ++ rest) (ofNames names) =
        walk fs rest (ofNames (names ++ more)) ∨
      (walk fs (more.map (fun n => sourcePart n.display) ++ rest) (ofNames names) = [] ∧
        ¬fs.Names (ofNames (names ++ more)) (fs.current ++ (names ++ more))) := by
  -- over the names still to come, from the directory that the others lead to
  induction more generalizing names with
  | nil =>
    left
    rw [List.append_nil]
    rfl
  | cons name more ih =>
    have hname := hmore name List.mem_cons_self
    rw [List.append_cons] at hnames ⊢
    have hfront : ∀ n ∈ names ++ [name], n.IsPlain :=
      fun n hn => hnames n (List.mem_append_left _ hn)
    rw [List.map_cons, List.cons_append, walk_sourcePart, hname.ofChars_display]
    by_cases hgoes : goesOn fs (ofNames names) name.display = true
    · rw [if_pos hgoes, extend_ofNames hfront]
      exact ih (fun n hn => hmore n (List.mem_cons_of_mem _ hn)) hnames
    · -- the walk ends at a name that does not stand, and then no longer key stands either
      rw [if_neg hgoes]
      refine .inr ⟨rfl, fun h => hgoes ?_⟩
      exact goesOn_of_names hfs hname hfront (hfs.names_ofNames_of_append hnames h)

/-! ## The icons below the source directory -/

/-- The walk along the default pattern takes what lies below and has the ending of icons. -/
theorem walk_iconParts (p : Path) : walk fs iconParts p =
    ((entriesBelow fs p).filter fun e => matchesFileName iconItems e.2).map Prod.fst := by
  have hne : Part.wild iconItems ≠ .directories := by
    intro h
    cases h
  rw [iconParts, walk, ← List.flatMap_pure_eq_map]
  · -- behind the last component the walk gives the path itself
    refine List.flatMap_congr fun e _ => ?_
    rw [walk]
    rfl
  · exact hne

/-- Without a directory there is nothing below it. -/
private theorem walk_iconParts_of_not_names (hfs : fs.IsProper) (hnames : ∀ n ∈ names, n.IsPlain)
    (h : ¬fs.Names (ofNames names) (fs.current ++ names)) :
    walk fs iconParts (ofNames names) = [] := by
  have hnone : fs.find? (ofNames names) = none := by
    rw [← Option.not_isSome_iff_eq_none]
    intro hsome
    obtain ⟨k, hk⟩ := contains_iff.1 hsome
    -- names lead nowhere but to the key they spell
    obtain ⟨-, rfl, -⟩ := (hfs.names_ofNames_iff hnames).1 hk
    exact h hk
  rw [walk_iconParts, entriesBelow, hnone]
  rfl

/-- The walk along the whole pattern finds what the walk from the source directory finds. -/
private theorem walk_sourceGlob (hfs : fs.IsProper) (dots : Nat) (hnames : ∀ n ∈ names, n.IsText)
    (hplain : ∀ n ∈ names, n.IsPlain) :
    walk fs (List.replicate dots (sourcePart ['.']) ++
      (names.map (fun n => sourcePart n.display) ++ iconParts)) .dot =
        walk fs iconParts (ofNames names) := by
  rw [walk_dots hfs]
  have hnil : ∀ n ∈ [] ++ names, n.IsPlain := hplain
  rcases walk_sourceParts hfs iconParts hnames hnil with h | ⟨h, hnot⟩
  · exact h
  · exact h.trans (walk_iconParts_of_not_names hfs hplain hnot).symm

/-- The default pattern finds what the walk from the source directory finds. -/
private theorem read_sourceGlob_paths (hfs : fs.IsProper) (hpattern : config.pattern = "**/*.svg")
    (hsource : config.sourcePath.IsPlain names) :
    ∃ pattern, Pattern.read config.sourceGlob = .ok pattern ∧
      pattern.paths fs = walk fs iconParts (ofNames names) := by
  obtain ⟨dots, hread⟩ := read_sourceGlob hsource hpattern
  refine ⟨_, hread, ?_⟩
  have hwalk := walk_sourceGlob hfs dots (fun n hn => (hsource.names n hn).1) hsource.isPlain
  rw [Pattern.paths, Pattern.start, if_neg Bool.false_ne_true, hwalk]
  exact List.filter_eq_self.2 fun _ _ => rfl

section

variable {t : FileTree} (hfs : fs.IsProper) (hdir : fs.Names (ofNames names) (fs.current ++ names))
  (ht : fs.tree.at? (fs.current ++ names) = some t)

include hfs ht in
/-- Names that are listed below a directory stand below the current one. -/
private theorem names_of_mem_listingFrom {e : FileKey × FileName × FileTree}
    (he : e ∈ t.listingFrom names) :
    e.1 ≠ [] ∧ ∀ n ∈ e.1, n.IsPlain := by
  obtain ⟨below, hkey, hat⟩ := (FileTree.mem_listingFrom_iff (fs.distinct.at? ht)).1 he
  have hkind : (fs.kindAt? (fs.current ++ e.1)).isSome = true := by
    rw [hkey, ← List.append_assoc, kindAt?, FileTree.at?_append, ht, Option.bind_some, hat]
    rfl
  exact ⟨by simp [hkey], hfs.isPlain_of_append hkind⟩

include hfs hdir ht in
/-- What lies below a directory, with its paths. -/
private theorem entriesBelow_ofNames : entriesBelow fs (ofNames names) =
    (t.listingFrom names).map fun e => (ofNames e.1, e.2.1) := by
  have hnames : ∀ n ∈ [] ++ names, n.IsPlain := hfs.isPlain_of_append (isSome_kindAt?_of_names hdir)
  rw [entriesBelow, find?_of_names hdir, ht]
  have hlisting := FileTree.listing_eq_map (fs.distinct.at? ht) extend (ofNames []) names
  rw [foldl_extend_ofNames hnames, List.nil_append] at hlisting
  dsimp only
  rw [hlisting, List.map_map]
  -- the path of an entry is that of its key, name by name
  refine List.map_congr_left fun e he => ?_
  have hplain : ∀ n ∈ [] ++ e.1, n.IsPlain := (names_of_mem_listingFrom hfs ht he).2
  rw [Function.comp, foldl_extend_ofNames hplain, List.nil_append]

include hfs hdir in
/-- What lies below a directory stands under its names and more. -/
private theorem mem_entriesBelow_iff {e : Path × FileName} : e ∈ entriesBelow fs (ofNames names) ↔
    ∃ below, (fs.kindAt? (fs.current ++ (names ++ below ++ [e.2]))).isSome = true ∧
      e.1 = ofNames (names ++ below ++ [e.2]) := by
  obtain ⟨t, ht⟩ := exists_at?_of_names hdir
  -- what stands below the directory in the tree stands below its key
  have hkind : ∀ below name, (fs.kindAt? (fs.current ++ (names ++ below ++ [name]))).isSome =
      (t.at? (below ++ [name])).isSome := by
    intro below name
    rw [kindAt?, Option.isSome_map, List.append_assoc, ← List.append_assoc, FileTree.at?_append,
      ht, Option.bind_some]
  rw [entriesBelow_ofNames hfs hdir ht, List.mem_map]
  constructor
  · rintro ⟨e', he', rfl⟩
    obtain ⟨below, hkey, hat⟩ := (FileTree.mem_listingFrom_iff (fs.distinct.at? ht)).1 he'
    refine ⟨below, ?_, ?_⟩
    · rw [hkind, hat]
      rfl
    · rw [hkey, List.append_assoc]
  · rintro ⟨below, hsome, hpath⟩
    rw [hkind, Option.isSome_iff_exists] at hsome
    obtain ⟨u, hu⟩ := hsome
    refine ⟨(names ++ (below ++ [e.2]), e.2, u), ?_, ?_⟩
    · exact (FileTree.mem_listingFrom_iff (fs.distinct.at? ht)).2 ⟨below, rfl, hu⟩
    · rw [← List.append_assoc, ← hpath]

include hfs hdir in
/-- The walk finds what stands below the directory under a name with the ending of icons. -/
theorem mem_walk_iconParts_iff {p : Path} : p ∈ walk fs iconParts (ofNames names) ↔
    ∃ below name, (fs.kindAt? (fs.current ++ (names ++ below ++ [name]))).isSome = true ∧
      FileName.ofChars iconEnding <:+ name ∧ p = ofNames (names ++ below ++ [name]) := by
  have hmatch : ∀ {below name},
      (fs.kindAt? (fs.current ++ (names ++ below ++ [name]))).isSome = true →
        (matchesFileName iconItems name = true ↔ FileName.ofChars iconEnding <:+ name) :=
    fun hkind => matchesFileName_iconItems (hfs.names _ hkind _ (by simp)).1
  rw [walk_iconParts, List.mem_map]
  constructor
  · rintro ⟨e, he, rfl⟩
    obtain ⟨he, hicon⟩ := List.mem_filter.1 he
    obtain ⟨below, hkind, hpath⟩ := (mem_entriesBelow_iff hfs hdir).1 he
    exact ⟨below, e.2, hkind, (hmatch hkind).1 hicon, hpath⟩
  · rintro ⟨below, name, hkind, hicon, rfl⟩
    refine ⟨(_, name), List.mem_filter.2 ⟨?_, (hmatch hkind).2 hicon⟩, rfl⟩
    exact (mem_entriesBelow_iff hfs hdir).2 ⟨below, hkind, rfl⟩

end

/-- The walk finds everything once. -/
theorem nodup_walk_iconParts (hfs : fs.IsProper) (hnames : ∀ n ∈ names, n.IsPlain) :
    (walk fs iconParts (ofNames names)).Nodup := by
  by_cases hdir : fs.Names (ofNames names) (fs.current ++ names)
  · obtain ⟨t, ht⟩ := exists_at?_of_names hdir
    have hkeys := FileTree.nodup_listingFrom (fs.distinct.at? ht) names
    rw [walk_iconParts, entriesBelow_ofNames hfs hdir ht, List.filter_map, List.map_map]
    refine (hkeys.of_map.filter _).map_on fun e he e' he' heq => ?_
    have hmem := (List.mem_filter.1 he).1
    have hmem' := (List.mem_filter.1 he').1
    obtain ⟨hne, hplain⟩ := names_of_mem_listingFrom hfs ht hmem
    obtain ⟨hne', hplain'⟩ := names_of_mem_listingFrom hfs ht hmem'
    -- paths of different keys are different, since their parts are the keys
    refine List.inj_on_of_nodup_map hkeys hmem hmem' ?_
    rw [← segments_ofNames hne hplain, ← segments_ofNames hne' hplain']
    exact congrArg segments heq
  · rw [walk_iconParts_of_not_names hfs hnames hdir]
    exact List.nodup_nil

/-! ## What is discovered -/

/-- Whether a path is that of an icon below a source directory: of a file that stands, in the
    directory or deeper, under a name with the ending of icons. A path with a fault, such as one of
    4096 bytes or more, names no file in any file system and is none. -/
def FileSystem.IsIconBelow (fs : FileSystem) (names : List FileName) (p : Path) : Prop :=
  ∃ below name, (fs.fileAt? (fs.current ++ (names ++ below ++ [name]))).isSome = true ∧
    FileName.ofChars iconEnding <:+ name ∧ p = ofSegments (names ++ below ++ [name]) ∧
      pathFault? p = none

/-- The files that the walk finds are the icons below the source directory. -/
private theorem mem_filter_walk_iconParts_iff (hfs : fs.IsProper) (hplain : ∀ n ∈ names, n.IsPlain)
    {p : Path} : p ∈ (walk fs iconParts (ofNames names)).filter fs.isFile ↔
      fs.IsIconBelow names p := by
  have hofNames : ∀ below name, ofNames (names ++ below ++ [name]) =
      ofSegments (names ++ below ++ [name]) :=
    fun below name => ofNames_of_ne_nil (by simp)
  rw [List.mem_filter]
  constructor
  · rintro ⟨hp, hfile⟩
    have hdir : fs.Names (ofNames names) (fs.current ++ names) := by
      by_contra hnot
      rw [walk_iconParts_of_not_names hfs hplain hnot] at hp
      cases hp
    obtain ⟨below, name, hkind, hicon, rfl⟩ := (mem_walk_iconParts_iff hfs hdir).1 hp
    obtain ⟨hfile, hfault⟩ := (hfs.isFile_ofNames_iff (hfs.isPlain_of_append hkind)).1 hfile
    exact ⟨below, name, hfile, hicon, hofNames _ _, hfault⟩
  · rintro ⟨below, name, hfile, hicon, hp, hfault⟩
    obtain rfl := hp.trans (hofNames _ _).symm
    have hkind := isSome_kindAt?_of_fileAt? hfile
    have hbelow := hfs.isPlain_of_append hkind
    have hnames := (hfs.names_ofNames_iff hbelow).2 ⟨hfault, rfl, hkind⟩
    have hdir : fs.Names (ofNames names) (fs.current ++ names) := by
      rw [List.append_assoc] at hbelow hnames
      exact hfs.names_ofNames_of_append hbelow hnames
    exact ⟨(mem_walk_iconParts_iff hfs hdir).2 ⟨below, name, hkind, hicon, rfl⟩,
      (hfs.isFile_ofNames_iff hbelow).2 ⟨hfile, hfault⟩⟩

/-- The path of an icon is text. -/
private theorem isText_of_isIconBelow (hfs : fs.IsProper) {p : Path} (h : fs.IsIconBelow names p) :
    FileName.IsText p.units := by
  obtain ⟨below, name, hfile, -, rfl, -⟩ := h
  have hkind := isSome_kindAt?_of_fileAt? hfile
  exact FileName.IsText.intercalate fun n hn =>
    (hfs.names _ hkind n (List.mem_append_right _ hn)).1

/-- With the default pattern, what is discovered is the icons below the source directory, each once,
    in the order of their paths. -/
theorem discover_icons (hfs : fs.IsProper) (hpattern : config.pattern = "**/*.svg")
    (hsource : config.sourcePath.IsPlain names) :
    ∃ paths, discover fs config = .ok paths ∧
      paths.Pairwise (fun p q => p.display < q.display) ∧
        ∀ p, p ∈ paths ↔ fs.IsIconBelow names p := by
  obtain ⟨pattern, hread, hpaths⟩ := read_sourceGlob_paths hfs hpattern hsource
  have hmem := fun p => mem_filter_walk_iconParts_iff (p := p) hfs hsource.isPlain
  have hnodup := nodup_walk_iconParts hfs hsource.isPlain
  have hdiscover : discover fs config = .ok (((walk fs iconParts (ofNames names)).filter
      fs.isFile).mergeSort fun p q => !(q.display < p.display)) := by
    rw [discover, hread, ← hpaths]
  refine ⟨_, hdiscover, ?_, ?_⟩
  · -- paths that are text are distinct if they are shown differently
    refine pairwise_mergeSort_display (hnodup.filter _) fun p hp => ?_
    exact isText_of_isIconBelow hfs ((hmem p).1 hp)
  · intro p
    rw [List.mem_mergeSort]
    exact hmem p

/-- Sources in a directory whose name is a pattern, next to one that this pattern matches. -/
def wildNamedSources : FileSystem :=
  let files := ["w/so[u]*/.svg", "w/so[u]*/b.svg/c.svg", "w/so[u]*/d/e.SVG", "w/sou/x.svg"]
  files.foldl (fun fs f => fs.putFile (Path.ofString f).segments ByteArray.empty)
    (FileSystem.fresh [.ofChars ['w']])

/-- The directory with a pattern for a name is one that a file system can hold. -/
private theorem isProper_wildNamedSources : wildNamedSources.IsProper := by
  refine ⟨kindAt?_eq_true_iff.1 (by decide +kernel), fun k hk => ?_⟩
  have hlisted : ∀ e ∈ wildNamedSources.tree.listingFrom [], e.2.1.text?.isSome = true ∧
      innerComponent? e.2.1 = some (.name e.2.1) ∧ slash ∉ e.2.1 ∧ isTooLong e.2.1 = false := by
    decide +kernel
  rw [kindAt?, Option.isSome_map, Option.isSome_iff_exists] at hk
  obtain ⟨t, ht⟩ := hk
  refine FileTree.forall_name_of_listing wildNamedSources.distinct (fun e he => ?_) ht
  obtain ⟨htext, hname, hslash, hshort⟩ := hlisted e he
  obtain ⟨cs, hcs⟩ := Option.isSome_iff_exists.1 htext
  exact ⟨⟨cs, FileName.eq_ofChars_of_text? hcs⟩, hname, hslash, hshort⟩

/-- Hidden icons and icons in directories that are named like icons are found. These directories are
    not. -/
theorem discover_icons_wildNamedSources :
    let config : Config := { sourceDir := .ofString "so[u]*" }
    ∃ paths, discover wildNamedSources config = .ok paths ∧
      Path.ofString "so[u]*/.svg" ∈ paths ∧ Path.ofString "so[u]*/b.svg/c.svg" ∈ paths ∧
        Path.ofString "so[u]*/b.svg" ∉ paths ∧ Path.ofString "sou/x.svg" ∉ paths := by
  intro config
  have hsource : config.sourcePath.IsPlain [.ofChars "so[u]*".toList] :=
    ⟨⟨1, 0, by decide +kernel⟩, by simpa using ⟨⟨_, rfl⟩, by decide +kernel⟩,
      by decide +kernel, by decide +kernel⟩
  obtain ⟨paths, hdiscover, -, hmem⟩ := discover_icons isProper_wildNamedSources rfl hsource
  refine ⟨paths, hdiscover, (hmem _).2 ?_, (hmem _).2 ?_, ?_, ?_⟩
  · exact ⟨[], FileName.ofChars ".svg".toList, by decide +kernel, by decide +kernel,
      by decide +kernel, by decide +kernel⟩
  · exact ⟨[FileName.ofChars "b.svg".toList], FileName.ofChars "c.svg".toList, by decide +kernel,
      by decide +kernel, by decide +kernel, by decide +kernel⟩
  · intro h
    have hfile := (mem_walk_of_mem_discover hdiscover h).1
    exact absurd hfile (by decide +kernel)
  · intro h
    obtain ⟨below, name, -, -, hp, -⟩ := (hmem _).1 h
    obtain ⟨first, rest, hrest⟩ := List.exists_cons_of_ne_nil (l := below ++ [name]) (by simp)
    rw [List.append_assoc, hrest, ofSegments, List.singleton_append,
      List.intercalate_cons_cons] at hp
    have hstart := congrArg (fun p => p.units.take 3) hp
    exact absurd hstart (by simp [ofString, FileName.ofChars])

end IconCompiler
