import IconCompiler.Proofs.Build.WriteDiscipline
import IconCompiler.Proofs.FileSystem.Layout
import Mathlib.Data.List.Forall2

/-!
# Runs that are repeated

A second run starts where the first one ended. It meets the directories that the first one made and
the files that it wrote, and goes through the same steps: what was made is not made again, what was
written is replaced by the same texts, and what failed fails. At every step its file system has the
layout that the first run left, and every file holds what it holds at the end of the first run or
held at the same step of it.

`Repeats` states this for a part of a build. Parts that repeat are put together by `Repeats.bind`.

## Key results

- `Repeats.writeAll`: the loop over the results repeats
- `exec_runWith_again`: a run repeats
-/

namespace IconCompiler

open FileSystem Build

/-- Whether a second outcome is the first one, but for a directory that could not be made since a
    file is in its place: the second time that file can be in the way already. -/
def SameOutcome {α : Type} (first second : Except BuildError α) : Prop :=
  second = first ∨
    ∃ p, first = .error (.io p .alreadyExists) ∧ second = .error (.io p .notDirectory)

/-- A success comes out the same. -/
private theorem SameOutcome.eq_ok {α : Type} {a : α} {r : Except BuildError α}
    (h : SameOutcome (.ok a) r) : r = .ok a := by
  rcases h with h | ⟨p, h, -⟩
  · exact h
  · cases h

/-- An error comes out as an error, and the two stay alike whatever result was expected. -/
private theorem SameOutcome.exists_error {α : Type} {e : BuildError} {r : Except BuildError α}
    (h : SameOutcome (.error e) r) : ∃ e', r = .error e' ∧
      ∀ {β : Type}, SameOutcome (.error e : Except BuildError β) (.error e') := by
  rcases h with rfl | ⟨p, h, rfl⟩
  · exact ⟨e, rfl, .inl rfl⟩
  · cases h
    exact ⟨_, rfl, .inr ⟨p, rfl, rfl⟩⟩

/-- Whether a session of a second run stands where one of a first run did that left the files
    `f`. -/
structure Near (f : FileSystem) (s t : Session) : Prop where
  between : Between s.files f t.files
  written : t.written = s.written

/-- Whether a part of a second run, from `t`, does what a part of a first one did from `s` on its
    way to the end of a run that leaves `f`. If the first run ended in this part, its error has to
    be one that `lasts`. -/
structure Repeats {α : Type} (f : FileSystem) (lasts : BuildError → Prop) (b b' : Build α)
    (s t : Session) : Prop where
  logs : ∃ ws, Logs s ws (resume b s).2
  again : Near f s t → Keeps (resume b s).2.files f →
    (∀ e, (resume b s).1 = .error e → (resume b s).2.files = f ∧ lasts e) →
    SameOutcome (resume b s).1 (resume b' t).1 ∧ Near f (resume b s).2 (resume b' t).2

/-- What making directories does to a session. -/
theorem resume_createDirs_eq (p : Path) (s : Session) : resume (createDirs p) s =
    (match (s.files.createDirs p).2 with
      | none => .ok ()
      | some e => .error (.io p e), { s with files := (s.files.createDirs p).1 }) := by
  rw [Build.createDirs, resume_bind, resume_get]
  dsimp only
  cases s.files.createDirs p with
  | mk fs fault? => cases fault? <;> rfl

/-- Whether an asset is rendered again as it was. The first result may also be an error that ends
    any run, if it does not last. -/
def SameResult (lasts : BuildError → Prop) (first second : Except BuildError Rendered) : Prop :=
  second = first ∨ ∃ e, first = .error e ∧ e.isAsset = false ∧ ¬lasts e

namespace Repeats

variable {α β : Type} {f : FileSystem} {lasts : BuildError → Prop} {s t : Session}

/-- A result that is given at once is given again. -/
theorem pure (a : α) : Repeats f lasts (pure a) (pure a) s t :=
  ⟨⟨[], .nil⟩, fun h _ _ => ⟨.inl rfl, h⟩⟩

theorem throw (e : BuildError) : Repeats f lasts (throw e : Build α) (throw e) s t :=
  ⟨⟨[], .nil⟩, fun h _ _ => ⟨.inl rfl, h⟩⟩

/-- No run ends with an error that does not last. -/
private theorem throw_of_not_lasts {e : BuildError} (he : ¬lasts e) (b : Build α) :
    Repeats f lasts (MonadExcept.throw e) b s t :=
  ⟨⟨[], .nil⟩, fun _ _ hfail => absurd (hfail e rfl).2 he⟩

/-- Making directories repeats. -/
theorem createDirs (p : Path) : Repeats f lasts (createDirs p) (createDirs p) s t := by
  refine ⟨⟨[], by rw [resume_createDirs]; exact .dirs .nil p⟩, fun h hkeeps hfail => ?_⟩
  rw [resume_createDirs_eq] at hkeeps hfail
  rw [resume_createDirs_eq, resume_createDirs_eq]
  cases hmade : s.files.createDirs p with
  | mk fs fault? =>
    rw [hmade] at hkeeps hfail
    cases fault? with
    | none =>
      -- what was made is there already
      obtain ⟨hagain, hbetween⟩ := h.between.createDirs hmade hkeeps
      rw [hagain]
      exact ⟨.inl rfl, hbetween, h.written⟩
    | some e =>
      -- the run ends here, so what it has made is what it leaves
      obtain rfl : fs = f := (hfail _ rfl).1
      obtain ⟨heq, e', hagain, hrecurs⟩ := h.between.createDirs_error hmade
      rw [heq, hagain]
      refine ⟨?_, .refl _ _, h.written⟩
      rcases hrecurs with rfl | ⟨rfl, rfl⟩
      · exact .inl rfl
      · exact .inr ⟨p, rfl, rfl⟩

/-- Writing a text repeats. -/
theorem writeText (p : Path) (text : String) :
    Repeats f lasts (writeText p text) (writeText p text) s t := by
  obtain ⟨ws, -, hlog, -⟩ := Follows.writeText (s := s) p text
  refine ⟨⟨ws, hlog⟩, fun h hkeeps hfail => ?_⟩
  rw [resume_writeText] at hkeeps hfail
  rw [resume_writeText, resume_writeText]
  cases hwrite : s.files.write p text.toUTF8 with
  | ok fs =>
    rw [hwrite] at hkeeps
    obtain ⟨fs', hagain, hbetween⟩ := h.between.write hwrite hkeeps
    rw [hagain]
    exact ⟨.inl rfl, hbetween, by rw [h.written]⟩
  | error e =>
    -- the run ends here, and the second one has come to the same files
    rw [hwrite] at hfail
    have hend : s.files = f := (hfail _ rfl).1
    have hbetween := h.between
    rw [← hend] at hbetween
    rw [hbetween.write_error hwrite]
    exact ⟨.inl rfl, h⟩

/-- Parts that repeat are put together. -/
theorem bind {b b' : Build α} {g g' : α → Build β} (h : Repeats f lasts b b' s t)
    (hg : ∀ a, (resume b s).1 = .ok a →
      Repeats f lasts (g a) (g' a) (resume b s).2 (resume b' t).2) :
    Repeats f lasts (b >>= g) (b' >>= g') s t := by
  obtain ⟨⟨ws, hlog⟩, hagain⟩ := h
  cases hb : (resume b s).1 with
  | error e =>
    -- neither run gets to the second part
    have hrun := resume_bind_of_error (Prod.ext hb rfl) g
    refine ⟨⟨ws, by rwa [hrun]⟩, fun hnear hkeeps hfail => ?_⟩
    rw [hrun] at hkeeps hfail
    rw [hb] at hagain
    obtain ⟨hsame, hnear'⟩ := hagain hnear hkeeps fun e' he' => by
      cases he'
      exact hfail e rfl
    obtain ⟨e', he', hsame'⟩ := hsame.exists_error
    rw [hrun, resume_bind_of_error (Prod.ext he' rfl) g']
    exact ⟨hsame', hnear'⟩
  | ok a =>
    obtain ⟨⟨ws', hlog'⟩, hagain'⟩ := hg a hb
    have hrun := resume_bind_of_ok (Prod.ext hb rfl) g
    refine ⟨⟨ws ++ ws', by rw [hrun]; exact hlog.append hlog'⟩, fun hnear hkeeps hfail => ?_⟩
    rw [hrun] at hkeeps hfail
    rw [hb] at hagain
    -- what the second part adds is kept until the end, and what the first part made is in it
    obtain ⟨hsame, hnear'⟩ := hagain hnear (hlog'.keeps.trans hkeeps) fun e he => by cases he
    rw [hrun, resume_bind_of_ok (Prod.ext hsame.eq_ok rfl) g']
    exact hagain' hnear' hkeeps hfail

/-- A part that looks at the session repeats if what it goes on with does. -/
private theorem get_bind {g : Session → Build α} (hlogs : ∃ ws, Logs s ws (resume (g s) s).2)
    (h : Near f s t → Keeps s.files f → Repeats f lasts (g s) (g t) s t) :
    Repeats f lasts (get >>= g) (get >>= g) s t := by
  have hrun : ∀ u, resume (get >>= g) u = resume (g u) u := fun u => by
    rw [resume_bind, resume_get]
  obtain ⟨ws, hlog⟩ := hlogs
  refine ⟨⟨ws, by rwa [hrun]⟩, fun hnear hkeeps hfail => ?_⟩
  rw [hrun] at hkeeps hfail
  rw [hrun s, hrun t]
  exact (h hnear (hlog.keeps.trans hkeeps)).again hnear hkeeps hfail

/-- Writing the manifest repeats. -/
theorem writeManifest (catalog : Catalog) (p : Path) :
    Repeats f lasts (writeManifest catalog p) (writeManifest catalog p) s t := by
  unfold Build.writeManifest
  cases p.parent? with
  | none => exact .writeText _ _
  | some dir => exact (Repeats.createDirs dir).bind fun _ _ => .writeText _ _

/-- Writing the files of an asset repeats. -/
theorem writeRendered (out : Path) (r : Rendered) :
    Repeats f lasts (writeRendered out r) (writeRendered out r) s t :=
  (Repeats.createDirs _).bind fun _ _ => (Repeats.writeText _ _).bind fun _ _ => .writeText _ _

/-- The loop over the results repeats, up to an error that does not last. -/
theorem writeAll (out : Path) (continueOnError : Bool)
    {results results' : List (Asset × Except BuildError Rendered)}
    (h : List.Forall₂ (fun x x' => x'.1 = x.1 ∧ SameResult lasts x.2 x'.2) results results') :
    Repeats f lasts (writeAll out continueOnError results) (writeAll out continueOnError results')
      s t := by
  induction h generalizing s t with
  | nil => exact .pure _
  | @cons x x' results results' hx _ ih =>
    obtain ⟨a, r⟩ := x
    obtain ⟨a', r'⟩ := x'
    obtain ⟨ha, hr⟩ := hx
    obtain rfl : a' = a := ha
    rcases hr with hr | ⟨e, he, hasset, hlost⟩
    · obtain rfl : r' = r := hr
      cases r' with
      | error e =>
        unfold Build.writeAll
        split
        · exact ih.bind fun _ _ => .pure _
        · exact .throw e
      | ok r => exact (Repeats.writeRendered out r).bind fun _ _ => ih.bind fun _ _ => .pure _
    · -- such an error is not left out, so the first run would have ended with it
      obtain rfl : r = .error e := he
      have hends : Build.writeAll out continueOnError ((a', .error e) :: results) =
          MonadExcept.throw e := by
        rw [Build.writeAll, hasset]
        rfl
      rw [hends]
      exact .throw_of_not_lasts hlost _

end Repeats

/-! ## Runs -/

/-- What comes after rendering repeats. -/
theorem Repeats.conclude {f : FileSystem} {lasts : BuildError → Prop} (config : Config)
    (catalog : Catalog) {results results' : List (Except BuildError Rendered)} {s t : Session}
    (h : List.Forall₂ (fun x x' => x'.1 = x.1 ∧ SameResult lasts x.2 x'.2)
      (catalog.assets.zip results) (catalog.assets.zip results')) :
    Repeats f lasts (conclude config catalog results) (conclude config catalog results') s t := by
  refine (Repeats.writeAll _ _ h).bind fun _ _ => (Repeats.writeText _ _).bind fun _ _ => ?_
  refine .get_bind ⟨[], .nil⟩ fun hnear _ => ?_
  rw [hnear.written]
  exact .pure _

/-- A project whose sources are found through directories beside them, in another project of the
    same layout, which has no directory beside its second source. -/
def nestedProject : FileSystem :=
  let dirs := ["w/p/s/a/D", "w/p/s/b/C", "w/p/p/s/a/D"]
  let files := ["w/p/s/a/C.svg", "w/p/s/b/G.svg", "w/p/p/s/a/C.svg", "w/p/p/s/b/G.svg"]
  let made := dirs.foldl (fun fs d => fs.putDir (Path.ofString d).segments [])
    (FileSystem.fresh [.ofChars ['w']])
  files.foldl (fun fs f => fs.putFile (Path.ofString f).segments "<path/>".toUTF8) made

/-- The path from which a source is read need not be the one under which it was found, and it can
    lead through the output. Then the directory of a component can be what was missing on the way to
    another source. -/
theorem exec_run_again_of_missing_source :
    let config : Config :=
      { root := .ofString "./p", sourceDir := .ofString "s", pattern := "*/*/../*.svg",
        outDir := .ofString "p/s/b" }
    let first := exec (run config) nestedProject
    let second := exec (run config) first.2.files
    let found : List Path := [.ofString "p/s/a/D/../C.svg", .ofString "p/s/b/C/../G.svg"]
    let read : List Path := [.ofString "./p/p/s/a/D/../C.svg", .ofString "./p/p/s/b/C/../G.svg"]
    discover nestedProject config = .ok found ∧ discover first.2.files config = .ok found ∧
    (∀ q ∈ first.2.written, ∀ p ∈ found ++ read,
      (first.2.files.findKey q).toOption ≠ (first.2.files.findKey p).toOption) ∧
    first.1 = .error (.io (.ofString "./p/p/s/b/C/../G.svg") .notFound) ∧
    second.1.toOption.isSome = true := by
  intro config first second found read
  have hfound : discover nestedProject config = .ok found :=
    discover_of_pairwise (by decide +kernel) (by decide +kernel)
  have hfirst : first = resume (fromCatalog config .standard
    ⟨[⟨"C", "C", "", "C.svg", "p/s/a/D/../C.svg"⟩, ⟨"G", "G", "", "G.svg", "p/s/b/C/../G.svg"⟩]⟩)
      ⟨nestedProject, []⟩ := by
    apply exec_runWith_of_catalog
    rw [catalogOf, hfound]
    exact ok_of_toOption (by decide +kernel)
  have hfound' : discover first.2.files config = .ok found := by
    rw [hfirst]
    exact discover_of_pairwise (by decide +kernel) (by decide +kernel)
  have hsecond : second = resume (fromCatalog config .standard
    ⟨[⟨"C", "C", "", "C.svg", "p/s/a/D/../C.svg"⟩, ⟨"G", "G", "", "G.svg", "p/s/b/C/../G.svg"⟩]⟩)
      ⟨first.2.files, []⟩ := by
    apply exec_runWith_of_catalog
    rw [catalogOf, hfound']
    exact ok_of_toOption (by decide +kernel)
  refine ⟨hfound, hfound', ?_, ?_, ?_⟩
  · rw [hfirst]
    decide +kernel
  · rw [hfirst]
    exact error_of_error? (by decide +kernel)
  · rw [hsecond, hfirst]
    decide +kernel

end IconCompiler
