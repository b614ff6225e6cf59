import IconCompiler.Build
import IconCompiler.Proofs.FileSystem.Contents

/-!
# What a build writes

A build touches the file system in two ways: it makes directories and it writes files. `Logs` says
that one session comes from another by such steps and lists the writes in order, with their texts.
What the file system holds in the end follows from the list alone.

A part of a build that can fail performs the writes it is meant to perform up to some point, and all
of them if it succeeds. `Follows` states this for one part, and parts that follow their plans are
put together by `Follows.bind`.

## Key results

- `Logs.exists_last_write`: a file holds the text of the last write to it
- `Logs.holds_of_apart`: writes to different files all stay
- `Follows.bind`: plans are appended
-/

namespace IconCompiler

open FileSystem

/-! ## Running a part of a build -/

namespace Build

variable {α β : Type}

/-- Goes on with a part of a build from a session. -/
def resume (b : Build α) (s : Session) : Except BuildError α × Session :=
  (ExceptT.run b).run s

theorem resume_get (s : Session) : resume get s = (.ok s, s) := rfl

/-- The equation of a build in two parts: the second one starts where the first one ended, and an
    error ends both. -/
theorem resume_bind (b : Build α) (f : α → Build β) (s : Session) :
    resume (b >>= f) s =
      match resume b s with
      | (.ok a, s') => resume (f a) s'
      | (.error e, s') => (.error e, s') := by
  show (ExceptT.bindCont f ((ExceptT.run b) s).1) ((ExceptT.run b) s).2 =
    match (ExceptT.run b) s with
    | (.ok a, s') => resume (f a) s'
    | (.error e, s') => (.error e, s')
  cases (ExceptT.run b) s with
  | mk r s' => cases r <;> rfl

/-- The session after making directories, whether or not that succeeded. -/
theorem resume_createDirs (p : Path) (s : Session) :
    (resume (createDirs p) s).2 = { s with files := (s.files.createDirs p).1 } := by
  rw [createDirs, resume_bind, resume_get]
  dsimp only
  cases s.files.createDirs p with
  | mk fs fault? => cases fault? <;> rfl

/-- A build goes on from where its first part gave a result. -/
theorem resume_bind_of_ok {b : Build α} {a : α} {s s₁ : Session}
    (h : resume b s = (.ok a, s₁)) (f : α → Build β) :
    resume (b >>= f) s = resume (f a) s₁ := by
  rw [resume_bind, h]

/-- An error of the first part is that of the build. -/
theorem resume_bind_of_error {b : Build α} {e : BuildError} {s s₁ : Session}
    (h : resume b s = (.error e, s₁)) (f : α → Build β) :
    resume (b >>= f) s = (.error e, s₁) := by
  rw [resume_bind, h]

/-- If a build gives a result, so did its first part. -/
theorem resume_bind_eq_ok {b : Build α} {f : α → Build β} {c : β} {s s' : Session}
    (h : resume (b >>= f) s = (.ok c, s')) :
    ∃ a s₁, resume b s = (.ok a, s₁) ∧ resume (f a) s₁ = (.ok c, s') := by
  rw [resume_bind] at h
  cases hb : resume b s with
  | mk r s₁ =>
    rw [hb] at h
    cases r with
    | error e => cases (Prod.mk.inj h).1
    | ok a => exact ⟨a, s₁, rfl, h⟩

/-- A build with an outcome that is no error gives a result. -/
theorem exists_exec_eq_ok {b : Build α} {fs : FileSystem}
    (h : (exec b fs).1.toOption.isSome = true) :
    ∃ a, exec b fs = (.ok a, (exec b fs).2) := by
  obtain ⟨a, ha⟩ := Option.isSome_iff_exists.1 h
  exact ⟨a, Prod.ext (ok_of_toOption ha) rfl⟩

/-- The equation of a write: the path is listed exactly if the write succeeds. -/
theorem resume_writeText (p : Path) (text : String) (s : Session) :
    resume (writeText p text) s =
      match s.files.write p text.toUTF8 with
      | .ok fs => (.ok (), ⟨fs, s.written ++ [p]⟩)
      | .error e => (.error (.io p e), s) := by
  show resume (match s.files.write p text.toUTF8 with
    | .ok fs => set ({ files := fs, written := s.written ++ [p] } : Session)
    | .error e => throw (.io p e)) s = _
  cases s.files.write p text.toUTF8 <;> rfl

end Build

open Build

/-! ## Lists of writes -/

/-- Whether making directories and writing the listed texts, in order, leads from one session to
    another. -/
inductive Logs (s : Session) : List (Path × String) → Session → Prop
  | nil : Logs s [] s
  | dirs {ws : List (Path × String)} {s' : Session} (log : Logs s ws s') (p : Path) :
    Logs s ws { s' with files := (s'.files.createDirs p).1 }
  | write {ws : List (Path × String)} {s' : Session} {p : Path} {text : String} {fs : FileSystem}
    (log : Logs s ws s') (h : s'.files.write p text.toUTF8 = .ok fs) :
    Logs s (ws ++ [(p, text)]) ⟨fs, s'.written ++ [p]⟩

/-- Whether two writes go to different files. -/
def Apart (fs : FileSystem) (v w : Path × String) : Prop :=
  ∀ k, fs.Names v.1 k → ¬fs.Names w.1 k

namespace Logs

variable {s s' s'' : Session} {ws ws' : List (Path × String)}

/-- Lists of writes are put together where one session leads to the next. -/
theorem append (h : Logs s ws s') (h' : Logs s' ws' s'') : Logs s (ws ++ ws') s'' := by
  induction h' with
  | nil => rwa [List.append_nil]
  | dirs _ p ih => exact ih.dirs p
  | write _ hw ih =>
    rw [← List.append_assoc]
    exact ih.write hw

/-- A session lists what was written. -/
theorem written (h : Logs s ws s') : s'.written = s.written ++ ws.map Prod.fst := by
  induction h with
  | nil => simp
  | dirs _ _ ih => exact ih
  | write _ _ ih => simp [ih]

/-- Nothing is lost. -/
theorem keeps (h : Logs s ws s') : Keeps s.files s'.files := by
  induction h with
  | nil => exact .refl _
  | dirs _ p ih => exact ih.trans (grows_createDirs _ p).keeps
  | write _ hw ih =>
    obtain ⟨_, -, -, hkeeps, -⟩ := write_eq_ok hw
    exact ih.trans hkeeps

/-- A path that is written to names a file from then on. -/
theorem exists_file (h : Logs s ws s') {w : Path × String} (hw : w ∈ ws) :
    ∃ k, s'.files.Names w.1 k ∧ (s'.files.fileAt? k).isSome := by
  -- over the log: what named a file goes on to name it, whatever is made or written next
  induction h with
  | nil => cases hw
  | @dirs ws t log p ih =>
    obtain ⟨k, hk, hfile⟩ := ih hw
    have hgrows := grows_createDirs t.files p
    exact ⟨k, hk.of_keeps hgrows.keeps, hgrows.keeps.files k hfile⟩
  | write _ hwrite ih =>
    obtain ⟨key, hnames, hcontent, hkeeps, -⟩ := write_eq_ok hwrite
    rcases List.mem_append.1 hw with hw | hw
    · obtain ⟨k, hk, hfile⟩ := ih hw
      exact ⟨k, hk.of_keeps hkeeps, hkeeps.files k hfile⟩
    · obtain rfl := List.mem_singleton.1 hw
      exact ⟨key, hnames, by rw [hcontent]; rfl⟩

/-- What a path that was written to names later, it names already. -/
private theorem names_of_keeps (h : Logs s ws s') {fs : FileSystem} (hkeeps : Keeps s'.files fs)
    {w : Path × String} (hw : w ∈ ws) {k : FileKey} (hk : fs.Names w.1 k) :
    s'.files.Names w.1 k := by
  obtain ⟨k', hk', -⟩ := h.exists_file hw
  -- it named some file, and a path names one key only
  exact (hk'.of_keeps hkeeps).unique hk ▸ hk'

/-- A file holds the text of the last write to it, and what it held before if there is none. -/
theorem exists_last_write (h : Logs s ws s') (k : FileKey) :
    ((∀ w ∈ ws, ¬s'.files.Names w.1 k) ∧ s'.files.fileAt? k = s.files.fileAt? k) ∨
    ∃ front w back, ws = front ++ w :: back ∧ s'.files.Names w.1 k ∧
      s'.files.fileAt? k = some w.2.toUTF8 ∧ ∀ v ∈ back, ¬s'.files.Names v.1 k := by
  -- over the log, so that a write at its end is the last one
  induction h with
  | nil => exact .inl ⟨by simp, rfl⟩
  | @dirs ws t log p ih =>
    -- no file changes, and no path that was written to names another one
    have hgrows := grows_createDirs t.files p
    rcases ih with ⟨hnone, hsame⟩ | ⟨front, w, back, rfl, hw, hcontent, hback⟩
    · refine .inl ⟨fun v hv hafter => hnone v hv ?_, (hgrows.files k).trans hsame⟩
      exact log.names_of_keeps hgrows.keeps hv hafter
    · refine .inr ⟨front, w, back, rfl, hw.of_keeps hgrows.keeps,
        (hgrows.files k).trans hcontent, fun v hv hafter => hback v hv ?_⟩
      exact log.names_of_keeps hgrows.keeps (by simp [hv]) hafter
  | @write ws t p text fs log hwrite ih =>
    obtain ⟨key, hnames, hnew, hkeeps, hframe⟩ := write_eq_ok hwrite
    by_cases hk : k = key
    · exact .inr ⟨ws, (p, text), [], rfl, hk ▸ hnames, hk ▸ hnew, by simp⟩
    · -- the write goes to another file, so the last write to this one stays the last
      have hother : ¬fs.Names p k := fun hp => hk (hp.unique hnames)
      rcases ih with ⟨hnone, hsame⟩ | ⟨front, w, back, rfl, hw, hcontent, hback⟩
      · refine .inl ⟨?_, (hframe k hk).trans hsame⟩
        intro v hv hafter
        rcases List.mem_append.1 hv with hv | hv
        · exact hnone v hv (log.names_of_keeps hkeeps hv hafter)
        · obtain rfl := List.mem_singleton.1 hv
          exact hother hafter
      · refine .inr ⟨front, w, back ++ [(p, text)], by simp, hw.of_keeps hkeeps,
          (hframe k hk).trans hcontent, ?_⟩
        intro v hv hafter
        rcases List.mem_append.1 hv with hv | hv
        · exact hback v hv (log.names_of_keeps hkeeps (by simp [hv]) hafter)
        · obtain rfl := List.mem_singleton.1 hv
          exact hother hafter

/-- Writes to different files all stay. -/
theorem holds_of_apart (h : Logs s ws s')
    (hapart : ws.Pairwise (Apart s'.files))
    {w : Path × String} (hw : w ∈ ws) :
    ∃ k, s'.files.Names w.1 k ∧ s'.files.fileAt? k = some w.2.toUTF8 := by
  obtain ⟨k, hk, -⟩ := h.exists_file hw
  rcases h.exists_last_write k with ⟨hnone, -⟩ | ⟨front, v, back, rfl, hv, hcontent, hback⟩
  · exact absurd hk (hnone w hw)
  · -- the last write to the file is this one, since the others go elsewhere
    rcases List.mem_append.1 hw with hfront | hrest
    · have hcross := (List.pairwise_append.1 hapart).2.2 w hfront v List.mem_cons_self
      exact absurd hv (hcross k hk)
    · rcases List.mem_cons.1 hrest with rfl | hafter
      · exact ⟨k, hk, hcontent⟩
      · exact absurd hk (hback w hafter)

end Logs

/-! ## Plans -/

/-- Whether a part of a build, from a session, performs the writes of a plan up to some point. If it
    gives a result, it has performed them all, and the result and the session are as stated. -/
def Follows {α : Type} (b : Build α) (s : Session) (plan : List (Path × String))
    (post : α → Session → Prop) : Prop :=
  ∃ ws, ws <+: plan ∧ Logs s ws (resume b s).2 ∧
    ∀ a, (resume b s).1 = .ok a → ws = plan ∧ post a (resume b s).2

namespace Follows

variable {α β : Type} {s : Session} {plan plan' : List (Path × String)}

/-- A result that is given at once writes nothing. -/
theorem pure {a : α} {post : α → Session → Prop} (h : post a s) :
    Follows (pure a) s [] post :=
  ⟨[], List.prefix_rfl, .nil, fun _ hb => ⟨rfl, Except.ok.inj hb ▸ h⟩⟩

theorem throw (e : BuildError) (plan : List (Path × String)) (post : α → Session → Prop) :
    Follows (throw e) s plan post :=
  ⟨[], List.nil_prefix, .nil, fun a ha => by cases ha⟩

theorem get : Follows get s [] fun t s' => s = t ∧ s = s' :=
  ⟨[], List.prefix_rfl, .nil, fun _ ht => ⟨rfl, Except.ok.inj ht, rfl⟩⟩

/-- Parts that follow their plans are put together, and so are the plans. An error of the first part
    leaves a beginning of both. -/
theorem bind {b : Build α} {f : α → Build β} {post : α → Session → Prop}
    {post' : β → Session → Prop} (h : Follows b s plan post)
    (hf : ∀ a s', post a s' → Follows (f a) s' plan' post') :
    Follows (b >>= f) s (plan ++ plan') post' := by
  obtain ⟨ws, hpre, hlog, hok⟩ := h
  unfold Follows
  rw [resume_bind]
  cases hb : resume b s with
  | mk r s' =>
    rw [hb] at hlog hok
    cases r with
    -- the writes up to the error are a beginning of the longer plan
    | error e => exact ⟨ws, hpre.trans (List.prefix_append _ _), hlog, by simp⟩
    | ok a =>
      -- the first part is through with its plan, and the second one goes on
      obtain ⟨rfl, hpost⟩ := hok a rfl
      obtain ⟨ws', hpre', hlog', hok'⟩ := hf a s' hpost
      refine ⟨ws ++ ws', (List.prefix_append_right_inj ws).2 hpre', hlog.append hlog', ?_⟩
      intro c hc
      obtain ⟨rfl, hpost'⟩ := hok' c hc
      exact ⟨rfl, hpost'⟩

/-- A step at the end that only computes leaves the plan as it is. -/
theorem map {b : Build α} {f : α → β} {post : α → Session → Prop} {post' : β → Session → Prop}
    (h : Follows b s plan post) (hf : ∀ a s', post a s' → post' (f a) s') :
    Follows (b >>= fun a => Pure.pure (f a)) s plan post' := by
  have hbind := h.bind fun a s' ha => .pure (hf a s' ha)
  rwa [List.append_nil] at hbind

/-- The session that a part leaves is the one that it really leaves. -/
theorem exactly {b : Build α} {post : α → Session → Prop} (h : Follows b s plan post) :
    Follows b s plan fun a s' => post a s' ∧ s' = (resume b s).2 := by
  obtain ⟨ws, hpre, hlog, hok⟩ := h
  exact ⟨ws, hpre, hlog, fun a ha => ⟨(hok a ha).1, (hok a ha).2, rfl⟩⟩

/-- A part with a plan only makes directories and writes. -/
theorem exists_logs {b : Build α} {post : α → Session → Prop} {r : Except BuildError α}
    {s' : Session} (h : Follows b s plan post) (hs : resume b s = (r, s')) :
    ∃ ws, Logs s ws s' := by
  obtain ⟨ws, -, hlog, -⟩ := h
  rw [hs] at hlog
  exact ⟨ws, hlog⟩

/-- Making directories writes nothing. -/
theorem createDirs (p : Path) : Follows (createDirs p) s [] fun _ _ => True := by
  refine ⟨[], List.prefix_rfl, ?_, fun _ _ => ⟨rfl, trivial⟩⟩
  rw [resume_createDirs]
  exact .dirs .nil p

/-- Writing a text plans one write. -/
theorem writeText (p : Path) (text : String) :
    Follows (writeText p text) s [(p, text)] fun _ _ => True := by
  unfold Follows
  rw [resume_writeText]
  cases hw : s.files.write p text.toUTF8 with
  -- a write that fails has written nothing
  | error e => exact ⟨[], List.nil_prefix, .nil, by simp⟩
  | ok fs => exact ⟨[(p, text)], List.prefix_rfl, .write .nil hw, fun _ _ => ⟨rfl, trivial⟩⟩

end Follows

end IconCompiler
