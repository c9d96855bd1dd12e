import Kindling.CI.Runner
import Kindling.Database.Rows
import Kindling.Verify.RunnerPaths

/-!
# What a cache step restores

The cache of a server is one directory for the runs of all projects. A copy changes no file outside
its destination, and leaves there only what it found at its source.
-/

namespace Kindling
open Fallible AbsPath

variable {p dir : AbsPath} {data key : String} {project : Id}

def SameOutside (dst : AbsPath) (t t' : FileTree) : Prop :=
  ∀ q data, ¬dst <+: q → t'.node q = some (.file data) → t.node q = some (.file data)

section outside
variable {t t' : FileTree} {src dst : AbsPath}

theorem near_of_call (h : Under [src, dst] p ∨ p ∈ [dst.dropLast]) : Near [src, dst] p := by
  rcases h with h | h
  · exact h.near
  · rw [List.mem_singleton.mp h]
    exact ⟨dst, by simp, .inl (List.dropLast_prefix dst)⟩

theorem SameOutside.step (h : SameOutside dst t t') (hfree : LinkFree [src, dst] t')
    (hop : CopyCall src dst [dst.dropLast] β op) (a : FsAnswer) :
    SameOutside dst t (op.step a t').2 := by
  intro q data hq hfile
  rcases op.node_step hfree (fun p hp => near_of_call (hop.names p hp)) a q with
    hsame | ⟨hnone, -⟩ | ⟨-, hdir, -⟩ | ⟨hwrites, -⟩
  · exact h q data hq (hsame.symm.trans hfile)
  · simp [hnone] at hfile
  · simp [hdir] at hfile
  · exact absurd (hop.changes q (.inr hwrites)) hq

theorem sameOutside_of_calls {p : Fallible ε FsOp α}
    (h : Uses (CopyCall src dst [dst.dropLast]) p) (hfree : LinkFree [src, dst] t)
    (as : List FsAnswer) : SameOutside dst t (p.outcome as t).state := by
  refine (Prog.Uses.run (I := fun t' => LinkFree [src, dst] t' ∧ SameOutside dst t t') h
    (fun β op hop as t' ht' => ⟨?_, ?_⟩) ⟨hfree, fun _ _ _ hfile => hfile⟩).2
  · exact ht'.1.step ht'.1 op (fun p hp => near_of_call (hop.names p hp)) _
  · exact ht'.2.step ht'.1 hop _

theorem copyPath_target_calls : Uses (CopyCall src dst [dst.dropLast]) (copyPath src dst) :=
  copyPath_calls List.prefix_rfl List.prefix_rfl (.inr (List.mem_singleton_self _))

theorem freshCopy_calls : Uses (CopyCall src dst [dst.dropLast]) (freshCopy src dst) := by
  refine .bind (.attempt (.ofCall (.change fun p hp => ?_))) fun _ => copyPath_target_calls
  rw [List.mem_singleton.mp hp]

theorem copyIfPresent_calls :
    Uses (CopyCall src dst [dst.dropLast]) (CacheStore.copyIfPresent src dst) := by
  refine .bind (.attempt (.ofCall (.look rfl rfl rfl (.inl (under_src List.prefix_rfl))))) fun r => ?_
  split
  · exact .pure
  · exact .throw
  · exact freshCopy_calls

theorem copyArtifactContents_calls :
    Uses (CopyCall src dst [dst.dropLast]) (copyArtifactContents src dst) := by
  have hsrc : Under [src, dst] src ∨ src ∈ [dst.dropLast] := .inl (under_src List.prefix_rfl)
  have hdst : Under [src, dst] dst ∨ dst ∈ [dst.dropLast] := .inl (under_dst List.prefix_rfl)
  have hdir : Under [src, dst] dst.dropLast ∨ dst.dropLast ∈ [dst.dropLast] := .inr (by simp)
  refine .bind (.ofCall (.look rfl rfl rfl hsrc)) fun kind => ?_
  cases kind with
  | dir =>
    refine .bind (.ofCall (.look rfl rfl rfl hdst)) fun _ =>
      .bind (.ofCall (.look rfl rfl rfl hsrc)) fun entries => .forEach fun e _ =>
      copyPath_calls (List.prefix_append ..) (List.prefix_append ..) ?_
    exact .inl (under_dst (by simp))
  | file | link =>
    exact .bind (.ofCall (.look rfl rfl rfl hdir)) fun _ =>
      copyFile_calls List.prefix_rfl List.prefix_rfl hdir

end outside

/-! ## Files below the destination of a copy -/

def CopyOf (t : FileTree) (p : AbsPath) (data : String) : Prop :=
  ∃ whole, t.node p = some (.file whole) ∧ data.toList <+: whole.toList

/-- A tree in the course of a copy: the source is as it was, and each file below the destination is
a copy of the one at its place below the source, unless it was there before. -/
structure Copied (t : FileTree) (src dst : AbsPath) (t' : FileTree) : Prop where
  linkFree : LinkFree [src, dst] t'
  source : ∀ rel, t'.node (src ++ rel) = t.node (src ++ rel)
  files : ∀ rel data, t'.node (dst ++ rel) = some (.file data) →
    t.node (dst ++ rel) = some (.file data) ∨ CopyOf t (src ++ rel) data

section copied
variable {t t' : FileTree} {src dst rel : AbsPath}

theorem near_src : Near [src, dst] (src ++ rel) := ⟨src, by simp, .inr (List.prefix_append ..)⟩

theorem near_dst : Near [src, dst] (dst ++ rel) := ⟨dst, by simp, .inr (List.prefix_append ..)⟩

theorem near_pair (h : Near [dst] p) : Near [src, dst] p := by
  obtain ⟨r, hr, hp⟩ := h
  exact ⟨r, List.mem_cons_of_mem _ hr, hp⟩

namespace Copied

theorem kind (h : Copied t src dst t') (hstat : t'.stat (src ++ rel) = .ok k) :
    ∃ n, t.node (src ++ rel) = some n ∧ n.kind = k := by
  rw [← h.source]
  exact (h.linkFree.stat_eq_ok near_src).mp hstat

theorem step (h : Copied t src dst t') (hapart : Apart src dst) {op : FsOp β}
    (hnames : ∀ p ∈ op.names, Near [src, dst] p) (hremoves : ∀ p ∈ op.removes, dst <+: p)
    (hmakes : ∀ p ∈ op.makes, Near [dst] p) (hwrites : op.writes = []) (a : FsAnswer) :
    Copied t src dst (op.step a t').2 := by
  refine ⟨h.linkFree.step h.linkFree op hnames a, fun rel => ?_, fun rel data hfile => ?_⟩
  · rw [← h.source]
    rcases op.node_step h.linkFree hnames a (src ++ rel) with
      hsame | ⟨-, p, hp, hq⟩ | ⟨-, -, p, hp, hq⟩ | ⟨hw, -⟩
    · exact hsame
    · exact absurd ((hremoves p hp).trans hq) (hapart.not_common (List.prefix_append ..))
    · obtain ⟨r, hr, hle | hle⟩ := (hmakes p hp).ancestor hq
      · rw [List.mem_singleton.mp hr] at hle
        exact absurd ((List.prefix_append ..).trans hle) hapart.1
      · rw [List.mem_singleton.mp hr] at hle
        exact absurd hle (hapart.not_common (List.prefix_append ..))
    · simp [hwrites] at hw
  · rcases op.node_step h.linkFree hnames a (dst ++ rel) with
      hsame | ⟨hnone, -⟩ | ⟨-, hdir, -⟩ | ⟨hw, -⟩
    · exact h.files rel data (hsame.symm.trans hfile)
    · simp [hnone] at hfile
    · simp [hdir] at hfile
    · simp [hwrites] at hw

theorem set (h : Copied t src dst t') (hapart : Apart src dst) (hdata : CopyOf t (src ++ rel) data)
    (hne : dst ++ rel ≠ []) :
    Copied t src dst (t'.set (dst ++ rel) (.file data)) := by
  refine ⟨fun q target hq => ?_, fun rel' => ?_, fun rel' data' hfile => ?_⟩
  · rw [FileTree.node_set hne] at hq
    split at hq
    · cases hq
    · exact h.linkFree q target hq
  · rw [FileTree.node_set hne, if_neg, h.source]
    exact fun heq => hapart.not_common (List.prefix_append src rel') (heq ▸ List.prefix_append ..)
  · rw [FileTree.node_set hne] at hfile
    split at hfile
    · rename_i heq
      rw [List.append_cancel_left heq]
      cases hfile
      exact .inr hdata
    · exact h.files rel' data' hfile

theorem update (h : Copied t src dst t') (hr : ∀ t₂, r = .ok t₂ → Copied t src dst t₂) :
    Copied t src dst (t'.update r).2 := by
  cases r with
  | error e => exact h
  | ok t₂ => exact hr t₂ rfl

end Copied

variable {G : Prog.Guard FsOp FsAnswer FileTree}

theorem keeps_mkdirAll (hapart : Apart src dst) (hp : Near [dst] p) :
    Keeps G (Copied t src dst) (ofCall (.mkdirAll p)) fun _ => True := by
  refine .ofCall fun as t' _ h => ⟨h.step hapart ?_ (fun _ hq => by cases hq) ?_ rfl _,
    fun _ _ => trivial⟩
  · exact fun q hq => near_pair (List.mem_singleton.mp hq ▸ hp)
  · exact fun q hq => List.mem_singleton.mp hq ▸ hp

theorem copyFile_copied (hapart : Apart src dst) (hfile : t.node (src ++ rel) = some (.file whole))
    :
    Keeps G (Copied t src dst) (copyFile (src ++ rel) (dst ++ rel)) fun _ => True := by
  have hdir : Near [dst] (dst ++ rel).dropLast :=
    .ancestor ⟨dst, by simp, .inr (List.prefix_append dst rel)⟩ (List.dropLast_prefix _)
  refine .bind (keeps_mkdirAll hapart hdir) fun _ _ =>
    .bind (.ofCall fun as t' _ h => ⟨h, fun _ _ => trivial⟩) fun _ _ =>
    .bind (.ofCall fun as t' _ h => ⟨?_, fun _ _ => trivial⟩) fun _ _ =>
    .bind (.ofCall fun as t' _ h => ⟨?_, fun _ _ => trivial⟩) fun _ _ =>
    .bind (.attempt (.ofCall fun as t' _ h => ⟨h, fun _ _ => trivial⟩)) fun r _ => ?_
  · change Copied t src dst ((FsOp.createFile (dst ++ rel)).step _ t').2
    rw [FsOp.step]
    split
    · exact h
    · refine h.update fun t₂ hok => ?_
      obtain ⟨hne, rfl⟩ := FileTree.create_eq h.linkFree near_dst hok
      exact h.set hapart ⟨whole, hfile, List.nil_prefix⟩ hne
  · have hcopy : ∀ cutAt, Copied t src dst (t'.update (t'.copy (src ++ rel) (dst ++ rel) cutAt)).2 := by
      refine fun cutAt => h.update fun t₂ hok => ?_
      obtain ⟨data, hdata, hne, rfl⟩ := FileTree.copy_eq h.linkFree near_src near_dst hok
      rw [h.source] at hdata
      exact h.set hapart ⟨data, hdata, by simpa using List.take_prefix _ _⟩ hne
    change Copied t src dst ((FsOp.copyContents (src ++ rel) (dst ++ rel)).step _ t').2
    rw [FsOp.step]
    split
    · exact hcopy _
    · exact hcopy _
  · cases r with
    | ok _ =>
      exact .bind (.attempt (.ofCall fun _ _ _ h => ⟨h, fun _ _ => trivial⟩))
        fun _ _ => .pure trivial
    | error _ => exact .pure trivial

theorem keeps_look {look : FileTree → Except FsErr β}
    (hop : ∀ a t, op.step a t = (if a.fail then .error .io else look t, t))
    (hQ : ∀ t' v, Copied t src dst t' → look t' = .ok v → Q v) :
    Keeps G (Copied t src dst) (ofCall op) Q := by
  refine .ofCall fun as t' _ h => ?_
  change Copied t src dst (op.step (as.headD default) t').2 ∧
    ∀ v, (op.step (as.headD default) t').1 = .ok v → Q v
  rw [hop]
  refine ⟨h, fun v hv => hQ t' v h ?_⟩
  split at hv
  · cases hv
  · exact hv

theorem walkDir_copied (hfree : LinkFree [src, dst] t) (hapart : Apart src dst) {kind : FileKind}
    (hkind : ∃ n, t.node (src ++ rel) = some n ∧ n.kind = kind) :
    Keeps G (Copied t src dst) (walkDir depth (src ++ rel) (dst ++ rel) kind) fun _ => True := by
  induction depth generalizing rel kind with
  | zero => exact .throw
  | succ depth ih =>
    obtain ⟨n, hn, rfl⟩ := hkind
    cases n with
    | dir =>
      refine .bind (keeps_mkdirAll hapart ⟨dst, by simp, .inr (List.prefix_append ..)⟩) fun _ _ =>
        .bind (keeps_look (Q := fun l => ∀ e ∈ l, ∃ n, t.node (src ++ (rel ++ [e.1])) = some n ∧
          n.kind = e.2) (fun _ _ => rfl) ?_) fun entries hentries => .forEach fun e he => ?_
      · intro t' l h hl e he
        rw [FileTree.list_eq h.linkFree near_src hl] at he
        obtain ⟨n, hn, hk⟩ := FileTree.node_of_mem_entries he
        rw [List.append_assoc, h.source] at hn
        exact ⟨n, hn, hk⟩
      · have := ih (hentries e he)
        rwa [← List.append_assoc, ← List.append_assoc] at this
    | file data => exact copyFile_copied hapart hn
    | link target => exact absurd near_src (hfree _ target hn)

theorem copyPath_copied (hfree : LinkFree [src, dst] t) (hapart : Apart src dst) :
    Keeps G (Copied t src dst) (copyPath src dst) fun _ => True := by
  have hsrc : Near [src, dst] src := ⟨src, by simp, .inl List.prefix_rfl⟩
  have hkind : ∀ k t', Copied t src dst t' → t'.stat src = .ok k →
      ∃ n, t.node (src ++ []) = some n ∧ n.kind = k := by
    intro k t' h hstat
    exact h.kind (by simpa using hstat)
  refine .bind (keeps_look (fun _ _ => rfl) fun t' k h => hkind k t' h) ?_
  rintro _ ⟨n, hn, rfl⟩
  cases n with
  | dir =>
    refine .bind (keeps_look (fun _ _ => rfl) fun t' k h hk => hkind k t' h ?_) fun kind hk => ?_
    · rwa [h.linkFree.stat hsrc, ← h.linkFree.lstat hsrc]
    · simpa using walkDir_copied hfree hapart hk
  | file data =>
    change Keeps G (Copied t src dst) (copyFile src dst) fun _ => True
    simpa using copyFile_copied hapart hn
  | link target => exact absurd near_src (hfree _ target hn)

/-- What is below the destination after a copy was there before, or was at the source. -/
theorem copyIfPresent_copied (hfree : LinkFree [src, dst] t) (hapart : Apart src dst)
    (as : List FsAnswer) :
    Copied t src dst ((CacheStore.copyIfPresent src dst).outcome as t).state := by
  refine (Keeps.outcome (Q := fun _ => True) ?_
    ⟨hfree, fun _ => rfl, fun _ _ h => .inl h⟩ (meets_unguarded ..)).1
  refine .bind (.attempt (keeps_look (fun _ _ => rfl) fun _ _ _ _ => trivial)) fun r _ => ?_
  split
  · exact .pure trivial
  · exact .throw
  · refine .bind (.attempt (.ofCall fun as t' _ h => ⟨h.step hapart ?_ ?_
      (fun _ hp => by cases hp) rfl _, fun _ _ => trivial⟩)) fun _ _ => copyPath_copied hfree hapart
    · exact fun p hp => ⟨dst, by simp, .inl (List.mem_singleton.mp hp ▸ List.prefix_rfl)⟩
    · exact fun p hp => by rw [List.mem_singleton.mp hp]

end copied

/-! ## The calls of a run -/

namespace RunnerOp

def copies : RunnerOp β → Option (AbsPath × AbsPath)
  | uploadArtifact repoRoot artifacts name path => some (stepPath repoRoot path, artifacts.dir name)
  | downloadArtifact repoRoot artifacts name path => (artifacts.path name).map fun src =>
    (src, stepPath repoRoot (if trimSpace path == "" then "." else path))
  | useCache repoRoot cache path key => some (cache.dir key, repoRoot.join path)
  | saveEntry repoRoot cache entry => some (repoRoot.join entry.path, cache.dir entry.key)
  | _ => none

def makes : RunnerOp β → Option AbsPath
  | mkdirAll dir => some dir
  | _ => none

def spawns : RunnerOp β → Bool
  | gitStatus .. | sshAgent .. | sshAdd .. | bash .. => true
  | _ => false

def restores : RunnerOp β → Option (AbsPath × String)
  | useCache _ cache path key =>
    if trimSpace path == "" || trimSpace key == "" then none else some (cache.dir key, key)
  | _ => none

def saves : RunnerOp β → Option (AbsPath × AbsPath × String)
  | saveEntry repoRoot cache entry => some (repoRoot.join entry.path, cache.dir entry.key, entry.key)
  | _ => none

variable {h : Host} {a : HostAnswer} {src dst : AbsPath}

theorem sameOutside_of_copies {op : RunnerOp β} (hop : op.copies = some (src, dst))
    (hfree : LinkFree [src, dst] h.files) : SameOutside dst h.files (op.step a h).2.files := by
  cases op with
  | uploadArtifact repoRoot artifacts name path =>
    obtain ⟨rfl, rfl⟩ := hop
    have hsave : Uses (CopyCall (stepPath repoRoot path) (artifacts.dir name)
        [(artifacts.dir name).dropLast]) (artifacts.save name (stepPath repoRoot path)) :=
      .bind freshCopy_calls fun _ => .pure
    refine sameOutside_of_calls ?_ hfree _
    unfold Kindling.uploadArtifact
    split
    · exact .throw
    · exact hsave.mapError
  | downloadArtifact repoRoot artifacts name path =>
    simp only [copies, Option.map_eq_some_iff] at hop
    obtain ⟨_, hpath, rfl, rfl⟩ := hop
    refine sameOutside_of_calls ?_ hfree _
    unfold Kindling.downloadArtifact
    rw [hpath]
    exact .mapError copyArtifactContents_calls
  | useCache repoRoot cache path key =>
    simp only [copies, Option.some.injEq, Prod.mk.injEq] at hop
    obtain ⟨rfl, rfl⟩ := hop
    have hrestore : Uses (CopyCall (cache.dir key) (repoRoot.join path)
        [(repoRoot.join path).dropLast]) (cache.restore key (repoRoot.join path)) := copyIfPresent_calls
    refine sameOutside_of_calls ?_ hfree _
    unfold Kindling.useCache
    split
    · exact .throw
    · exact hrestore.mapError.bind fun _ => .pure
  | saveEntry repoRoot cache entry =>
    obtain ⟨rfl, rfl⟩ := hop
    exact sameOutside_of_calls (.mapError copyIfPresent_calls) hfree _
  | _ => simp [copies] at hop

theorem copied_of_saves {op : RunnerOp β} (hop : op.saves = some (src, dst, key))
    (hfree : LinkFree [src, dst] h.files) (hapart : Apart src dst) :
    Copied h.files src dst (op.step a h).2.files := by
  cases op with
  | saveEntry repoRoot cache entry =>
    simp only [saves, Option.some.injEq, Prod.mk.injEq] at hop
    obtain ⟨rfl, rfl, rfl⟩ := hop
    have hcopied := copyIfPresent_copied hfree hapart a.fs
    change Copied h.files _ _
      (((Kindling.saveEntry repoRoot cache entry).mapError RunnerErr.fs).outcome a.fs h.files).state
    rw [outcome_mapError]
    exact hcopied
  | _ => simp [saves] at hop

theorem copies_of_saves {op : RunnerOp β} (hop : op.saves = some (src, dst, key)) :
    op.copies = some (src, dst) := by
  cases op with
  | saveEntry repoRoot cache entry =>
    simp only [saves, Option.some.injEq, Prod.mk.injEq] at hop
    rw [copies, hop.1, hop.2.1]
  | _ => simp [saves] at hop

/-- Where a file can come from: it was there, a copy goes there, or a process has left it. -/
theorem file_of_step (op : RunnerOp β) (hcopies : ∀ c ∈ op.copies, LinkFree [c.1, c.2] h.files)
    (hmakes : ∀ dir ∈ op.makes, LinkFree [dir] h.files)
    (hfile : (op.step a h).2.files.node q = some (.file data)) :
    h.files.node q = some (.file data) ∨ (∃ c ∈ op.copies, c.2 <+: q) ∨
      op.spawns = true ∧ ∃ t, a.files = some t ∧ t.node q = some (.file data) := by
  have hprocess : ∀ t, a.files.getD h.files = t → t.node q = some (.file data) →
      h.files.node q = some (.file data) ∨ ∃ t, a.files = some t ∧ t.node q = some (.file data) := by
    rintro t rfl ht
    cases hfiles : a.files with
    | none => exact .inl (by simpa [hfiles] using ht)
    | some t => exact .inr ⟨t, rfl, by simpa [hfiles] using ht⟩
  have hcopy : ∀ c ∈ op.copies, h.files.node q = some (.file data) ∨ ∃ c ∈ op.copies, c.2 <+: q := by
    intro c hc
    by_cases hq : c.2 <+: q
    · exact .inr ⟨c, hc, hq⟩
    · exact .inl (sameOutside_of_copies hc (hcopies c hc) q data hq hfile)
  cases op with
  | gitStatus | sshAgent | sshAdd | bash =>
    exact (hprocess _ rfl hfile).imp_right fun h => .inr ⟨rfl, h⟩
  | mkdirAll dir =>
    rcases (FsOp.mkdirAll dir).node_step (hmakes dir rfl) (fun p hp => by
      rw [List.mem_singleton.mp hp]
      exact near_self) (a.fs.headD default) q with hsame | ⟨hnone, -⟩ | ⟨-, hdir, -⟩ | ⟨hw, -⟩
    · exact .inl (hsame.symm.trans hfile)
    · exact absurd (hnone.symm.trans hfile) nofun
    · exact absurd (hdir.symm.trans hfile) nofun
    · cases hw
  | mkdirTemp =>
    refine .inl ?_
    change (if a.fail then _ else _ : Except RunnerErr AbsPath × Host).2.files.node q = _ at hfile
    split at hfile
    · exact hfile
    · exact FileTree.file_of_set_dir hfile
  | uploadArtifact repoRoot artifacts name path => exact (hcopy _ rfl).imp_right .inl
  | downloadArtifact repoRoot artifacts name path =>
    cases hpath : artifacts.path name with
    | none =>
      change ((Kindling.downloadArtifact repoRoot artifacts name path).outcome a.fs h.files).state.node q =
        _ at hfile
      rw [Kindling.downloadArtifact, hpath] at hfile
      exact .inl hfile
    | some src => exact (hcopy _ (by rw [copies, hpath]; rfl)).imp_right .inl
  | useCache repoRoot cache path key => exact (hcopy _ rfl).imp_right .inl
  | saveEntry repoRoot cache entry => exact (hcopy _ rfl).imp_right .inl
  | _ => exact .inl hfile

end RunnerOp

structure WorkflowRun where
  project : Id
  tools : RunnerTools
  fuel : Nat
  plan : ExecutionPlan
  overrides : Vars := ∅
  answers : List HostAnswer := []

def WorkflowRun.prog (r : WorkflowRun) : Prog RunnerOp (Except RunFailure RunResult) :=
  Prog.interp RunOp.prog (LocalWorkflowRunner.run r.tools r.fuel r.plan r.overrides)

/-- A call in a run of a project. -/
abbrev RunMoment := Prog.Moment Id RunnerOp HostAnswer Host

def history : List WorkflowRun → Host → List RunMoment
  | [], _ => []
  | r :: rs, h => r.prog.moments r.project r.answers h ++ history rs (r.prog.run r.answers h).state

theorem history_connected (runs : List WorkflowRun) (h : Host) :
    ∃ h', Prog.Connected h (history runs h) h' := by
  induction runs generalizing h with
  | nil => exact ⟨h, rfl⟩
  | cons r rs ih =>
    obtain ⟨h', hrest⟩ := ih (r.prog.run r.answers h).state
    exact ⟨h', (Prog.connected_moments _ _ _ _).append hrest⟩

def SavedBefore (earlier : List RunMoment) (project : Id) (key : String) (dir rel : AbsPath)
    (data : String) : Prop :=
  ∃ m ∈ earlier, m.owner = project ∧ ∃ src, m.op.saves = some (src, dir, key) ∧
    CopyOf m.before.files (src ++ rel) data

/-- Each file that a cache step restores was saved before, by its project under its key. -/
def RestoresOwn (ms : List RunMoment) : Prop :=
  ∀ earlier m later, ms = earlier ++ m :: later → ∀ dir key, m.op.restores = some (dir, key) →
    ∀ rel data, m.before.files.node (dir ++ rel) = some (.file data) →
      SavedBefore earlier m.owner key dir rel data

/-- A call leaves the directory of a key alone, or saves there for the same project and key. -/
structure Spares (project : Id) (key : String) (dir : AbsPath) (m : RunMoment) : Prop where
  /-- A copy goes elsewhere, or it is a save of the project under the key. No link is near its ends. -/
  copies : ∀ c ∈ m.op.copies, LinkFree [c.1, c.2] m.before.files ∧ (Apart c.2 dir ∨
    m.owner = project ∧ m.op.saves = some (c.1, dir, key) ∧ Apart c.1 dir)
  makes : ∀ made ∈ m.op.makes, LinkFree [made] m.before.files
  /-- A process puts no file there. -/
  spawns : m.op.spawns = true → ∀ t ∈ (m.answers.headD default).files, ∀ rel data,
    t.node (dir ++ rel) = some (.file data) → m.before.files.node (dir ++ rel) = some (.file data)

theorem SavedBefore.later (h : SavedBefore earlier project key dir rel data) (m : RunMoment) :
    SavedBefore (earlier ++ [m]) project key dir rel data := by
  obtain ⟨s, hs, hsave⟩ := h
  exact ⟨s, List.mem_append_left _ hs, hsave⟩

/-- One call: what is at the directory of the key stays saved. -/
theorem Spares.step {m : RunMoment} (hm : Spares project key dir m)
    (h : ∀ rel data, m.before.files.node (dir ++ rel) = some (.file data) →
      SavedBefore earlier project key dir rel data) (rel : AbsPath) (data : String)
    (hfile : m.after.files.node (dir ++ rel) = some (.file data)) :
    SavedBefore (earlier ++ [m]) project key dir rel data := by
  rcases m.op.file_of_step (fun c hc => (hm.copies c hc).1) hm.makes hfile with
    hold | ⟨c, hc, hinto⟩ | ⟨hspawns, t, ht, hleft⟩
  · exact (h rel data hold).later m
  · obtain ⟨hfree, helse | ⟨howner, hsaves, hapart⟩⟩ := hm.copies c hc
    · exact absurd (List.prefix_append dir rel) (helse.not_common hinto)
    · -- the directory holds what it held, and what this save finds
      rw [Option.mem_def, RunnerOp.copies_of_saves hsaves, Option.some.injEq] at hc
      rw [← hc] at hfree
      rcases (RunnerOp.copied_of_saves hsaves hfree hapart).files rel data hfile with
        hold | hcopy
      · exact (h rel data hold).later m
      · exact ⟨m, by simp, howner, c.1, hsaves, hcopy⟩
  · exact (h rel data (hm.spawns hspawns t ht rel data hleft)).later m

example : sanitizeName "a/b" = sanitizeName "a_b" := by decide

/-! ## Runs that share a directory -/

/-- A workflow with one cache step. -/
def cachingRun (project : Id) (repoRoot key : String) : WorkflowRun where
  project := project
  tools := ⟨fun _ => none, fun _ _ => none⟩
  fuel := 2
  plan.repoRoot := repoRoot
  plan.jobs := [{ id := "build", steps := [{ kind := .cache, inputs := .ofList [("path", "out"), ("key", key)] }] }]
  answers := [{ path := .join [] "/tmp/a" }]

def twoWorkspaces : Host where
  env.vars := .ofList [("HOME", "/h")]
  env.proper := by
    intro k hk
    have hk : "HOME" = k := by simpa using hk
    subst hk
    decide
  files.nodes := [(.join [] "/w", .dir), (.join [] "/w/out", .file "built"), (.join [] "/v", .dir),
    (.join [] "/tmp", .dir), (.join [] "/h", .dir)]

/-- A cache step restores a file, and no save before it is of its project and under its key. -/
def restoresForeign (earlier : List RunMoment) (m : RunMoment) : Bool :=
  match m.op.restores with
  | none => false
  | some (dir, key) => ((m.before.files.node dir).map Node.kind == some .file) &&
    earlier.all fun s => !(s.owner == m.owner && s.op.saves.any fun (_, _, key') => key' == key)

theorem not_restoresOwn (i : Fin ms.length) (h : restoresForeign (ms.take i) (ms.get i) = true) :
    ¬RestoresOwn ms := by
  intro hown
  have hms : ms = ms.take i ++ ms.get i :: ms.drop (i + 1) := by simp
  unfold restoresForeign at h
  cases hrestores : (ms.get i).op.restores with
  | none =>
    rw [hrestores] at h
    cases h
  | some r =>
    obtain ⟨dir, key⟩ := r
    simp only [hrestores, Bool.and_eq_true, beq_iff_eq, Option.map_eq_some_iff] at h
    obtain ⟨⟨n, hn, hfile⟩, hnone⟩ := h
    cases n with
    | dir | link => cases hfile
    | file data =>
      obtain ⟨s, hs, howner, src, hsaves, -⟩ :=
        hown _ _ _ hms dir key hrestores [] data (by simpa using hn)
      have := List.all_eq_true.mp hnone s hs
      simp [hsaves, howner] at this

/-- A check of `Spares` where there are no links and no processes. -/
def sparesCheck (project : Id) (key : String) (dir : AbsPath) (m : RunMoment) : Bool :=
  m.before.files.nodes.all (fun e => e.2.kind != .link) && !m.op.spawns &&
    m.op.copies.all fun c => decide (Apart c.2 dir) || m.owner == project &&
      m.op.saves == some (c.1, dir, key) && decide (Apart c.1 dir)

theorem spares_of_check (h : sparesCheck project key dir m = true) : Spares project key dir m := by
  simp only [sparesCheck, Bool.and_eq_true, List.all_eq_true, bne_iff_ne, Bool.not_eq_true',
    Option.all_eq_true, Bool.or_eq_true, decide_eq_true_eq, beq_iff_eq] at h
  obtain ⟨⟨hlinks, hspawns⟩, hcopies⟩ := h
  refine ⟨fun c hc => ⟨.of_nodes hlinks, ?_⟩, fun _ _ => .of_nodes hlinks, fun h => ?_⟩
  · exact (hcopies c hc).imp_right fun h => ⟨h.1.1, h.1.2, h.2⟩
  · rw [hspawns] at h
    cases h

theorem no_file_below {t : FileTree} (h : ∀ e ∈ t.nodes, ¬dir <+: e.1) :
    t.node (dir ++ rel) ≠ some (.file data) := by
  intro hfile
  unfold FileTree.node at hfile
  split at hfile
  · cases hfile
  · obtain ⟨l₁, l₂, hl, -⟩ := List.lookup_eq_some_iff.mp hfile
    exact h (dir ++ rel, .file data) (by simp [hl]) (List.prefix_append ..)

end Kindling
