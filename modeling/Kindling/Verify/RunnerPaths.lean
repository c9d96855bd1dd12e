import Kindling.CI.Stores

/-!
# The paths that store steps touch

Uploads, downloads and the cache of the local runner copy between a workspace and the two stores.
Each copy goes from one path to another, and touches nothing outside them.
-/

namespace Kindling
open Fallible AbsPath

/-- The call touches only places inside the roots. -/
def Inside (roots : List AbsPath) : Prog.Guard FsOp FsAnswer FileTree :=
  fun _ op _ t => ∀ q ∈ op.touches t, Under roots q

instance : Decidable (Inside roots β op as t) :=
  inferInstanceAs (Decidable (∀ q ∈ op.touches t, Under roots q))

/-- Whatever fails on the way, every call touches only places inside the roots. -/
def Confined (roots : List AbsPath) (p : Fallible ε FsOp α) (t : FileTree) : Prop :=
  ∀ as, Meets (Inside roots) p as t

/-- The directories that the store steps of a run may touch. -/
def storeRoots (repoRoot : AbsPath) (artifacts : ArtifactStore) (cache : CacheStore) : List AbsPath :=
  [repoRoot, artifacts.root, cache.root]

/-- Both ends of a copy are inside the roots; the copy of a single file also looks at the directory
that it goes to. -/
structure CopyInside (roots : List AbsPath) (t : FileTree) (src dst : AbsPath) : Prop where
  source : Under roots src
  dir : t.stat src = .ok .dir → Under roots dst
  file : t.stat src = .ok .file → Under roots dst.dropLast

section sufficient
variable {roots : List AbsPath} {t : FileTree} {src dst : AbsPath}

def NamesInside (roots : List AbsPath) (β : Type) (op : FsOp β) : Prop := ∀ p ∈ op.names, Under roots p

theorem NamesInside.one (hp : Under roots p) (h : op.names = [p]) : NamesInside roots β op := by
  intro q hq
  rw [h, List.mem_singleton] at hq
  exact hq ▸ hp

/-- A call of a copy: it names paths below the source and the destination and of a list of others,
and changes only what is below the destination, apart from new directories. -/
structure CopyCall (src dst : AbsPath) (others : List AbsPath) (β : Type) (op : FsOp β) : Prop where
  names : ∀ p ∈ op.names, Under [src, dst] p ∨ p ∈ others
  changes : ∀ p, p ∈ op.removes ∨ p ∈ op.writes → dst <+: p

section calls
variable {others : List AbsPath} {path target : AbsPath}

theorem under_src (h : src <+: p) : Under [src, dst] p := ⟨src, by simp, h⟩

theorem under_dst (h : dst <+: p) : Under [src, dst] p := ⟨dst, by simp, h⟩

theorem CopyCall.look (h : op.names = [p]) (hremoves : op.removes = []) (hwrites : op.writes = [])
    (hp : Under [src, dst] p ∨ p ∈ others) :
    CopyCall src dst others β op := by
  refine ⟨fun q hq => ?_, fun q hq => by simp [hremoves, hwrites] at hq⟩
  rw [h, List.mem_singleton] at hq
  exact hq ▸ hp

theorem CopyCall.change (h : ∀ p ∈ op.names, dst <+: p) : CopyCall src dst others β op :=
  ⟨fun p hp => .inl (under_dst (h p hp)), fun p hp => h p (op.mem_names (hp.imp_right .inr))⟩

theorem copyFile_calls (hpath : src <+: path) (htarget : dst <+: target)
    (hdir : Under [src, dst] target.dropLast ∨ target.dropLast ∈ others) :
    Uses (CopyCall src dst others) (copyFile path target) := by
  have hsrc : Under [src, dst] path ∨ path ∈ others := .inl (under_src hpath)
  have hdst : Under [src, dst] target ∨ target ∈ others := .inl (under_dst htarget)
  refine .bind (.ofCall (.look rfl rfl rfl hdir)) fun _ =>
    .bind (.ofCall (.look rfl rfl rfl hsrc)) fun _ =>
    .bind (.ofCall (.change fun p hp => by rwa [List.mem_singleton.mp hp])) fun _ =>
    .bind (.ofCall ⟨fun p hp => ?_, ?_⟩) fun _ =>
    .bind (.attempt (.ofCall (.look rfl rfl rfl hsrc))) fun r => ?_
  · rcases List.mem_pair.mp hp with rfl | rfl
    · exact hsrc
    · exact hdst
  · rintro p (hp | hp)
    · cases hp
    · rwa [List.mem_singleton.mp hp]
  · cases r with
    | ok _ => exact .bind (.attempt (.ofCall (.look rfl rfl rfl hdst))) fun _ => .pure
    | error _ => exact .pure

theorem walkDir_calls {kind : FileKind} (hpath : src <+: path) (htarget : dst <+: target)
    (hdir : kind ≠ .dir → Under [src, dst] target.dropLast ∨ target.dropLast ∈ others) :
    Uses (CopyCall src dst others) (walkDir depth path target kind) := by
  induction depth generalizing path target kind with
  | zero => exact .throw
  | succ depth ih =>
    cases kind with
    | dir =>
      refine .bind (.ofCall (.look rfl rfl rfl (.inl (under_dst htarget)))) fun _ =>
        .bind (.ofCall (.look rfl rfl rfl (.inl (under_src hpath)))) fun entries =>
        .forEach fun e _ => ?_
      -- an entry goes to an entry of the directory that has been made
      exact ih (hpath.trans (List.prefix_append ..)) (htarget.trans (List.prefix_append ..))
        fun _ => .inl (under_dst (by simpa using htarget))
    | file | link => exact copyFile_calls hpath htarget (hdir nofun)

theorem copyPath_calls (hpath : src <+: path) (htarget : dst <+: target)
    (hdir : Under [src, dst] target.dropLast ∨ target.dropLast ∈ others) :
    Uses (CopyCall src dst others) (copyPath path target) := by
  refine .bind (.ofCall (.look rfl rfl rfl (.inl (under_src hpath)))) fun kind => ?_
  cases kind with
  | dir =>
    exact .bind (.ofCall (.look rfl rfl rfl (.inl (under_src hpath)))) fun _ =>
      walkDir_calls hpath htarget fun _ => hdir
  | file | link => exact copyFile_calls hpath htarget hdir

end calls

theorem complies_of_calls (others : List AbsPath) (h : Uses (CopyCall src dst others) p)
    (hsrc : Under roots src) (hdst : Under roots dst) (hothers : ∀ q ∈ others, Under roots q)
    (ht : Enclosed roots t) :
    Complies (Inside roots) p (fun _ _ => True) t := by
  refine (h.complies (fun β op hop as _ ht => ?_) ht).mono fun _ _ _ => trivial
  have hnames : NamesInside roots β op := by
    intro q hq
    rcases hop.names q hq with ⟨r, hr, hrq⟩ | hq
    · rcases List.mem_pair.mp hr with rfl | rfl
      · exact hsrc.trans hrq
      · exact hdst.trans hrq
    · exact hothers q hq
  exact ⟨ht.touches op hnames, ht.step op hnames (as.headD default)⟩

/-- Without links, what a path leads to is what it names. -/
theorem Enclosed.lstat_eq_stat (ht : Enclosed roots t) (hp : Under roots p) :
    t.lstat p = t.stat p :=
  (ht.linkFree.lstat hp.near).trans (ht.linkFree.stat hp.near).symm

theorem Enclosed.stat_ne_link (ht : Enclosed roots t) (hp : Under roots p) :
    t.stat p ≠ .ok .link := by
  intro h
  obtain ⟨n, hn, hkind⟩ := (ht.linkFree.stat_eq_ok hp.near).mp h
  cases n with
  | dir | file => cases hkind
  | link target => exact ht.linkFree p target hn hp.near

theorem complies_look {op : FsOp (Except FsErr β)} (ht : Enclosed roots t)
    (hop : NamesInside roots _ op)
    (hstep : ∀ a, op.step a t = (if a.fail then .error .io else r, t)) :
    Complies (Inside roots) (ofCall op) (fun r' t' => t' = t ∧ ∀ v, r' = .ok v → r = .ok v) t := by
  refine .ofCall fun as => ⟨ht.touches op hop, ?_⟩
  change (op.step (as.headD default) t).2 = t ∧
    ∀ v, (op.step (as.headD default) t).1 = .ok v → r = .ok v
  rw [hstep]
  refine ⟨rfl, fun v hv => ?_⟩
  split at hv
  · cases hv
  · exact hv

theorem copyPath_complies (ht : Enclosed roots t) (h : CopyInside roots t src dst) :
    Complies (Inside roots) (copyPath src dst) (fun _ _ => True) t := by
  refine .bind (complies_look ht (.one h.source rfl) fun a => rfl) ?_ fun _ _ _ => trivial
  rintro kind _ ⟨rfl, hkind⟩
  have hstat := hkind kind rfl
  cases kind with
  | dir =>
    refine .bind (complies_look ht (.one h.source rfl) fun a => rfl) ?_ fun _ _ _ => trivial
    rintro kind' _ ⟨rfl, hkind'⟩
    have hlstat := hkind' kind' rfl
    rw [ht.lstat_eq_stat h.source, hstat, Except.ok.injEq] at hlstat
    subst hlstat
    exact complies_of_calls [] (walkDir_calls List.prefix_rfl List.prefix_rfl nofun) h.source
      (h.dir hstat) nofun ht
  | file =>
    have hdst := h.file hstat
    exact complies_of_calls [dst.dropLast] (copyFile_calls List.prefix_rfl List.prefix_rfl
      (.inr (List.mem_singleton_self _))) h.source (.of_dropLast hdst)
      (fun q hq => List.mem_singleton.mp hq ▸ hdst) ht
  | link => exact absurd hstat (ht.stat_ne_link h.source)

end sufficient

section necessary
variable {roots : List AbsPath} {t : FileTree} {src dst : AbsPath}

theorem near_self : Near [p] p := ⟨p, List.mem_singleton_self p, .inl List.prefix_rfl⟩

theorem under_of_follow (hfree : LinkFree places t) (hp : Near places p)
    (h : Under roots (placeOr p (t.follow p))) : Under roots p := by
  rwa [hfree.follow hp] at h

theorem copyInside_of_meets (hsrc : LinkFree [src] t) (hdst : LinkFree [dst] t)
    (h : Meets (Inside roots) (copyPath src dst) [] t) : CopyInside roots t src dst := by
  obtain ⟨hstat, hrest⟩ := meets_ofCall_bind.mp h
  refine ⟨under_of_follow hsrc near_self (hstat _ (List.mem_singleton_self _)), fun hdir => ?_,
    fun hfile => ?_⟩
  · have hlstat : t.lstat src = .ok .dir := by
      rw [hsrc.lstat near_self, ← hsrc.stat near_self, hdir]
    obtain ⟨-, hrest⟩ := meets_ofCall_bind.mp (hrest .dir hdir)
    obtain ⟨hmkdir, -⟩ := meets_ofCall_bind.mp (hrest .dir hlstat)
    exact under_of_follow hdst near_self (hmkdir _ List.mem_cons_self)
  · obtain ⟨hmkdir, -⟩ := meets_ofCall_bind.mp (hrest .file hfile)
    exact under_of_follow hdst (near_self.ancestor (List.dropLast_prefix dst))
      (hmkdir _ List.mem_cons_self)

theorem copyArtifactContents_confined (ht : Enclosed roots t) (hsrc : LinkFree [src] t)
    (hdst : LinkFree [dst] t) :
    Confined roots (copyArtifactContents src dst) t ↔ CopyInside roots t src dst := by
  refine ⟨fun h => ?_, fun h as => ?_⟩
  · obtain ⟨hstat, hrest⟩ := meets_ofCall_bind.mp (h [])
    refine ⟨under_of_follow hsrc near_self (hstat _ (List.mem_singleton_self _)),
      fun hdir => ?_, fun hfile => ?_⟩
    · obtain ⟨hmkdir, -⟩ := meets_ofCall_bind.mp (hrest .dir hdir)
      exact under_of_follow hdst near_self (hmkdir _ List.mem_cons_self)
    · obtain ⟨hmkdir, -⟩ := meets_ofCall_bind.mp (hrest .file hfile)
      exact under_of_follow hdst (near_self.ancestor (List.dropLast_prefix dst))
        (hmkdir _ List.mem_cons_self)
  · refine Complies.meets (Q := fun _ _ => True) ?_ as
    refine .bind (complies_look ht (.one h.source rfl) fun a => rfl) ?_ fun _ _ _ => trivial
    rintro kind _ ⟨rfl, hkind⟩
    have hstat := hkind kind rfl
    cases kind with
    | dir =>
      refine complies_of_calls [] ?_ h.source (h.dir hstat) nofun ht
      refine .bind (.ofCall (.look rfl rfl rfl (.inl (under_dst List.prefix_rfl)))) fun _ =>
        .bind (.ofCall (.look rfl rfl rfl (.inl (under_src List.prefix_rfl)))) fun entries =>
        .forEach fun e _ => copyPath_calls (List.prefix_append ..) (List.prefix_append ..) ?_
      exact .inl (under_dst (by simp))
    | file =>
      have hdst := h.file hstat
      refine complies_of_calls [dst.dropLast] ?_ h.source (.of_dropLast hdst)
        (fun q hq => List.mem_singleton.mp hq ▸ hdst) ht
      have hdir : Under [src, dst] dst.dropLast ∨ dst.dropLast ∈ [dst.dropLast] := .inr (by simp)
      exact .bind (.ofCall (.look rfl rfl rfl hdir)) fun _ =>
        copyFile_calls List.prefix_rfl List.prefix_rfl hdir
    | link => exact absurd hstat (ht.stat_ne_link h.source)

theorem CopyInside.after_remove (h : CopyInside roots t src dst) (ht : Enclosed roots t)
    (hdst : Under roots dst) (a : FsAnswer) :
    CopyInside roots ((FsOp.removeAll dst).step a t).2 src dst := by
  have hop : NamesInside roots _ (.removeAll dst) := .one hdst rfl
  have hstat : ∀ k, ((FsOp.removeAll dst).step a t).2.stat src = .ok k → t.stat src = .ok k := by
    intro k hk
    have ht' := ht.step (.removeAll dst) hop a
    obtain ⟨n, hn, hkind⟩ := (ht'.linkFree.stat_eq_ok h.source.near).mp hk
    refine (ht.linkFree.stat_eq_ok h.source.near).mpr ⟨n, ?_, hkind⟩
    rcases (FsOp.removeAll dst).node_step ht.linkFree (fun p hp => (hop p hp).near) a src with
      hsame | ⟨hnone, -⟩ | ⟨-, -, p, hp, -⟩ | ⟨hp, -⟩
    · exact hsame.symm.trans hn
    · simp [hnone] at hn
    · cases hp
    · cases hp
  exact ⟨h.source, fun hdir => h.dir (hstat _ hdir), fun hfile => h.file (hstat _ hfile)⟩

theorem freshCopy_complies (ht : Enclosed roots t) (hdst : Under roots dst)
    (h : CopyInside roots t src dst) :
    Complies (Inside roots) (freshCopy src dst) (fun _ _ => True) t := by
  have hop : NamesInside roots _ (.removeAll dst) := .one hdst rfl
  refine .attempt_bind (Q := fun _ t' => Enclosed roots t' ∧ CopyInside roots t' src dst)
    (.ofCall fun as => ⟨ht.touches _ hop, ht.step _ hop _, h.after_remove ht hdst _⟩) ?_
  rintro _ t' ⟨ht', h'⟩
  exact copyPath_complies ht' h'

/-- What a fresh copy that stays inside says of its paths: the removal is inside, and the removal may
fail, which leaves the copy to be made in the tree as it was. -/
theorem inside_of_freshCopy (hsrc : LinkFree [src] t) (hdst : LinkFree [dst] t)
    (h : Meets (Inside roots) (freshCopy src dst) [{ fail := true }] t) :
    Under roots dst ∧ CopyInside roots t src dst := by
  obtain ⟨hremove, hcopy⟩ := meets_attempt_bind.mp h
  refine ⟨?_, copyInside_of_meets hsrc hdst hcopy⟩
  have := meets_ofCall.mp hremove _ (List.mem_singleton_self _)
  rwa [hdst.locate near_self] at this

theorem freshCopy_confined (ht : Enclosed roots t) (hsrc : LinkFree [src] t)
    (hdst : LinkFree [dst] t) :
    Confined roots (freshCopy src dst) t ↔ Under roots dst ∧ CopyInside roots t src dst :=
  ⟨fun h => inside_of_freshCopy hsrc hdst (h _), fun h => (freshCopy_complies ht h.1 h.2).meets⟩

theorem copyIfPresent_confined (ht : Enclosed roots t) (hsrc : LinkFree [src] t)
    (hdst : LinkFree [dst] t) :
    Confined roots (CacheStore.copyIfPresent src dst) t ↔ CopyInside roots t src dst := by
  refine ⟨fun h => ?_, fun h => ?_⟩
  · obtain ⟨hstat, hrest⟩ := meets_attempt_bind.mp (h [default, { fail := true }])
    have hsource := under_of_follow hsrc near_self
      (meets_ofCall.mp hstat _ (List.mem_singleton_self _))
    -- if there is a source, the copy is made
    cases hs : t.stat src with
    | error e => exact ⟨hsource, by simp [hs], by simp [hs]⟩
    | ok k =>
      have hcopy : Meets (Inside roots) (freshCopy src dst) [{ fail := true }] t := by
        have hk : ((ofCall (FsOp.stat src)).outcome [default, { fail := true }] t).value = .ok k := hs
        rwa [hk] at hrest
      exact (inside_of_freshCopy hsrc hdst hcopy).2
  · refine Complies.meets (Q := fun _ _ => True) ?_
    refine .attempt_bind (complies_look ht (.one h.source rfl) fun a => rfl) ?_
    rintro r _ ⟨rfl, hr⟩
    cases r with
    | error e => cases e <;> trivial
    | ok k =>
      have hstat := hr k rfl
      refine freshCopy_complies ht ?_ h
      cases k with
      | dir => exact h.dir hstat
      | file => exact .of_dropLast (h.file hstat)
      | link => exact absurd hstat (ht.stat_ne_link h.source)

end necessary

def sampleHost (links : List (AbsPath × Node)) : FileTree where
  nodes := links ++ [(.join [] "/w", .dir), (.join [] "/w/out", .file "built"), (.join [] "/tmp", .dir),
    (.join [] "/tmp/a", .dir), (.join [] "/c", .dir), (.join [] "/etc", .dir),
    (.join [] "/etc/passwd", .file "root")]

def sampleArtifacts : ArtifactStore where
  root := .join [] "/tmp/a"

def sampleCache : CacheStore where
  root := .join [] "/c"

theorem sampleHost_enclosed :
    Enclosed (storeRoots (.join [] "/w") sampleArtifacts sampleCache) (sampleHost []) :=
  .of_nodes (by decide +kernel) (by decide +kernel)

end Kindling
