import Mathlib.Data.List.Infix
import Kindling.Lib.Prog

/-!
# File trees

Absolute paths as lists of names, a tree of directories, files and symbolic links, and the calls of
an operating system on it. `AbsPath.join` cleans a path lexically. A call follows the links on its
path; where no link is near, it touches the paths that it names (`LinkFree`).
-/

namespace Kindling

/-- What the name of a directory entry can be. -/
def IsFileName (s : String) : Prop := s ≠ "" ∧ s ≠ "." ∧ s ≠ ".." ∧ '/' ∉ s.toList

instance : DecidablePred IsFileName := fun _ => inferInstanceAs (Decidable (_ ∧ _))

structure FileName where
  text : String
  proper : IsFileName text
  deriving DecidableEq

/-- An absolute path without dots, from the root downwards. -/
abbrev AbsPath := List FileName

namespace AbsPath

/-- Follow one component of a path in words. -/
def enter (p : AbsPath) (c : List Char) : AbsPath :=
  if h : IsFileName (String.ofList c) then p ++ [⟨String.ofList c, h⟩]
  else if c == ['.', '.'] then p.dropLast
  else p

/-- Follow a relative path in words. -/
def join (p : AbsPath) (s : String) : AbsPath := (s.toList.splitOn '/').foldl enter p

/-- The path lies in one of the directories. -/
def Under (roots : List AbsPath) (p : AbsPath) : Prop := ∃ r ∈ roots, r <+: p

instance : DecidablePred (Under roots) :=
  fun p => inferInstanceAs (Decidable (∃ r ∈ roots, r <+: p))

theorem Under.trans (h : Under roots p) (hq : p <+: q) : Under roots q := by
  obtain ⟨r, hr, hp⟩ := h
  exact ⟨r, hr, hp.trans hq⟩

theorem Under.of_dropLast (h : Under roots p.dropLast) :
    Under roots p := h.trans (List.dropLast_prefix p)

/-- Neither path lies below the other. -/
def Apart (p q : AbsPath) : Prop := ¬p <+: q ∧ ¬q <+: p

instance : Decidable (Apart p q) := inferInstanceAs (Decidable (_ ∧ _))

theorem Apart.not_common (h : Apart p q) (hp : p <+: r) : ¬q <+: r :=
  fun hq => (List.prefix_or_prefix_of_prefix hp hq).elim h.1 h.2

end AbsPath

inductive Node
  | dir
  | file (data : String)
  | link (target : AbsPath)
  deriving DecidableEq

inductive FileKind
  | dir | file | link
  deriving DecidableEq, Repr

def Node.kind : Node → FileKind
  | dir => .dir
  | file _ => .file
  | link _ => .link

inductive FsErr
  | notExist | notDir | isDir | exists | loop | nameTooLong | io
  deriving DecidableEq, Repr

structure FileTree where
  nodes : List (AbsPath × Node)
  deriving DecidableEq

namespace FileTree

/-- What is at a path; the root is always there. -/
def node (t : FileTree) (p : AbsPath) : Option Node := if p = [] then some .dir else t.nodes.lookup p

def set (t : FileTree) (p : AbsPath) (n : Node) : FileTree := ⟨(p, n) :: t.nodes⟩

def drop (t : FileTree) (p : AbsPath) : FileTree := ⟨t.nodes.filter fun e => !decide (p <+: e.1)⟩

def entries (t : FileTree) (p : AbsPath) : List (FileName × FileKind) :=
  let names := t.nodes.filterMap fun e => if e.1.dropLast = p then e.1.getLast? else none
  names.dedup.filterMap fun c => (t.node (p ++ [c])).map fun n => (c, n.kind)

theorem node_set {t : FileTree} (hp : p ≠ []) :
    (t.set p n).node q = if q = p then some n else t.node q := by
  by_cases hq : q = []
  · subst hq
    simp [node, hp.symm]
  · by_cases hqp : q = p
    · subst hqp
      simp [node, set, hq]
    · simp [node, set, List.lookup_cons, beq_false_of_ne hqp, hqp]

theorem file_of_set_dir {t : FileTree} (h : (t.set p .dir).node q = some (.file data)) :
    t.node q = some (.file data) := by
  by_cases hp : p = []
  · subst hp
    by_cases hq : q = []
    · simp [node, hq] at h
    · simpa [node, set, List.lookup_cons, beq_false_of_ne hq] using h
  · rw [node_set hp] at h
    split at h
    · cases h
    · exact h

theorem lookup_filter {α β : Type} [BEq α] [LawfulBEq α] (f : α → Bool) (l : List (α × β)) (a : α) :
    (l.filter fun e => f e.1).lookup a = if f a then l.lookup a else none := by
  induction l with
  | nil => simp
  | cons e l ih =>
    obtain ⟨b, v⟩ := e
    by_cases hab : a = b
    · subst hab
      rw [List.filter_cons]
      cases hf : f a with
      | false => exact ih.trans (by simp [hf])
      | true => simp
    · cases hf : f b <;> simp [List.lookup_cons, hf, beq_false_of_ne hab, ih]

theorem node_drop {t : FileTree} (hq : q ≠ []) :
    (t.drop p).node q = if p <+: q then none else t.node q := by
  rw [node, node, if_neg hq, if_neg hq]
  refine (lookup_filter (fun q => !decide (p <+: q)) t.nodes q).trans ?_
  by_cases hpq : p <+: q <;> simp

theorem node_of_mem_entries {t : FileTree} (h : (c, k) ∈ t.entries p) :
    ∃ n, t.node (p ++ [c]) = some n ∧ n.kind = k := by
  simp only [entries, List.mem_filterMap, Option.map_eq_some_iff] at h
  obtain ⟨c', -, n, hn, rfl, rfl⟩ := h
  exact ⟨n, hn, rfl⟩

/-- The path after the first link on the way is followed, if there is one. -/
def firstLink (t : FileTree) (done : AbsPath) : AbsPath → Option AbsPath
  | [] => none
  | c :: rest => match t.node (done ++ [c]) with
    | some (.link target) => some (target ++ rest)
    | _ => firstLink t (done ++ [c]) rest

/-- The place of a path, after at most so many links. -/
def resolve (t : FileTree) (hops : Nat) (p : AbsPath) : Option AbsPath :=
  match t.firstLink [] p with
  | none => some p
  | some q => match hops with
    | 0 => none
    | n + 1 => resolve t n q

/-- How many links an operating system follows. -/
def maxHops : Nat := 40

/-- The place that a path leads to. -/
def follow (t : FileTree) (p : AbsPath) : Except FsErr AbsPath :=
  match t.resolve maxHops p with
  | none => .error .loop
  | some q => .ok q

/-- The place that a path names, which may itself be a link. -/
def locate (t : FileTree) (p : AbsPath) : Except FsErr AbsPath :=
  match p.getLast? with
  | none => .ok []
  | some c => (t.follow p.dropLast).map (· ++ [c])

def find (t : FileTree) (p : AbsPath) : Except FsErr Node :=
  match t.node p with
  | some n => .ok n
  | none => if p.inits.any fun q => (t.node q).map Node.kind == some .file then .error .notDir
    else .error .notExist

def stat (t : FileTree) (p : AbsPath) : Except FsErr FileKind :=
  (t.follow p).bind fun q => (t.find q).map Node.kind

def lstat (t : FileTree) (p : AbsPath) : Except FsErr FileKind :=
  (t.locate p).bind fun q => (t.find q).map Node.kind

end FileTree

inductive FsOp : Type → Type 1
  | stat (p : AbsPath) : FsOp (Except FsErr FileKind)
  | lstat (p : AbsPath) : FsOp (Except FsErr FileKind)
  | readDir (p : AbsPath) : FsOp (Except FsErr (List (FileName × FileKind)))
  /-- Remove a path and everything below it; nothing to remove is no error. -/
  | removeAll (p : AbsPath) : FsOp (Except FsErr Unit)
  /-- Make a directory, and those above it that are missing. -/
  | mkdirAll (p : AbsPath) : FsOp (Except FsErr Unit)
  | openFile (p : AbsPath) : FsOp (Except FsErr Unit)
  /-- Make a file, or empty it. -/
  | createFile (p : AbsPath) : FsOp (Except FsErr Unit)
  /-- Copy the contents of an open file into another. -/
  | copyContents (src dst : AbsPath) : FsOp (Except FsErr Unit)
  | chmod (p : AbsPath) : FsOp (Except FsErr Unit)

/-- How the environment answers a call: it may fail, and a copy may be cut short. -/
structure FsAnswer where
  fail : Bool := false
  written : Nat := 0
  deriving DecidableEq, Repr, Inhabited

namespace FileTree

/-- Make the directories of the second path that are missing below the first. -/
def mkdirFrom (t : FileTree) (done : AbsPath) : AbsPath → Except FsErr FileTree
  | [] => .ok t
  | c :: rest =>
    match t.stat (done ++ [c]) with
    | .ok .dir => mkdirFrom t (done ++ [c]) rest
    | .ok _ => .error .notDir
    | .error .notExist => (t.locate (done ++ [c])).bind fun q =>
      -- a link that leads nowhere is in the way
      if (t.node q).isSome then .error .exists else mkdirFrom (t.set q .dir) (done ++ [c]) rest
    | .error e => .error e

def create (t : FileTree) (p : AbsPath) : Except FsErr FileTree :=
  (t.follow p).bind fun q => match t.node q with
    | some .dir => .error .isDir
    | some _ => .ok (t.set q (.file ""))
    | none => (t.find q.dropLast).bind fun
      | .dir => .ok (t.set q (.file ""))
      | _ => .error .notDir

def list (t : FileTree) (p : AbsPath) : Except FsErr (List (FileName × FileKind)) :=
  (t.follow p).bind fun q => (t.find q).bind fun
    | .dir => .ok (t.entries q)
    | _ => .error .notDir

/-- Copy a file, or its first characters if the environment cuts the copy short. -/
def copy (t : FileTree) (src dst : AbsPath) (cutAt : Option Nat) : Except FsErr FileTree :=
  (t.follow src).bind fun p => (t.follow dst).bind fun q =>
    match t.node p, t.node q with
    | some (.file data), some (.file _) =>
      .ok (t.set q (.file (String.ofList (data.toList.take (cutAt.getD data.length)))))
    | some (.file _), _ => .error .io
    | _, _ => .error .isDir

end FileTree

/-- A change that may be refused. -/
def FileTree.update (t : FileTree) (r : Except FsErr FileTree) : Except FsErr Unit × FileTree :=
  match r with
  | .ok t' => (.ok (), t')
  | .error e => (.error e, t)

def FsOp.step : FsOp β → FsAnswer → FileTree → β × FileTree
  | stat p, a, t => (if a.fail then .error .io else t.stat p, t)
  | lstat p, a, t => (if a.fail then .error .io else t.lstat p, t)
  | readDir p, a, t => (if a.fail then .error .io else t.list p, t)
  | removeAll p, a, t => if a.fail then (.error .io, t) else t.update ((t.locate p).map t.drop)
  | mkdirAll p, a, t => if a.fail then (.error .io, t) else t.update (t.mkdirFrom [] p)
  | openFile p, a, t => (if a.fail then .error .io else (t.stat p).map fun _ => (), t)
  | createFile p, a, t => if a.fail then (.error .io, t) else t.update (t.create p)
  | copyContents src dst, a, t =>
    if a.fail then (.error .io, (t.update (t.copy src dst (some a.written))).2)
    else t.update (t.copy src dst none)
  | chmod p, a, t => (if a.fail then .error .io else (t.stat p).map fun _ => (), t)

instance : Atomic FsOp FsAnswer FileTree where
  step := FsOp.step

/-- The place of a path, or the path itself if it leads nowhere. -/
def placeOr (p : AbsPath) (r : Except FsErr AbsPath) : AbsPath :=
  match r with
  | .ok q => q
  | .error _ => p

def FsOp.touches : FsOp β → FileTree → List AbsPath
  | stat p, t | readDir p, t | openFile p, t | createFile p, t | chmod p, t =>
    [placeOr p (t.follow p)]
  | lstat p, t | removeAll p, t => [placeOr p (t.locate p)]
  | mkdirAll p, t => placeOr p (t.follow p) ::
    (p.inits.filter fun q => t.stat q == .error .notExist).map fun q => placeOr q (t.locate q)
  | copyContents src dst, t => [placeOr src (t.follow src), placeOr dst (t.follow dst)]

/-- The path is on the way to one of the places, or below it. -/
def Near (places : List AbsPath) (p : AbsPath) : Prop := ∃ r ∈ places, p <+: r ∨ r <+: p

theorem Near.ancestor (h : Near places p) (hq : q <+: p) : Near places q := by
  obtain ⟨r, hr, hpr | hrp⟩ := h
  · exact ⟨r, hr, .inl (hq.trans hpr)⟩
  · exact ⟨r, hr, List.prefix_or_prefix_of_prefix hq hrp⟩

theorem AbsPath.Under.near (h : AbsPath.Under roots p) : Near roots p := by
  obtain ⟨r, hr, hrp⟩ := h
  exact ⟨r, hr, .inr hrp⟩

/-- No link is on the way to any of the places, or below it. -/
def LinkFree (places : List AbsPath) (t : FileTree) : Prop :=
  ∀ p target, t.node p = some (.link target) → ¬Near places p

namespace LinkFree
variable {places : List AbsPath} {t : FileTree} {p : AbsPath}

theorem of_nodes (h : ∀ e ∈ t.nodes, e.2.kind ≠ .link) : LinkFree places t := by
  intro p target hp
  unfold FileTree.node at hp
  split at hp
  · cases hp
  · obtain ⟨l₁, l₂, hl, -⟩ := List.lookup_eq_some_iff.mp hp
    exact absurd rfl (h (p, .link target) (by simp [hl]))

theorem firstLink (h : LinkFree places t) (done : AbsPath) (hp : Near places (done ++ p)) :
    t.firstLink done p = none := by
  induction p generalizing done with
  | nil => rfl
  | cons c rest ih =>
    have hc : Near places (done ++ [c]) := hp.ancestor (by simp)
    rw [FileTree.firstLink]
    split
    · exact absurd hc (h _ _ ‹_›)
    · exact ih _ (by simpa using hp)

theorem follow (h : LinkFree places t) (hp : Near places p) : t.follow p = .ok p := by
  rw [FileTree.follow, FileTree.resolve.eq_def, h.firstLink [] hp]

theorem locate (h : LinkFree places t) (hp : Near places p) : t.locate p = .ok p := by
  rw [FileTree.locate]
  rcases List.eq_nil_or_concat p with rfl | ⟨init, c, rfl⟩
  · rfl
  · simp only [List.concat_eq_append, List.getLast?_concat, List.dropLast_concat]
    rw [h.follow (hp.ancestor (by simp))]
    rfl

theorem stat (h : LinkFree places t) (hp : Near places p) :
    t.stat p = (t.find p).map Node.kind := by
  rw [FileTree.stat, h.follow hp]
  rfl

theorem lstat (h : LinkFree places t) (hp : Near places p) :
    t.lstat p = (t.find p).map Node.kind := by
  rw [FileTree.lstat, h.locate hp]
  rfl

end LinkFree

theorem FileTree.find_of_node {t : FileTree} (h : t.node p = some n) : t.find p = .ok n := by
  rw [FileTree.find, h]

theorem FileTree.find_eq_ok {t : FileTree} : t.find p = .ok n ↔ t.node p = some n := by
  refine ⟨fun h => ?_, find_of_node⟩
  unfold FileTree.find at h
  split at h
  · cases h
    assumption
  · split at h <;> cases h

theorem LinkFree.stat_eq_ok {t : FileTree} (h : LinkFree places t) (hp : Near places p) :
    t.stat p = .ok k ↔ ∃ n, t.node p = some n ∧ n.kind = k := by
  rw [h.stat hp]
  cases hfind : t.find p with
  | error e =>
    simp only [Except.map, false_iff, reduceCtorEq, not_exists, not_and]
    exact fun n hn _ => by simp [FileTree.find_of_node hn] at hfind
  | ok n => simp [Except.map, FileTree.find_eq_ok.mp hfind]

/-! ## What a call changes -/

namespace FsOp

def names : FsOp β → List AbsPath
  | stat p | lstat p | readDir p | removeAll p | mkdirAll p | openFile p | createFile p | chmod p => [p]
  | copyContents src dst => [src, dst]

def removes : FsOp β → List AbsPath
  | removeAll p => [p]
  | _ => []

def makes : FsOp β → List AbsPath
  | mkdirAll p => [p]
  | _ => []

def writes : FsOp β → List AbsPath
  | createFile p => [p]
  | copyContents _ dst => [dst]
  | _ => []

/-- A call changes only what it names. -/
theorem mem_names (op : FsOp β) (h : p ∈ op.removes ∨ p ∈ op.makes ∨ p ∈ op.writes) :
    p ∈ op.names := by
  cases op <;> simp_all [removes, makes, writes, names]

end FsOp

/-- A step of the tree at one path: nothing, the end of a removed tree, a new directory on the way to
one that is made, or a file written. -/
def NodeStep (removes makes writes : List AbsPath) (q : AbsPath) (before after : Option Node) : Prop :=
  after = before ∨ (after = none ∧ ∃ p ∈ removes, p <+: q) ∨
    (before = none ∧ after = some .dir ∧ ∃ p ∈ makes, q <+: p) ∨
    (q ∈ writes ∧ ∃ data, after = some (.file data))

namespace FileTree
variable {places : List AbsPath} {t t' : FileTree}

theorem mkdirFrom_node (h : LinkFree places t) (done : AbsPath) (hp : Near places (done ++ p))
    (hok : t.mkdirFrom done p = .ok t') (q : AbsPath) :
    t'.node q = t.node q ∨ (t.node q = none ∧ t'.node q = some .dir ∧ q <+: done ++ p) := by
  induction p generalizing t done with
  | nil =>
    cases hok
    exact .inl rfl
  | cons c rest ih =>
    have hc : Near places (done ++ [c]) := hp.ancestor (by simp)
    have hrest : done ++ c :: rest = done ++ [c] ++ rest := by simp
    rw [hrest] at hp ⊢
    rw [mkdirFrom] at hok
    split at hok
    · exact ih h _ hp hok
    · cases hok
    · rw [h.locate hc, Except.bind] at hok
      cases hnode : t.node (done ++ [c]) with
      | some n => simp [hnode] at hok
      | none =>
        have hset : ∀ q', (t.set (done ++ [c]) .dir).node q' =
            if q' = done ++ [c] then some .dir else t.node q' := fun q' => node_set (by simp)
        have hfree : LinkFree places (t.set (done ++ [c]) .dir) := by
          intro q' target hq'
          rw [hset] at hq'
          split at hq'
          · cases hq'
          · exact h q' target hq'
        have hok' : (t.set (done ++ [c]) .dir).mkdirFrom (done ++ [c]) rest = .ok t' := by
          simpa [hnode] using hok
        by_cases hq : q = done ++ [c]
        · subst hq
          rcases ih hfree _ hp hok' with heq | ⟨hnone, -, -⟩
          · exact .inr ⟨hnode, heq.trans (by simp [hset]), by simp⟩
          · simp [hset] at hnone
        · rcases ih hfree _ hp hok' with heq | ⟨hnone, hdir, hpre⟩
          · exact .inl (heq.trans (by simp [hset, hq]))
          · exact .inr ⟨by simpa [hset, hq] using hnone, hdir, hpre⟩
    · cases hok

theorem node_root : t.node [] = some .dir := rfl

theorem create_eq (h : LinkFree places t) (hp : Near places p) (hok : t.create p = .ok t') :
    p ≠ [] ∧ t' = t.set p (.file "") := by
  rw [create, h.follow hp, Except.bind] at hok
  refine ⟨?_, ?_⟩
  · rintro rfl
    cases hok
  · split at hok
    · cases hok
    · cases hok
      rfl
    · cases hfind : t.find p.dropLast with
      | error e => simp [hfind, Except.bind] at hok
      | ok n => cases n <;> simp_all [Except.bind]

theorem copy_eq (h : LinkFree places t) (hsrc : Near places src) (hdst : Near places dst)
    (hok : t.copy src dst cutAt = .ok t') :
    ∃ data, t.node src = some (.file data) ∧ dst ≠ [] ∧
      t' = t.set dst (.file (.ofList (data.toList.take (cutAt.getD data.length)))) := by
  rw [copy, h.follow hsrc, h.follow hdst, Except.bind, Except.bind] at hok
  split at hok
  · cases hok
    refine ⟨_, ‹_›, ?_, rfl⟩
    rintro rfl
    simp_all [node_root]
  · cases hok
  · cases hok

theorem list_eq (h : LinkFree places t) (hp : Near places p) (hok : t.list p = .ok l) :
    l = t.entries p := by
  rw [list, h.follow hp] at hok
  cases hfind : t.find p with
  | error e => simp [hfind, Except.bind] at hok
  | ok n => cases n <;> simp_all [Except.bind]

theorem node_update (r : Except FsErr FileTree) {P : Option Node → Prop} {q : AbsPath}
    (hsame : P (t.node q)) (hok : ∀ t', r = .ok t' → P (t'.node q)) : P ((t.update r).2.node q) := by
  cases r with
  | error e => exact hsame
  | ok t' => exact hok t' rfl

end FileTree

/-- What a call can do to each path. -/
theorem FsOp.node_step {places : List AbsPath} {t : FileTree} (h : LinkFree places t) (op : FsOp β)
    (hn : ∀ p ∈ op.names, Near places p) (a : FsAnswer) (q : AbsPath) :
    NodeStep op.removes op.makes op.writes q (t.node q) ((op.step a t).2.node q) := by
  have hset : ∀ {p : AbsPath} {data : String}, p ≠ [] → NodeStep [] [] [p] q (t.node q)
      ((t.set p (.file data)).node q) := by
    intro p data hp
    rw [FileTree.node_set hp]
    split
    · subst q
      exact .inr (.inr (.inr ⟨List.mem_singleton_self p, data, rfl⟩))
    · exact .inl rfl
  cases op with
  | removeAll p =>
    rw [step]
    split
    · exact .inl rfl
    · rw [h.locate (hn p (List.mem_singleton_self p))]
      by_cases hq : q = []
      · subst hq
        exact .inl rfl
      · change NodeStep _ _ _ q _ ((t.drop p).node q)
        rw [FileTree.node_drop hq]
        split
        · exact .inr (.inl ⟨rfl, p, List.mem_singleton_self p, ‹_›⟩)
        · exact .inl rfl
  | mkdirAll p =>
    rw [step]
    split
    · exact .inl rfl
    · refine FileTree.node_update _ (.inl rfl) fun t' hok => ?_
      rcases FileTree.mkdirFrom_node h [] (hn p (List.mem_singleton_self p)) hok q with hsame | hnew
      · exact .inl hsame
      · exact .inr (.inr (.inl ⟨hnew.1, hnew.2.1, p, List.mem_singleton_self p, hnew.2.2⟩))
  | createFile p =>
    rw [step]
    split
    · exact .inl rfl
    · refine FileTree.node_update _ (.inl rfl) fun t' hok => ?_
      obtain ⟨hp, rfl⟩ := FileTree.create_eq h (hn p (List.mem_singleton_self p)) hok
      exact hset hp
  | copyContents src dst =>
    have hcopy : ∀ cutAt, NodeStep [] [] [dst] q (t.node q)
        ((t.update (t.copy src dst cutAt)).2.node q) := by
      intro cutAt
      refine FileTree.node_update _ (.inl rfl) fun t' hok => ?_
      obtain ⟨data, -, hdst, rfl⟩ := FileTree.copy_eq h (hn src (by simp [names]))
        (hn dst (by simp [names])) hok
      exact hset hdst
    rw [step]
    split
    · exact hcopy _
    · exact hcopy _
  | _ => exact .inl rfl

theorem LinkFree.step (h : LinkFree places t) (h' : LinkFree places' t) (op : FsOp β)
    (hn : ∀ p ∈ op.names, Near places p) (a : FsAnswer) :
    LinkFree places' (op.step a t).2 := by
  intro q target hq
  rcases op.node_step h hn a q with hsame | ⟨hnone, -⟩ | ⟨-, hdir, -⟩ | ⟨-, data, hfile⟩
  · exact h' q target (hsame.symm.trans hq)
  · simp [hnone] at hq
  · simp [hdir] at hq
  · simp [hfile] at hq

structure Enclosed (roots : List AbsPath) (t : FileTree) : Prop where
  linkFree : LinkFree roots t
  above : ∀ q, Near roots q → ¬AbsPath.Under roots q → t.node q = some .dir

namespace Enclosed
variable {roots : List AbsPath} {t : FileTree}

theorem of_nodes (hlinks : ∀ e ∈ t.nodes, e.2.kind ≠ .link)
    (habove : ∀ r ∈ roots, ∀ q ∈ r.inits, ¬AbsPath.Under roots q → t.node q = some .dir) :
    Enclosed roots t := by
  refine ⟨.of_nodes hlinks, fun q hq hout => ?_⟩
  obtain ⟨r, hr, hqr | hrq⟩ := hq
  · exact habove r hr q ((List.mem_inits _ _).mpr hqr) hout
  · exact absurd ⟨r, hr, hrq⟩ hout

theorem step (h : Enclosed roots t) (op : FsOp β) (hn : ∀ p ∈ op.names, AbsPath.Under roots p)
    (a : FsAnswer) :
    Enclosed roots (op.step a t).2 := by
  have hnear := fun p hp => (hn p hp).near
  refine ⟨h.linkFree.step h.linkFree op hnear a, fun q hq hout => ?_⟩
  have hdir := h.above q hq hout
  rcases op.node_step h.linkFree hnear a q with hsame | ⟨-, p, hp, hpq⟩ | ⟨hnone, -⟩ | ⟨hw, -⟩
  · exact hsame.trans hdir
  · obtain ⟨r, hr, hrp⟩ := hn p (op.mem_names (.inl hp))
    exact absurd ⟨r, hr, hrp.trans hpq⟩ hout
  · simp [hdir] at hnone
  · exact absurd (hn q (op.mem_names (.inr (.inr hw)))) hout

theorem touches (h : Enclosed roots t) (op : FsOp β) (hn : ∀ p ∈ op.names, AbsPath.Under roots p) :
    ∀ q ∈ op.touches t, AbsPath.Under roots q := by
  have hfollow : ∀ p, AbsPath.Under roots p → placeOr p (t.follow p) = p := fun p hp => by
    rw [h.linkFree.follow hp.near]
    rfl
  have hlocate : ∀ p, Near roots p → placeOr p (t.locate p) = p := fun p hp => by
    rw [h.linkFree.locate hp]
    rfl
  intro q hq
  cases op with
  | stat p | readDir p | openFile p | createFile p | chmod p =>
    have hp := hn p (List.mem_singleton_self p)
    rw [FsOp.touches, hfollow p hp, List.mem_singleton] at hq
    exact hq ▸ hp
  | lstat p | removeAll p =>
    have hp := hn p (List.mem_singleton_self p)
    rw [FsOp.touches, hlocate p hp.near, List.mem_singleton] at hq
    exact hq ▸ hp
  | mkdirAll p =>
    have hp := hn p (List.mem_singleton_self p)
    rw [FsOp.touches, hfollow p hp, List.mem_cons] at hq
    rcases hq with rfl | hq
    · exact hp
    · -- a directory that is missing is not above the roots
      obtain ⟨q', hq', rfl⟩ := List.mem_map.mp hq
      obtain ⟨hinit, hmissing⟩ := List.mem_filter.mp hq'
      have hnear := hp.near.ancestor ((List.mem_inits _ _).mp hinit)
      rw [hlocate q' hnear]
      by_contra hout
      rw [h.linkFree.stat hnear, FileTree.find_of_node (h.above q' hnear hout)] at hmissing
      cases hmissing
  | copyContents src dst =>
    have hsrc := hn src (by simp [FsOp.names])
    have hdst := hn dst (by simp [FsOp.names])
    rw [FsOp.touches, hfollow src hsrc, hfollow dst hdst] at hq
    rcases List.mem_pair.mp hq with rfl | rfl
    · exact hsrc
    · exact hdst

end Enclosed

end Kindling
