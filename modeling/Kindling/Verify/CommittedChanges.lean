import Kindling.Listener.Replication

/-!
# Committed changes are noticed

What a stream of logical replication says about transactions, as a machine of its own. The changes of a
streamed transaction count from the message that commits it, any other from its own message on. The
listener calls handlers at the messages of the changes, and at no other.
-/

namespace Kindling

variable {row : ChangedRow} {m : WalMessage} {ms : List CopyData}

/-! ## Streams -/

structure ChangedRow where
  table : String
  id : Id
  deriving DecidableEq, Repr

structure StreamedChange where
  xid : Xid
  subXid : Xid
  row : ChangedRow
  deriving DecidableEq, Repr

inductive StreamPhase
  | between
  | transaction
  | chunk (xid : Xid)
  deriving DecidableEq, Repr

/-- Data may be sent, with the layout of the phase. -/
def StreamPhase.carries : StreamPhase → Option Xid → Bool
  | between, _ => false
  | transaction, xid => xid.isNone
  | chunk _, xid => xid.isSome

def StreamPhase.isChunk : StreamPhase → Bool
  | chunk _ => true
  | between | transaction => false

/-- Where a stream is: `opened` are the streamed transactions, `ended` those that have been committed or
aborted, `streamed` the changes of the others. -/
structure StreamState where
  phase : StreamPhase := .between
  relations : Nat → Option WalRelation := fun _ => none
  opened : List Xid := []
  ended : List Xid := []
  streamed : List StreamedChange := []

def StreamState.isOpen (s : StreamState) (xid : Xid) : Bool :=
  s.opened.contains xid && !s.ended.contains xid

/-- The row of a tuple: its table has been described, and it has an identifier. -/
def StreamState.rowOf (tools : WalTools) (s : StreamState) (relationId : Nat)
    (tuple : Option TupleData) : Option ChangedRow := do
  let rel ← s.relations relationId
  let data ← (← (rel.columns.zip (← tuple)).lookup "id")
  let id ← (tools.parseUUID data).toOption
  return { table := rel.relationName, id }

def StreamState.change (tools : WalTools) (s : StreamState) : WalMessage → Option ChangedRow
  | .insert _ relationId tuple | .update _ relationId tuple => s.rowOf tools relationId tuple
  | _ => none

def StreamState.changed? (s : StreamState) (xid : Option Xid) (row : Option ChangedRow) :
    Option StreamState :=
  match s.phase, xid, row with
  | .transaction, none, some _ => some s
  | .chunk xid, some subXid, some row => some { s with streamed := s.streamed ++ [{ xid, subXid, row }] }
  | _, _, _ => none

/-- The state after a message, unless the message is out of place. -/
def StreamState.next? (tools : WalTools) (s : StreamState) : WalMessage → Option StreamState
  | .relation xid rel =>
    if s.phase.carries xid then
      some { s with relations := Function.update s.relations rel.relationId (some rel) }
    else none
  | .insert xid relationId tuple | .update xid relationId tuple =>
    s.changed? xid (s.rowOf tools relationId tuple)
  | .delete xid _ | .truncate xid | .typeMessage xid => if s.phase.carries xid then some s else none
  | .logicalMessage xid =>
    if s.phase.carries xid || s.phase == .between && xid.isNone then some s else none
  | .origin => if s.phase == .between then none else some s
  | .begin _ => if s.phase == .between then some { s with phase := .transaction } else none
  | .commit => if s.phase == .transaction then some { s with phase := .between } else none
  | .streamStart xid =>
    if s.phase == .between && !s.ended.contains xid then
      some { s with phase := .chunk xid, opened := xid :: s.opened }
    else none
  | .streamStop => if s.phase.isChunk then some { s with phase := .between } else none
  | .streamCommit xid =>
    if s.phase == .between && s.isOpen xid then
      some { s with ended := xid :: s.ended, streamed := s.streamed.filter (·.xid != xid) }
    else none
  | .streamAbort xid subXid =>
    -- The abort of a subtransaction takes its own changes back, that of the transaction all of them.
    if s.phase == .between && s.isOpen xid then
      some { s with
        ended := if subXid = xid then xid :: s.ended else s.ended
        streamed := s.streamed.filter fun c => !(c.xid == xid && (subXid == xid || c.subXid == subXid)) }
    else none

def StreamState.commits (tools : WalTools) (s : StreamState) : WalMessage → List ChangedRow
  | .streamCommit xid => (s.streamed.filter (·.xid == xid)).map (·.row)
  | m => if s.phase == .transaction then (s.change tools m).toList else []

def StreamState.receive? (tools : WalTools) (s : StreamState) : CopyData → Option StreamState
  | .xlogData _ m => s.next? tools m
  | .keepalive _ | .other => some s

def StreamState.receiveAll? (tools : WalTools) (s : StreamState) (ms : List CopyData) :
    Option StreamState :=
  ms.foldlM (·.receive? tools) s

def StreamState.changedBy (tools : WalTools) (s : StreamState) : CopyData → Option ChangedRow
  | .xlogData _ m => s.change tools m
  | .keepalive _ | .other => none

def StreamState.changes (tools : WalTools) (s : StreamState) : List CopyData → List ChangedRow
  | [] => []
  | m :: ms =>
    (s.changedBy tools m).toList ++ ((s.receive? tools m).map fun s' => s'.changes tools ms).getD []

/-- A stream that follows the protocol. -/
structure ReplicationStream (tools : WalTools) where
  messages : List CopyData
  wellFormed : (StreamState.receiveAll? tools {} messages).isSome = true

/-! ## The listener follows the stream -/

def ChangedRow.handler (cfg : ListenerConfig) (row : ChangedRow) : Option WatchedTable :=
  (WatchedTable.ofName row.table).filter cfg.handles

def ChangedRow.call (cfg : ListenerConfig) (row : ChangedRow) : Option HandlerCall :=
  (row.handler cfg).map (·, row.id)

def WatchedTable.tableName : WatchedTable → String
  | deployments => "deployments"
  | deploymentInstances => "deployment_instances"
  | projects => "projects"
  | builds => "builds"
  | ciJobs => "ci_jobs"
  | vms => "vms"
  | domains => "domains"
  | servers => "servers"
  | instanceMigrations => "instance_migrations"
  | projectVolumeOperations => "project_volume_operations"

structure Listener.Follows (l : Listener) (s : StreamState) : Prop where
  relations : l.relations = s.relations
  inStream : l.inStream = s.phase.isChunk

theorem lookup_zip_eq {columns : List String} :
    (columns.zip tuple).lookup "id" = (columns.findIdx? (· == "id")).bind (tuple[·]?) := by
  induction columns generalizing tuple with
  | nil => rfl
  | cons c columns ih =>
    cases tuple with
    | nil => cases (c :: columns).findIdx? (· == "id") <;> rfl
    | cons x tuple =>
      rw [List.zip_cons_cons, List.lookup_cons, List.findIdx?_cons]
      by_cases hc : c = "id"
      · subst hc
        rfl
      · have hc' : ("id" == c) = false := by simpa using fun h => hc h.symm
        rw [hc', ih]
        cases columns.findIdx? (· == "id") <;> simp [hc]

section step
variable {tools : WalTools} {cfg : ListenerConfig} {l : Listener} {s s' : StreamState}

theorem dispatch_of_row (h : l.Follows s) (hrow : s.rowOf tools relationId tuple = some row) :
    l.dispatch tools cfg relationId tuple = .ok (row.call cfg).toList := by
  unfold StreamState.rowOf at hrow
  simp only [lookup_zip_eq, Option.bind_eq_bind, Option.bind_eq_some_iff, Option.pure_def,
    Option.some.injEq] at hrow
  obtain ⟨rel, hrel, tuple, rfl, data?, ⟨i, hi, hdata⟩, data, rfl, id, hid, rfl⟩ := hrow
  have hparse : tools.parseUUID data = .ok id := by
    cases hp : tools.parseUUID data with
    | error e => rw [hp] at hid; cases hid
    | ok id' => rw [hp] at hid; cases hid; rfl
  simp only [Listener.dispatch, h.relations, hrel, extractID, hi, hdata, hparse]
  rfl

theorem StreamState.laidOut_of_next? (h : s.next? tools m = some s') :
    m.laidOut s.phase.isChunk = true := by
  have hcarries {xid : Option Xid} (hx : s.phase.carries xid = true) :
      (xid.isSome == s.phase.isChunk) = true := by
    cases hp : s.phase <;> cases xid <;> rw [hp] at hx <;> first | rfl | cases hx
  have hchanged {xid : Option Xid} {row : Option ChangedRow} (hx : s.changed? xid row = some s') :
      s.phase.carries xid = true := by
    unfold changed? at hx
    split at hx
    · next hp => rw [hp]; rfl
    · next hp => rw [hp]; rfl
    · cases hx
  cases m with
  | relation | delete | truncate | typeMessage =>
    simp only [next?, Option.ite_none_right_eq_some] at h
    exact hcarries h.1
  | insert | update => exact hcarries (hchanged h)
  | logicalMessage xid =>
    simp only [next?, Option.ite_none_right_eq_some, Bool.or_eq_true, Bool.and_eq_true,
      beq_iff_eq] at h
    rcases h.1 with hx | ⟨hp, hx⟩
    · exact hcarries hx
    · cases xid with
      | none => rw [hp]; rfl
      | some => cases hx
  | _ => rfl

theorem StreamState.changed?_follows (h : l.Follows s) {row : Option ChangedRow}
    (hx : s.changed? xid row = some s') : l.Follows s' ∧ ∃ r, row = some r := by
  unfold changed? at hx
  split at hx
  · cases hx; exact ⟨h, _, rfl⟩
  · cases hx; exact ⟨⟨h.relations, h.inStream⟩, _, rfl⟩
  · cases hx

variable (cfg) in
/-- A message of the stream is processed without an error, and calls the handler of the row it
changes. -/
theorem processWALData_follows (h : l.Follows s) (hm : s.next? tools m = some s') :
    ∃ l', l.processWALData tools cfg m = (.ok ((s.change tools m).bind (·.call cfg)).toList, l') ∧
      l'.Follows s' := by
  have hparse : parseV2 tools m l.inStream = .ok m := by
    rw [parseV2, h.inStream, if_pos (StreamState.laidOut_of_next? hm)]
  simp only [Listener.processWALData, hparse]
  cases m with
  | insert xid relationId tuple | update xid relationId tuple =>
    obtain ⟨hl, row, hrow⟩ := StreamState.changed?_follows h hm
    refine ⟨l, ?_, hl⟩
    simp [dispatch_of_row h hrow, StreamState.change, hrow]
  | relation =>
    simp only [StreamState.next?, Option.ite_none_right_eq_some, Option.some.injEq] at hm
    obtain ⟨-, rfl⟩ := hm
    exact ⟨_, rfl, by simp only [h.relations], h.inStream⟩
  | streamStart | streamStop =>
    simp only [StreamState.next?, Option.ite_none_right_eq_some, Option.some.injEq] at hm
    obtain ⟨-, rfl⟩ := hm
    exact ⟨_, rfl, h.relations, rfl⟩
  | begin | commit =>
    simp only [StreamState.next?, Option.ite_none_right_eq_some, Option.some.injEq, beq_iff_eq] at hm
    obtain ⟨hp, rfl⟩ := hm
    exact ⟨l, rfl, h.relations, h.inStream.trans (by rw [hp]; rfl)⟩
  | origin =>
    simp only [StreamState.next?, Option.ite_none_left_eq_some, Option.some.injEq] at hm
    obtain ⟨-, rfl⟩ := hm
    exact ⟨l, rfl, h⟩
  | _ =>
    simp only [StreamState.next?, Option.ite_none_right_eq_some, Option.some.injEq] at hm
    obtain ⟨-, rfl⟩ := hm
    exact ⟨l, rfl, h.relations, h.inStream⟩

variable (cfg) in
theorem receive_follows (h : l.Follows s) {m : CopyData} (hm : s.receive? tools m = some s') :
    (l.next tools cfg m).Follows s' ∧
      l.callsOf tools cfg m = ((s.changedBy tools m).bind (·.call cfg)).toList := by
  cases m with
  | keepalive | other =>
    cases hm
    exact ⟨⟨h.relations, h.inStream⟩, rfl⟩
  | xlogData walStart m =>
    obtain ⟨l', hl', hfollows⟩ := processWALData_follows cfg h hm
    simp only [Listener.next, Listener.callsOf, Listener.processCopyData, hl']
    exact ⟨⟨hfollows.relations, hfollows.inStream⟩, rfl⟩

/-! ## Whole streams -/

theorem StreamState.receiveAll?_cons {m : CopyData} :
    s.receiveAll? tools (m :: ms) = (s.receive? tools m).bind (·.receiveAll? tools ms) := rfl

theorem StreamState.receiveAll?_append :
    s.receiveAll? tools (ms ++ ms') = (s.receiveAll? tools ms).bind (·.receiveAll? tools ms') :=
  List.foldlM_append

theorem after_follows (h : l.Follows s) (hms : s.receiveAll? tools ms = some s') :
    (l.after tools cfg ms).Follows s' := by
  induction ms generalizing l s with
  | nil =>
    cases hms
    exact h
  | cons m ms ih =>
    rw [StreamState.receiveAll?_cons, Option.bind_eq_some_iff] at hms
    obtain ⟨s₁, hm, hms⟩ := hms
    exact ih (receive_follows cfg h hm).1 hms

/-- The calls are those of the rows that the stream changes, in their order. -/
theorem calls_eq (h : l.Follows s) (hms : (s.receiveAll? tools ms).isSome = true) :
    l.calls tools cfg ms = (s.changes tools ms).filterMap (·.call cfg) := by
  induction ms generalizing l s with
  | nil => rfl
  | cons m ms ih =>
    obtain ⟨s', hs'⟩ := Option.isSome_iff_exists.mp hms
    rw [StreamState.receiveAll?_cons, Option.bind_eq_some_iff] at hs'
    obtain ⟨s₁, hm, hrest⟩ := hs'
    obtain ⟨hl, hcalls⟩ := receive_follows cfg h hm
    simp only [Listener.calls, StreamState.changes, hm, hcalls, ih hl (Option.isSome_iff_exists.mpr ⟨s', hrest⟩)]
    cases s.changedBy tools m with
    | none => rfl
    | some row => cases hcall : row.call cfg <;> simp [hcall]

end step

theorem WatchedTable.ofName_inj (h : ofName n = some t) (h' : ofName n' = some t) : n = n' := by
  have hname {m : String} {t : WatchedTable} (hm : ofName m = some t) : m = t.tableName := by
    unfold ofName at hm
    split at hm <;> cases hm <;> rfl
  rw [hname h, hname h']

theorem ChangedRow.call_eq_some {id : Id} :
    row.call cfg = some (t, id) ↔ row.handler cfg = some t ∧ row.id = id := by
  unfold call
  cases row.handler cfg <;> simp

theorem ChangedRow.eq_of_call_eq (h : row.call cfg = some c) (h' : row'.call cfg = some c) :
    row = row' := by
  obtain ⟨hhandler, hid⟩ := call_eq_some.mp h
  obtain ⟨hhandler', hid'⟩ := call_eq_some.mp h'
  have htable := WatchedTable.ofName_inj (Option.filter_eq_some_iff.mp hhandler).1
    (Option.filter_eq_some_iff.mp hhandler').1
  cases row
  cases row'
  cases htable
  cases hid.trans hid'.symm
  rfl

section stream
variable {tools : WalTools}

/-- Every change of a committed transaction, to a table that has a handler, causes a call of the handler
with the row at the message from which the change counts or later. -/
def ReplicationStream.Noticed (cfg : ListenerConfig) (stream : ReplicationStream tools) : Prop :=
  ∀ pre walStart m post s, stream.messages = pre ++ .xlogData walStart m :: post →
    StreamState.receiveAll? tools {} pre = some s →
    ∀ row ∈ s.commits tools m, ∀ c, row.call cfg = some c →
      c ∈ (Listener.after tools cfg {} pre).calls tools cfg (.xlogData walStart m :: post)

/-- The rows of a streamed transaction that commits are inserted or updated again after the commit, by
any transaction. -/
def ReplicationStream.ChangedAgain (cfg : ListenerConfig) (stream : ReplicationStream tools) : Prop :=
  ∀ pre walStart xid post s s',
    stream.messages = pre ++ .xlogData walStart (.streamCommit xid) :: post →
    StreamState.receiveAll? tools {} pre = some s →
    s.next? tools (.streamCommit xid) = some s' →
    ∀ row ∈ s.commits tools (.streamCommit xid), (row.call cfg).isSome = true →
      row ∈ s'.changes tools post

theorem mem_calls_iff {stream : ReplicationStream tools} {s : StreamState}
    (hsplit : stream.messages = pre ++ post) (hs : StreamState.receiveAll? tools {} pre = some s)
    (hc : row.call cfg = some c) :
    c ∈ (Listener.after tools cfg {} pre).calls tools cfg post ↔ row ∈ s.changes tools post := by
  have hfollows : (Listener.after tools cfg {} pre).Follows s := after_follows ⟨rfl, rfl⟩ hs
  have hpost : (s.receiveAll? tools post).isSome = true := by
    have hall := stream.wellFormed
    rwa [hsplit, StreamState.receiveAll?_append, hs] at hall
  rw [calls_eq hfollows hpost, List.mem_filterMap]
  constructor
  · rintro ⟨row', hmem, hc'⟩
    exact ChangedRow.eq_of_call_eq hc hc' ▸ hmem
  · intro hmem
    exact ⟨row, hmem, hc⟩

theorem StreamState.mem_changes_of_commits {s : StreamState} (hm : ∀ xid, m ≠ .streamCommit xid)
    (h : row ∈ s.commits tools m) (walStart : Nat) (post : List CopyData) :
    row ∈ s.changes tools (.xlogData walStart m :: post) := by
  have hcommits : s.commits tools m =
      if s.phase == .transaction then (s.change tools m).toList else [] := by
    cases m <;> first | rfl | exact absurd rfl (hm _)
  rw [hcommits] at h
  split at h
  · exact List.mem_append_left _ h
  · cases h

end stream

/-- The committed changes of a stream are noticed from their commits on exactly when each row that a
streamed transaction has changed is changed again after the transaction commits. -/
theorem committed_changes_noticed (tools : WalTools) (cfg : ListenerConfig)
    (stream : ReplicationStream tools) : stream.Noticed cfg ↔ stream.ChangedAgain cfg := by
  constructor
  · intro h pre walStart xid post s s' hsplit hs hs' row hrow hcall
    obtain ⟨c, hc⟩ := Option.isSome_iff_exists.mp hcall
    have hmem := (mem_calls_iff hsplit hs hc).mp (h pre walStart _ post s hsplit hs row hrow c hc)
    simp only [StreamState.changes, StreamState.changedBy, StreamState.change, StreamState.receive?,
      hs', Option.map_some, Option.getD_some, Option.toList_none, List.nil_append] at hmem
    exact hmem
  · intro h pre walStart m post s hsplit hs row hrow c hc
    refine (mem_calls_iff hsplit hs hc).mpr ?_
    by_cases hm : ∃ xid, m = .streamCommit xid
    · obtain ⟨xid, rfl⟩ := hm
      obtain ⟨s', hs'⟩ : ∃ s', s.next? tools (.streamCommit xid) = some s' := by
        have hall := stream.wellFormed
        rw [hsplit, StreamState.receiveAll?_append, hs, Option.bind_some,
          StreamState.receiveAll?_cons] at hall
        exact Option.isSome_iff_exists.mp (Option.isSome_of_isSome_bind hall)
      refine List.mem_append_right _ ?_
      simp only [StreamState.receive?, hs', Option.map_some, Option.getD_some]
      exact h pre walStart xid post s s' hsplit hs hs' row hrow (hc ▸ rfl)
    · exact StreamState.mem_changes_of_commits (fun xid hx => hm ⟨xid, hx⟩) hrow walStart post

def sampleWalTools : WalTools where
  parseUUID text := if text == "0007" then .ok 7 else .error (.of (.message "invalid UUID length"))
  misread _ m := .ok m

/-- A transaction that inserts a deployment is streamed in one chunk, and commits. -/
def streamedInsert : ReplicationStream sampleWalTools where
  messages := [.xlogData 100 (.streamStart 10),
    .xlogData 101 (.relation (some 10) ⟨1, "deployments", ["project_id", "id"]⟩),
    .xlogData 102 (.insert (some 10) 1 (some [some "0009", some "0007"])),
    .xlogData 103 .streamStop, .keepalive 104, .xlogData 105 (.streamCommit 10)]
  wellFormed := by decide

/-- The handler is called before the transaction commits, and not again. -/
theorem streamed_insert_unnoticed : ¬streamedInsert.Noticed ⟨fun _ => true⟩ := by
  intro h
  have hcall := h (streamedInsert.messages.take 5) 105 (.streamCommit 10) []
    _ rfl rfl ⟨"deployments", 7⟩ (by decide) (.deployments, 7) rfl
  revert hcall
  decide

end Kindling
