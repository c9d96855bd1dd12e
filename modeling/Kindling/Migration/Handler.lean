import Kindling.Deploy.Actions

/-!
# Live migrations

`internal/migrationreconcile`, and the API request that creates a migration. The destination server
prepares a target, the source server sends, and the destination commits; each step is a pass of a
server over the migration row, which it reads first and updates in the end. The messages next to
failure codes are left out.
-/

namespace Kindling

open Fallible

def MigrationState.terminal : MigrationState → Bool
  | .completed | .failed | .aborted | .fallbackEvacuating => true
  | .pending | .destinationPrepared | .sending | .received => false

def InstanceMigration.active (m : InstanceMigration) : Bool := !m.state.terminal

/-- The updates of one row of `instance_migrations`, besides those in `MigrationStmt`. -/
inductive MigrationUpdate
  | prepared (id : Id) (receiveAddr : String) (cutoverDeadlineAt : Time)
  | sending (id : Id)
  | received (id : Id)
  | failed (id : Id) (failureCode : String)
  | aborted (id : Id) (failureCode : String)
  deriving DecidableEq, Repr

namespace MigrationUpdate

def target : MigrationUpdate → Id
  | prepared id .. | sending id | received id | failed id _ | aborted id _ => id

def state : MigrationUpdate → MigrationState
  | prepared .. => .destinationPrepared
  | sending _ => .sending
  | received _ => .received
  | failed .. => .failed
  | aborted .. => .aborted

def change (u : MigrationUpdate) (m : InstanceMigration) : InstanceMigration :=
  match u with
  | prepared _ addr deadline =>
    { m with state := u.state, receiveAddr := addr, cutoverDeadlineAt := some deadline }
  | sending _ | received _ => { m with state := u.state }
  | failed _ code | aborted _ code => { m with state := u.state, failureCode := code }

theorem change_id (u : MigrationUpdate) (m : InstanceMigration) : (u.change m).id = m.id := by
  cases u <;> rfl

end MigrationUpdate

/-- Another active migration of the instance, which the unique index
`idx_instance_migrations_one_active_per_instance` does not allow next to an active one. -/
def otherActive (t : MigrationTable) (id inst : Id) : Bool :=
  t.rows.any fun m => m.id != id && m.deploymentInstanceId == inst && m.active

def MigrationUpdate.exec (u : MigrationUpdate) (t : MigrationTable) :
    Except Err InstanceMigration × MigrationTable :=
  if !u.state.terminal &&
      (t.find? u.target).any fun m => otherActive t m.id m.deploymentInstanceId then
    (.error (.of .uniqueViolation), t)
  else returning (t.updateKey u.target (fun _ => true) u.change u.change_id)

/-- `InstanceMigrationCreate` -/
def createMigration (m : InstanceMigration) (t : MigrationTable) :
    Except Err InstanceMigration × MigrationTable :=
  if m.active && otherActive t m.id m.deploymentInstanceId then (.error (.of .uniqueViolation), t)
  else inserting t m

/-- The operations of a deployer, the statements about migrations, and the calls to the runtime of a
server that migrations need. -/
inductive MigrationOp : Type → Type 1
  | op {β : Type} (o : Op β) : MigrationOp β
  | update (u : MigrationUpdate) : MigrationOp (Except Err InstanceMigration)
  | create (m : InstanceMigration) : MigrationOp (Except Err InstanceMigration)
  | findActiveByDeploymentInstanceID (inst : Id) : MigrationOp (Except Err InstanceMigration)
  /-- Returns the port of the prepared address, when the address parses. -/
  | prepareMigrationTarget (server inst : Id) : MigrationOp (Except Err (Option String))
  | abortMigrationTarget (server inst : Id) : MigrationOp (Except Err Unit)
  /-- The `Version` of `MigrationMetadata`. -/
  | migrationVersion (server inst : Id) : MigrationOp (Except Err String)
  | sendMigration (server inst : Id) (destinationURL : String) : MigrationOp (Except Err Unit)

/-- A VM that has been sent is gone from its server. -/
def MigrationOp.exec : MigrationOp β → List Answer → World → Outcome β World Answer
  | op o, as, w => o.exec as w
  | update u, as, w => answering as fun a => onTable a u.exec World.migrations World.withMigrations w
  | create m, as, w => answering as fun a =>
    onTable a (createMigration m) World.migrations World.withMigrations w
  | findActiveByDeploymentInstanceID inst, as, w => answering as fun a =>
    (if a.fail then .error (.of .unavailable)
      else one (w.migrations.rows.find? fun m => m.deploymentInstanceId == inst && m.active), w)
  | prepareMigrationTarget .., as, w => answering as fun a =>
    (if a.fail then .error (.of .runtime) else .ok (if a.ok then some a.text else none), w)
  | abortMigrationTarget .., as, w => answering as fun a =>
    (if a.fail then .error (.of .runtime) else .ok (), w)
  | migrationVersion .., as, w => answering as fun a =>
    (if a.fail then .error (.of .runtime) else .ok a.text, w)
  | sendMigration server inst _, as, w => answering as fun a =>
    if a.fail then (.error a.runtimeErr, w) else (.ok (), w.stopGuest server inst)

instance : Effect MigrationOp Answer World where
  exec := MigrationOp.exec

instance : Reads MigrationOp := ⟨fun q => .op (.db (.query q))⟩

/-! ## The steps of a migration -/

def migrationCutoverDeadline : Time := 10 * 60 * second

def Deployer.liveMigration (d : Deployer) : Bool := d.rt.any (·.liveMigration)

def migrationUpdate (u : MigrationUpdate) : Go MigrationOp InstanceMigration := ofCall (.update u)

/-- Record that the migration has failed; `step` names the place in the error text. -/
def failMigration (mig : InstanceMigration) (code step : String) : Go MigrationOp Unit := do
  let _ ← context ("persist failure (" ++ step ++ ")") (migrationUpdate (.failed mig.id code))

/-- The address at which the destination receives the guest. -/
@[irreducible] def receiveAddr (internalIp port : String) : String :=
  String.ofList (joinHostPort (trimSpace internalIp).toList port.toList)

@[irreducible] def unusableInternalIp (ip : String) : Bool :=
  ip == "" || ip == "127.0.0.1" || ip == "0.0.0.0"

def prepareDestination (d : Deployer) (mig : InstanceMigration) : Go MigrationOp Unit := do
  if !d.liveMigration then failMigration mig "unsupported_runtime" "unsupported_runtime"
  else
  let server ← context "fetch destination server" (query (.serverFindByID mig.destinationServerId))
  if server.status ≠ .active then failMigration mig "destination_inactive" "destination_inactive"
  else if unusableInternalIp (trimSpace server.internalIp) then
    failMigration mig "destination_internal_ip" "destination_internal_ip"
  else
  match ← attempt (ofCall (.prepareMigrationTarget d.serverId mig.deploymentInstanceId)) with
  | .error _ => failMigration mig "destination_prepare" "destination_prepare"
  | .ok none =>
    discard (ofCall (.abortMigrationTarget d.serverId mig.deploymentInstanceId))
    failMigration mig "destination_prepare" "invalid receive addr"
  | .ok (some port) =>
    let now ← ofTotal (.op .now)
    let _ ← context "update migration prepared state" (migrationUpdate
      (.prepared mig.id (receiveAddr server.internalIp port) (now + migrationCutoverDeadline)))

/-- The abort of a migration that has not been received in time: two statements, the second of which
replaces the state that the first has written. -/
def abortMigrationFromSource (mig : InstanceMigration) : Go MigrationOp Unit := do
  let _ ← context "persist migration abort" (migrationUpdate (.aborted mig.id "cutover_timeout"))
  let _ ← context "persist fallback evacuation"
    (ofCall (.op (.db (.migrations (.updateFallbackEvacuating mig.id "cutover_timeout")))) :
      Go MigrationOp InstanceMigration)

/-- What is wrong with the worker of the destination, as a failure code and a place. -/
def destinationFailure (version : String) : Option ServerComponentStatus → Option (String × String)
  | none => some ("destination_runtime", "destination_runtime")
  | some s =>
    if s.runtime ≠ some .cloudHypervisor then some ("destination_runtime", "runtime check")
    else if !s.liveMigrationEnabled then some ("destination_runtime", "lm disabled")
    else if s.sharedRootfsDir == "" then some ("destination_runtime", "shared_rootfs")
    else if version != "" && s.cloudHypervisorVersion != "" && version != s.cloudHypervisorVersion
    then some ("version_mismatch", "version_mismatch")
    else none

/-- The end of `sendFromSource`, once everything has been checked. -/
def sendMigration (d : Deployer) (mig : InstanceMigration) : Go MigrationOp Unit := do
  let _ ← context "update migration to sending" (migrationUpdate (.sending mig.id))
  match ← attempt (ofCall (.sendMigration d.serverId mig.deploymentInstanceId
      ("tcp:" ++ trimSpace mig.receiveAddr))) with
  | .error _ => failMigration mig "send_failed" "send_failed"
  | .ok _ => let _ ← context "update migration to received" (migrationUpdate (.received mig.id))

def sendFromSource (d : Deployer) (mig : InstanceMigration) : Go MigrationOp Unit := do
  if !d.liveMigration then return
  else
  let inst ← context "fetch deployment instance"
    (query (.deploymentInstanceFirstByID mig.deploymentInstanceId))
  let dep ← context "fetch deployment" (query (.deploymentFirstByID inst.deploymentId))
  match ← attempt (query (.projectVolumeFindByProjectID dep.projectId)) with
  | .ok _ => failMigration mig "unsupported_volume" "unsupported_volume"
  | .error e =>
  if !e.isNoRows then throw (e.wrap "check project volume")
  else
  let vm ← context "fetch source VM" (query (.vmFirstByID mig.sourceVmId))
  if trimSpace vm.sharedRootfsRef == "" then
    failMigration mig "shared_rootfs_missing" "shared_rootfs_missing"
  else
  match ← attempt (ofCall (.migrationVersion d.serverId mig.deploymentInstanceId)) with
  | .error _ => failMigration mig "source_metadata" "source_metadata"
  | .ok version =>
  let statuses ← context "fetch destination server status"
    (query (.serverComponentStatusFindByServerID mig.destinationServerId))
  match destinationFailure version (statuses.find? (·.worker)) with
  | some (code, step) => failMigration mig code step
  | none => Kindling.sendMigration d mig

def dropTarget (d : Deployer) (mig : InstanceMigration) : Go MigrationOp Unit :=
  if mig.destinationServerId = d.serverId ∧ d.liveMigration = true then
    discard (ofCall (.abortMigrationTarget d.serverId mig.deploymentInstanceId))
  else pure ()

def wakeDeployment (mig : InstanceMigration) : Go MigrationOp Unit :=
  if mig.state = .fallbackEvacuating then do
    match ← attempt (query (.deploymentInstanceFirstByID mig.deploymentInstanceId)) with
    | .ok inst => ofTotal (.op (.scheduleRetry inst.deploymentId 0))
    | .error _ => return
  else pure ()

def reconcileMigration (d : Deployer) (migrationId : Id) : Go MigrationOp Unit := do
  match ← attempt (query (.instanceMigrationFirstByID migrationId)) with
  | .error e => if e.isNoRows then return else throw (e.wrap "fetch migration")
  | .ok mig =>
  match mig.state with
  | .pending => if mig.destinationServerId = d.serverId then prepareDestination d mig
  | .destinationPrepared => if mig.sourceServerId = d.serverId then sendFromSource d mig
  | .sending =>
    match mig.cutoverDeadlineAt with
    | none => return
    | some deadline =>
      let now ← ofTotal (.op .now)
      if deadline < now then
        context "abort timed-out migration" (abortMigrationFromSource mig)
  | .received =>
    if mig.destinationServerId = d.serverId then hoist (fun _ => .op) (commitOnDestination d mig)
  | .failed | .aborted | .completed | .fallbackEvacuating =>
    dropTarget d mig
    wakeDeployment mig

/-! ## The request -/

def validateLiveMigrationSource (s : ServerComponentStatus) : Option String :=
  if s.runtime ≠ some .cloudHypervisor then
    some "source server worker runtime is not cloud-hypervisor"
  else if !s.liveMigrationEnabled then
    some "source server worker does not advertise live migration support"
  else if s.sharedRootfsDir == "" then
    some "source server worker does not advertise shared rootfs storage"
  else none

/-- `validateLiveMigrationDestination` -/
def validLiveMigrationDestination (source : ServerComponentStatus) (server : Server)
    (s : ServerComponentStatus) : Bool :=
  !(trimSpace server.internalIp == "" || server.internalIp == "127.0.0.1" ||
      server.internalIp == "0.0.0.0") &&
    s.runtime == some .cloudHypervisor && s.liveMigrationEnabled && s.sharedRootfsDir != "" &&
    (source.sharedRootfsDir == "" || source.sharedRootfsDir == s.sharedRootfsDir) &&
    (source.cloudHypervisorVersion == "" || s.cloudHypervisorVersion == "" ||
      source.cloudHypervisorVersion == s.cloudHypervisorVersion)

/-- The loop of `pickLiveMigrationDestination`: the first of the servers with the fewest active
instances. -/
def pickLeastLoaded : List Server → Option (Id × Nat) → Go MigrationOp (Option (Id × Nat))
  | [], best => return best
  | server :: rest, best => do
    let count ← query (.deploymentInstanceActiveCountByServerID server.id)
    let better := match best with
      | none => true
      | some (_, n) => decide (count < n)
    pickLeastLoaded rest (if better then some (server.id, count) else best)

def pickLiveMigrationDestination (sourceServer : Server) (source : ServerComponentStatus) :
    Go MigrationOp Id := do
  let servers ← query .serverFindAll
  let statuses ← query .serverComponentStatusFindAll
  let candidates := servers.filter fun server =>
    server.id != sourceServer.id && server.status == .active &&
      ((statuses.reverse.find? fun s => s.worker && s.serverId == server.id).any
        (validLiveMigrationDestination source server))
  match ← pickLeastLoaded candidates none with
  | some (id, _) => return id
  | none => throw (.of (.message
    "no active cloud-hypervisor destination server is available for live migration"))

def sourceWorker (statuses : List ServerComponentStatus) : Except Err ServerComponentStatus :=
  match statuses.find? (·.worker) with
  | none => .error (apiError "source_server_runtime" "source server worker heartbeat is missing")
  | some s =>
    match validateLiveMigrationSource s with
    | some message => .error (apiError "source_server_runtime" message)
    | none => .ok s

def requestMigration (inst : DeploymentInstance) (serverId vmId : Id) :
    Go MigrationOp InstanceMigration := do
  let sourceServer ← context "source_server" (query (.serverFindByID serverId))
  if sourceServer.status ≠ .active then
    throw (apiError "source_server_state" "source server must be active")
  else
  let statuses ← context "source_server_runtime"
    (query (.serverComponentStatusFindByServerID serverId))
  let source ← ofResult (sourceWorker statuses)
  let destination ← context "destination_unavailable"
    (pickLiveMigrationDestination sourceServer source)
  let id ← ofTotal (.op (.db .newUUID))
  let now ← ofTotal (.op .now)
  context "instance_migration_create" (ofCall (.create
    { id, deploymentInstanceId := inst.id, sourceServerId := serverId
      destinationServerId := destination, sourceVmId := vmId
      cutoverDeadlineAt := some (now + migrationCutoverDeadline) }))

/-- The request to migrate an instance; who may make it is left out. -/
def postDeploymentInstanceLiveMigrate (instanceId : Id) : Go MigrationOp InstanceMigration := do
  match ← attempt (query (.deploymentInstanceFirstByID instanceId)) with
  | .error _ => throw (apiError "not_found" "deployment instance not found")
  | .ok inst =>
  match inst.serverId, inst.vmId with
  | some serverId, some vmId =>
    if inst.deletedAt.isSome || inst.status != .running || inst.role != .active then
      throw (apiError "invalid_state"
        "instance must be an active running instance with a server and VM")
    else
    let vm ← context "instance_vm" (query (.vmFirstByID vmId))
    if vm.runtime ≠ .cloudHypervisor then
      throw (apiError "unsupported_runtime" "live migration requires a cloud-hypervisor workload")
    else if trimSpace vm.sharedRootfsRef == "" then
      throw (apiError "shared_rootfs_missing" "live migration requires a shared rootfs reference")
    else
    let dep ← context "deployment" (query (.deploymentFirstByID inst.deploymentId))
    match ← attempt (query (.projectVolumeFindByProjectID dep.projectId)) with
    | .ok _ => throw (apiError "unsupported_volume"
      "live migration does not support workloads with persistent volumes yet")
    | .error e =>
    if !e.isNoRows then throw ((e.wrap "check project volume").wrap "project_volume")
    else
    match ← attempt (ofCall (.findActiveByDeploymentInstanceID instanceId)) with
    | .ok _ => throw (apiError "migration_in_progress"
      "an active migration already exists for this instance")
    | .error e =>
      if e.isNoRows then requestMigration inst serverId vmId else throw (e.wrap "instance_migration")
  | _, _ => throw (apiError "invalid_state"
      "instance must be an active running instance with a server and VM")

/-- The passes of a server over a migration, of which its scheduler runs at most one at a time,
requests, and whatever the deployers and the detection of dead servers do. -/
inductive MigrationActor
  | pass (server migration : Id)
  | request (n : Nat)
  | deployer (n : Nat)
  deriving DecidableEq, Repr

/-- Everything but the commit of a migration, which belongs to the passes. -/
def Action.Deploys (β : Type) : Action β → Prop
  | .task t => ¬t.Commits
  | _ => True

/-- A deployer may run any program over the steps of reconciliation, statement by statement. -/
def migrationStarts : MigrationActor → Prog MigrationOp (Except Err Unit) → Prop
  | .pass server id, p => ∃ d : Deployer, d.serverId = server ∧ p = reconcileMigration d id
  | .request _, p => ∃ inst, p = discard (postDeploymentInstanceLiveMigrate inst)
  | .deployer _, p => ∃ q : Pass Unit, Uses Action.Deploys q ∧
    p = hoist (fun _ => .op) (Prog.interp (fun _ a => a.prog) q : Go Op Unit)

abbrev MigrationTeam := Team MigrationActor MigrationOp (Except Err Unit) World

end Kindling
