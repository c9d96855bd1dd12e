import Kindling.Deploy.Recovery

/-!
# Reconciliation at the level of whole steps

A reconcile pass is written over a coarser signature than single statements: the functions that
act on one instance are single calls (`Task`), next to the reads and the few statements that the
pass itself issues. Each call is implemented by a program of operations, so a pass can also be run
statement by statement (`run_statements`).
-/

namespace Kindling

/-- The functions that act on one instance, one server or one migration. -/
inductive Task : Type → Type
  | deleteInstancePermanently (d : Deployer) (inst : DeploymentInstance) : Task Unit
  | cleanupInstance (d : Deployer) (inst : DeploymentInstance) : Task Unit
  | repairInstance (d : Deployer) (inst : DeploymentInstance) : Task Unit
  | reconcileInstanceServerAssignment (d : Deployer) (dep : Deployment)
      (inst : DeploymentInstance) (persistentVolume : Option PersistentVolumeMount) :
      Task DeploymentInstance
  | tryResumeFromSuspended (d : Deployer) (dep : Deployment) (inst : DeploymentInstance)
      (persistentVolume : Option PersistentVolumeMount) : Task Bool
  | resetStaleInstance (d : Deployer) (dep : Deployment) (inst : DeploymentInstance)
      (persistentVolume : Option PersistentVolumeMount) : Task DeploymentInstance
  | assignServerIfNeeded (dep : Deployment) (inst : DeploymentInstance)
      (persistentVolume : Option PersistentVolumeMount) : Task DeploymentInstance
  | startNewInstance (d : Deployer) (dep : Deployment) (inst : DeploymentInstance)
      (imageRef : String) (env : List String) (templateRef : String)
      (templateSourceVmId : Option Id) (persistentVolume : Option PersistentVolumeMount) :
      Task Unit
  | ensureInstanceCountUp (d : Deployer) (deploymentId : Id) (desired : Int) : Task Unit
  | ensureProjectVolumeServer (vol : ProjectVolume) : Task ProjectVolume
  | recoverDeadServer (serverId : Id) : Task Unit
  | detectDeadServer (serverId : Id) : Task Unit
  | commitOnDestination (d : Deployer) (mig : InstanceMigration) : Task Unit

def Task.prog : Task β → Go Op β
  | deleteInstancePermanently d inst => Kindling.deleteInstancePermanently d inst
  | cleanupInstance d inst => Kindling.cleanupInstance d inst
  | repairInstance d inst => Kindling.repairInstance d inst
  | reconcileInstanceServerAssignment d dep inst vol =>
    Kindling.reconcileInstanceServerAssignment d dep inst vol
  | tryResumeFromSuspended d dep inst vol => Kindling.tryResumeFromSuspended d dep inst vol
  | resetStaleInstance d dep inst vol => Kindling.resetStaleInstance d dep inst vol
  | assignServerIfNeeded dep inst vol => Kindling.assignServerIfNeeded dep inst vol
  | startNewInstance d dep inst imageRef env ref src vol =>
    Kindling.startNewInstance d dep inst imageRef env ref src vol
  | ensureInstanceCountUp d dep desired => Kindling.ensureInstanceCountUp d dep desired
  | ensureProjectVolumeServer vol => Kindling.ensureProjectVolumeServer vol
  | recoverDeadServer s => Kindling.recoverDeadServer s
  | detectDeadServer s => Kindling.detectDeadServer s
  | commitOnDestination d mig => Kindling.commitOnDestination d mig

/-- The commit of a migration, the one step that writes migrations. -/
def Task.Commits : Task β → Prop
  | commitOnDestination .. => True
  | _ => False

inductive Action : Type → Type 1
  | query {β : Type} (q : Query β) : Action (Except Err β)
  | deployments {β : Type} (s : DeploymentStmt β) : Action (Except Err β)
  | volumes {β : Type} (s : VolumeStmt β) : Action (Except Err β)
  | domains {β : Type} (s : DomainStmt β) : Action (Except Err β)
  | builds {β : Type} (s : BuildStmt β) : Action (Except Err β)
  | instanceUpdateRole (id : Id) (role : InstanceRole) : Action (Except Err DeploymentInstance)
  | vmSoftDelete (id : Id) : Action (Except Err Unit)
  | runtimeHealthy (server inst : Id) : Action Bool
  | healthCheck : Action Bool
  | now : Action Time
  | newUUID : Action Id
  | scheduleRetry (deployment : Id) (delay : Time) : Action Unit
  | scheduleServer (server : Id) : Action Unit
  | task {β : Type} (t : Task β) : Action (Except Err β)

/-- The operations behind a call. -/
def Action.prog : Action β → Prog Op β
  | query q => .lift (.db (.query q))
  | deployments s => .lift (.db (.deployments s))
  | volumes s => .lift (.db (.volumes s))
  | domains s => .lift (.db (.domains s))
  | builds s => .lift (.db (.builds s))
  | instanceUpdateRole id role => .lift (.db (.instances (.updateRole id role)))
  | vmSoftDelete id => .lift (.db (.vms (.softDelete id)))
  | runtimeHealthy server inst => .lift (.runtime server (.healthy inst))
  | healthCheck => .lift .healthCheck
  | now => .lift .now
  | newUUID => .lift (.db .newUUID)
  | scheduleRetry dep delay => .lift (.scheduleRetry dep delay)
  | scheduleServer server => .lift (.scheduleServer server)
  | task t => t.prog

instance : Effect Action Answer World where
  exec a as w := a.prog.run as w

instance : Reads Action := ⟨.query⟩
instance : WritesVolumes Action := ⟨.volumes⟩

abbrev Pass := Go Action

def deploymentStmt (s : DeploymentStmt β) : Pass β := .ofCall (.deployments s)

def domainStmt (s : DomainStmt β) : Pass β := .ofCall (.domains s)

def perform (t : Task β) : Pass β := .ofCall (.task t)

/-- A call of a function that returns nothing, and so has no error to report. -/
def act (t : Task Unit) : Pass Unit := discard (perform t)

def scheduleRetry (deployment : Id) (delay : Time) : Pass Unit :=
  .ofTotal (.scheduleRetry deployment delay)

end Kindling
