import Kindling.Deploy.Actions
import Kindling.Preview.Naming

/-!
# Routes of a promoted deployment

`internal/deploy/deploy_service_routes.go` and `deploy_preview.go`: the domains that are pointed
at a deployment when it is promoted.
-/

namespace Kindling

open Fallible

def settingServiceBaseDomain : String := "service_base_domain"

def settingPreviewBaseDomain : String := "preview_base_domain"

def publicHTTPEndpoint (serviceId : Id) : Pass (Option ServiceEndpoint) := do
  let endpoints ← context "list service endpoints" (query (.serviceEndpointListByServiceID serviceId))
  return endpoints.find? fun e => e.protocol == .http && e.visibility == .publicOpen

def ensureManagedDomain (dep : Deployment) (service : Service) (host : String) : Pass Unit := do
  match ← attempt (query (.domainManagedByServiceID service.id)) with
  | .ok _ =>
    let _ ← context "update managed service domain"
      (domainStmt (.updateManagedByServiceID service.id host dep.id))
  | .error e =>
    if e.isNoRows then
      let id ← ofTotal .newUUID
      let _ ← context "create managed service domain" (domainStmt (.create {
        id, projectId := dep.projectId, serviceId := some service.id, deploymentId := some dep.id,
        domainName := host, kind := .serviceManaged }))
    else throw (e.wrap "lookup managed service domain")

/-- The name of the generated domain, when a base domain is configured. -/
def managedHost (service : Service) (proj : Project) (base : String) : Option String :=
  let host := productionServiceHostname service.slug proj.name base
  if trimSpace base == "" || host == "" then none else some host

/-- The generated domain of a service: removed without a public endpoint, kept up to date when a
base domain is configured. -/
def ensureServiceDomain (dep : Deployment) (proj : Project) (service : Service) : Pass Unit := do
  match ← publicHTTPEndpoint service.id with
  | none =>
    context "delete managed service domain" (domainStmt (.deleteManagedByServiceID service.id))
  | some _ =>
    let .ok base ← attempt (query (.clusterSettingGet settingServiceBaseDomain)) | return ()
    match managedHost service proj base with
    | none => return ()
    | some host => ensureManagedDomain dep service host

def ensureProductionRoutes (dep : Deployment) (proj : Project) (service : Option Service) :
    Pass Unit := do
  let some service := service | return ()
  context "update service domains" (domainStmt (.updateDeploymentForService dep.id service.id))
  ensureServiceDomain dep proj service

/-- Point the stable domain of the preview environment, if it exists, at the deployment. -/
def updateStableDomain (dep : Deployment) (envId : Id) : Pass Unit := do
  if let .ok stable ← attempt (query (.domainFindByPreviewEnvironmentAndKind envId .previewStable))
    then
    context "update stable preview domain"
      (domainStmt (.updateDeploymentForDomainID stable.id dep.id))

/-- Create the domain of this revision, unless it exists. -/
def ensureImmutableDomain (dep : Deployment) (envId : Id) (host : String) : Pass Unit := do
  if let .error e ← attempt (query (.domainFindByDeploymentIDAndKind dep.id .previewImmutable)) then
    if !e.isNoRows then throw (e.wrap "lookup immutable preview domain")
    let id ← ofTotal .newUUID
    let _ ← context "create immutable preview domain" (domainStmt (.create {
      id, projectId := dep.projectId, deploymentId := some dep.id, domainName := host,
      kind := .previewImmutable, previewEnvironmentId := some envId }))

def ensurePreviewRoutes (dep : Deployment) (proj : Project) : Pass Unit := do
  if dep.kind ≠ .preview then return ()
  let some envId := dep.previewEnvironmentId | return ()
  let some serviceId := dep.serviceId | return ()
  let .ok base ← attempt (query (.clusterSettingGet settingPreviewBaseDomain)) | return ()
  if trimSpace base == "" then return ()
  let base := trimSpace base
  let env ← context "preview env" (query (.previewEnvironmentByID envId))
  let service ← context "preview service" (query (.serviceFirstByID serviceId))
  updateStableDomain dep env.id
  let sha := shortSha (trimSpace dep.githubCommit)
  ensureImmutableDomain dep env.id (immutableHostname sha env.prNumber service.slug proj.name base)

end Kindling
