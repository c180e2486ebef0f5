import PushOperator.Child.Frontend
import PushOperator.Pass.Basic

/-!
# The server step

The account, the services, the route and the deployment of the server and its proxy.
-/

namespace PushOperator.Pass

open Child

/-- The deployment, with its containers put right. The cookie secret is made once; a live deployment
keeps its own, as corrections never touch the arguments of containers. -/
def reconcileServerDeployment (settings : Settings) (name : String) : Pass Unit := do
  let deployment ← ensure (k := .deployment) name fun server => do
    Frontend.deployment server settings (← Task.secret)
  match deployment.observed with
  | none => pure ()
  | some found =>
    let desired ← (Frontend.deployment (← server) settings "" : Task Deployment)
    stopCorrected (← Task.ensureResources found desired) .deployment name "resources"
    let ups := settings.upsContainerName
    stopCorrected (← Task.ensureImage found desired ups) .deployment name "image"
    let oauthProxy := settings.oauthProxyContainerName
    stopCorrected (← Task.ensureImage found desired oauthProxy) .deployment name "image"
  noteReady (← (Deployment.isReady deployment.observed : Task Bool))

def reconcileFrontend (settings : Settings) : Pass Unit := do
  let name := (← server).anyName
  let proxyName := childName (← server) proxy
  let _ ← ensure (k := .serviceAccount) name fun server => Frontend.serviceAccount server
  let _ ← ensure (k := .service) proxyName fun server => Frontend.proxyService server
  let _ ← ensure (k := .service) (childName (← server) unifiedpush) fun server =>
    Frontend.serverService server
  let route ← ensure (k := .route) proxyName fun server => Frontend.proxyRoute server
  noteReady (Route.isReady route.observed)
  reconcileServerDeployment settings name

end PushOperator.Pass
