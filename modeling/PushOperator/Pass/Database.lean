import PushOperator.Child.Database
import PushOperator.Pass.Basic

/-!
# The database step

The claim, the credentials, the deployment and the service of the database. A database that is
already there only gets credentials, and not even those when the server names a secret of its own.
-/

namespace PushOperator.Pass

open Child

def reconcileClaim (settings : Settings) (name : String) : Pass Unit := do
  let claim ← ensure (k := .persistentVolumeClaim) name fun server =>
    Database.claim server settings
  match claim.observed with
  | none => return
  | some found =>
    let desired ← (Database.claim (← server) settings : Task Claim)
    stopCorrected (← Task.ensureStorage found desired) .persistentVolumeClaim name "storage size"

/-- The credentials. The password of a database that is already there is in the spec. -/
def reconcileCredentials : Pass Unit := do
  let server ← server
  if server.spec.externalDB && Database.namesSecret server then return
  let _ ← ensure (k := .secret) (Database.secretName server) fun server => do
    Database.secret server (← if server.spec.externalDB then pure "" else Task.secret)

def reconcileDatabaseDeployment (settings : Settings) (name : String) : Pass Unit := do
  let deployment ← ensure (k := .deployment) name fun server =>
    Database.deployment server settings
  match deployment.observed with
  | none => pure ()
  | some found =>
    let desired ← (Database.deployment (← server) settings : Task Deployment)
    stopCorrected (← Task.ensureResources found desired) .deployment name "resources"
    let container := settings.postgresContainerName
    stopCorrected (← Task.ensureImage found desired container) .deployment name "image"
  noteReady (← (Deployment.isReady deployment.observed : Task Bool))

def reconcileDatabase (settings : Settings) : Pass Unit := do
  let external := (← server).spec.externalDB
  let name := childName (← server) postgresql
  if !external then reconcileClaim settings name
  reconcileCredentials
  if !external then
    reconcileDatabaseDeployment settings name
    let _ ← ensure (k := .service) name fun server => Database.service server

end PushOperator.Pass
