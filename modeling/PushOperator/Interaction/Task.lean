import PushOperator.Child.Basic
import PushOperator.Drift
import PushOperator.Interaction.Basic
import PushOperator.Lifecycle

/-!
# Tasks

A task is an interaction that may fail. The tasks here see to single children: a child that is
missing is created in the name of its server, and one that has drifted is put right.
-/

namespace PushOperator

/-- An interaction that may fail. -/
abbrev Task := ExceptT Error Interaction

namespace Task

def ofExcept {α : Type} (result : Except Error α) : Task α := ExceptT.mk (.done result)

instance : MonadLift (Except Error) Task := ⟨ofExcept⟩

def call (request : Request) : Task request.Reply := ExceptT.mk (.call request .done)

def secret : Task String := ExceptT.mk (.secret fun s => .done (.ok s))

/-- Succeeds with the failure of a task. -/
def attempt {α : Type} (task : Task α) : Task (Except Error α) :=
  ExceptT.mk (task.run.bind fun result => .done (.ok result))

end Task

/-- A child that was there, or one that has just been created. -/
inductive Ensured (k : Kind) where
  | found (object : Object k)
  | created (object : Object k)

namespace Ensured

variable {k : Kind}

def object : Ensured k → Object k
  | found o | created o => o

def wasCreated : Ensured k → Bool
  | found _ => false
  | created _ => true

/-- The child as the cluster showed it. One that was just created has not been seen yet. -/
def observed : Ensured k → Option (Object k)
  | found o => some o
  | created _ => none

end Ensured

namespace Task

variable {k : Kind}

def requirePlace (metadata : ObjectMeta) : Task Unit := do
  let _ ← metadata.requireNs
  let _ ← metadata.requireName

/-- Creates a child in the name of its server. -/
def createOwned (owner : Server) (desired : Object k) : Task (Object k) := do
  let reference ← Child.ownerReference owner
  let metadata := { desired.metadata with ownerReferences := some [reference] }
  let created ← call (.create k { desired with metadata })
  requirePlace created.metadata
  return created

/-- Fetches the child called `name`, or builds and creates it when it is missing. -/
def ensureExists (owner : Server) (name : String) (build : Task (Object k)) :
    Task (Ensured k) := do
  let ns ← owner.metadata.requireNs
  match ← call (.get k ns name) with
  | some found => return .found found
  | none => return .created (← createOwned owner (← build))

/-- Creates a child, or replaces its spec when it is not the wanted one. -/
def createOrUpdate (owner : Server) (desired : Object k) : Task (Ensured k) := do
  let ns ← owner.metadata.requireNs
  let name ← desired.metadata.requireName
  match ← call (.get k ns name) with
  | none => return .created (← createOwned owner desired)
  | some found =>
    if found.spec = desired.spec then return .found found
    else return .found (← call (.update k { found with spec := desired.spec }))

/-- Writes a corrected child, if there is something to correct, and says whether there was. -/
def applyCorrection (corrected : Option (Object k)) : Task Bool :=
  match corrected with
  | none => return false
  | some corrected => do
    let _ ← call (.update k corrected)
    requirePlace corrected.metadata
    return true

def ensureStorage (found desired : Claim) : Task Bool :=
  applyCorrection (Claim.storageDrift found desired)

def ensureResources (found desired : Deployment) : Task Bool :=
  applyCorrection (Deployment.resourcesDrift found desired)

def ensureImage (found desired : Deployment) (container : String) : Task Bool :=
  applyCorrection (Deployment.imageDrift found desired container)

/-- Writes the status of a server, with the generation it describes, unless it equals the status
from before; the result is the server as it is stored then. -/
def persist (server : Server) (previous : Option ServerStatus) : Task Server := do
  let server := server.observe
  if server.status = previous then return server
  let updated ← call (.updateStatus .unifiedPushServer server)
  requirePlace server.metadata
  return updated

end Task

end PushOperator
