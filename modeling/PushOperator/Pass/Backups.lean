import PushOperator.Child.Backup
import PushOperator.Pass.Basic

/-!
# The backup step

One scheduled job for each backup of the spec. The jobs that are there are found by their labels.
Those that differ from the wanted ones in spec or labels are replaced, missing ones are created, and
the jobs of backups that are no longer wanted are deleted.
-/

namespace PushOperator.Pass

open Child

def agrees (found desired : CronJob) : Bool :=
  found.spec = desired.spec && found.metadata.labelsOrEmpty = desired.metadata.labelsOrEmpty

def replacement (found desired : CronJob) : CronJob :=
  { desired with metadata := { desired.metadata with
      resourceVersion := found.metadata.resourceVersion
      ownerReferences := found.metadata.ownerReferences } }

def reconcileBackup (existing : List CronJob) (desired : CronJob) : Pass Unit := do
  let name ← (desired.metadata.requireName : Task String)
  match existing.find? (·.anyName == name) with
  | some found =>
    if !agrees found desired then
      let _ ← Task.call (.update .cronJob (replacement found desired))
  | none =>
    let _ ← Task.createOwned (← server) desired
    report .childCreated ("Created CronJob " ++ name)
  record .cronJob name

/-- Deletes a live job when no wanted one bears its name. -/
def removeBackup (desired : List CronJob) (found : CronJob) : Pass Unit := do
  if desired.any (·.metadata.name == some found.anyName) then return
  let _ ← Task.call (.delete .cronJob found)
  forget .cronJob found.anyName
  report .backupRemoved ("Deleted CronJob " ++ found.anyName)

/-- All backups. Without the account that they run as, the pass waits for it. -/
def reconcileBackups (settings : Settings) : Pass Unit := do
  let server ← server
  let ns ← (server.metadata.requireNs : Task String)
  let desired ← (Backup.cronJobs server settings : Task (List CronJob))
  if !desired.isEmpty then
    match ← Task.call (.get .serviceAccount ns Backup.account) with
    | some _ => pure ()
    | none => stop (.requeue 10)
  let existing ← Task.call (.list .cronJob ns (selector server backup))
  desired.forM (reconcileBackup existing)
  existing.forM (removeBackup desired)

end PushOperator.Pass
