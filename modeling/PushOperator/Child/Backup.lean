import PushOperator.Child.Database

/-!
# Backups

One scheduled job for each backup that a server asks for. The job bears the name of the backup; its
labels are those of the backup with the server's own on top.
-/

namespace PushOperator.Child.Backup

/-- The account that backup jobs run as. The administrator of the cluster provides it. -/
def account : String := "backupjob"

def environment (server : Server) (backup : Backup) (ns : String) : List EnvVar :=
  [valueEnv "BACKEND_SECRET_NAME" backup.backendSecretName,
    valueEnv "BACKEND_SECRET_NAMESPACE" (backup.backendSecretNs.getD ns),
    valueEnv "COMPONENT_SECRET_NAME" (Database.secretName server),
    valueEnv "COMPONENT_SECRET_NAMESPACE" ns] ++
  match backup.encryptionKeySecretName with
  | some secret =>
    [valueEnv "ENCRYPTION_SECRET_NAME" secret,
      valueEnv "ENCRYPTION_SECRET_NAMESPACE" (backup.encryptionKeySecretNs.getD ns)]
  | none => []

def command (backup : Backup) (ns : String) : List String :=
  ["/opt/intly/tools/entrypoint.sh", "-c", "postgres", "-n", ns, "-b", "s3"] ++
  if backup.encryptionKeySecretName.isSome then ["-e", "gpg"] else []

def jobLabels (server : Server) (backup : Backup) : Dict String :=
  (backup.labels.getD ∅).insertAll (labels server Child.backup).entries

def cronJob (server : Server) (settings : Settings) (backup : Backup) : Except Error CronJob := do
  let ns ← server.metadata.requireNs
  return {
    metadata := ← namedMeta server backup.name (jobLabels server backup)
    spec := some {
      schedule := backup.schedule
      concurrencyPolicy := some "Forbid"
      jobTemplate := { spec := some { template := { spec := some {
        serviceAccountName := some account
        restartPolicy := some "OnFailure"
        containers := [{
          name := "backup-cronjob"
          image := some settings.backupImage
          imagePullPolicy := some "Always"
          command := some (command backup ns)
          env := some (environment server backup ns) }]
        affinity := server.spec.affinity
        tolerations := tolerations server } } } } }
    status := none }

def cronJobs (server : Server) (settings : Settings) : Except Error (List CronJob) :=
  server.spec.backups.mapM (cronJob server settings)

end PushOperator.Child.Backup
