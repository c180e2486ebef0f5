import PushOperator.Child.Basic

/-!
# The database

The database that a server keeps its applications in: a claim for its storage, a secret with its
connection, a deployment and a service. A server may also use a database that is already there, and
then only the secret is needed.
-/

namespace PushOperator.Child.Database

def port : Int32 := 5432

def hostKey : String := "POSTGRES_HOST"

def portKey : String := "POSTGRES_PORT"

def databaseKey : String := "POSTGRES_DATABASE"

def usernameKey : String := "POSTGRES_USERNAME"

def passwordKey : String := "POSTGRES_PASSWORD"

def superuserKey : String := "POSTGRES_SUPERUSER"

def namesSecret (server : Server) : Bool := server.spec.databaseSecret.any (· ≠ "")

/-- The secret that the server reads its database connection from: with a database that is already
there, the one that the server names, and its own child otherwise. -/
def secretName (server : Server) : String :=
  match server.spec.databaseSecret with
  | some secret =>
    if server.spec.externalDB && secret ≠ "" then secret else childName server postgresql
  | none => childName server postgresql

/-- How much storage the database gets: what the server asks for, or else what the settings say. -/
def claimSize (server : Server) (settings : Settings) : Except Error String :=
  match server.spec.postgresPVCSize with
  | some size => Quantity.parse (if size = "" then settings.postgresPvcSize else size)
  | none => Quantity.parse settings.postgresPvcSize

def claim (server : Server) (settings : Settings) : Except Error Claim := do
  let metadata ← objectMeta server postgresql
  let size ← claimSize server settings
  return {
    metadata
    spec := some {
      accessModes := some ["ReadWriteOnce"]
      resources := some { requests := some (Dict.ofList [("storage", size)]) } }
    status := none }

/-- The connection to a database that is already there. -/
def externalEntries (server : Server) : Except Error (List (String × String)) :=
  match server.spec.database with
  | none => .error <| .configuration
      "an external database needs either `database` or `databaseSecret`"
  | some database =>
    let port := match database.port with
      | some (.int port) => toString port.toInt
      | some (.string port) => port
      | none => toString port.toInt
    .ok [
      (databaseKey, database.name),
      (usernameKey, database.user),
      (passwordKey, database.password),
      (hostKey, database.host),
      (portKey, port),
      (superuserKey, "false")]

/-- The connection to the database of the operator. -/
def ownEntries (server : Server) (ns password : String) : List (String × String) := [
  (databaseKey, "unifiedpush"),
  (usernameKey, "unifiedpush"),
  (passwordKey, password),
  (hostKey, childName server postgresql ++ "." ++ ns ++ ".svc"),
  (portKey, toString port.toInt),
  (superuserKey, "false")]

/-- The connection secret. The password only counts for the database of the operator. -/
def secret (server : Server) (password : String) : Except Error Secret := do
  let ns ← server.metadata.requireNs
  let entries ←
    if server.spec.externalDB then externalEntries server
    else pure (ownEntries server ns password)
  return {
    metadata := ← objectMeta server postgresql
    spec := { stringData := some (Dict.ofList entries) }
    status := () }

def container (server : Server) (settings : Settings) (resources : ResourceRequirements) :
    Container where
  name := settings.postgresContainerName
  image := some settings.postgresImage
  imagePullPolicy := some "IfNotPresent"
  env := some [
    secretEnv "POSTGRESQL_USER" (secretName server) usernameKey,
    secretEnv "POSTGRESQL_PASSWORD" (secretName server) passwordKey,
    secretEnv "POSTGRESQL_DATABASE" (secretName server) databaseKey]
  ports := some [{
    name := some postgresql
    containerPort := port
    protocol := some "TCP" }]
  readinessProbe := some {
    exec := some { command := some [
      "/bin/sh", "-i", "-c",
      "psql -h 127.0.0.1 -U $POSTGRESQL_USER -q -d $POSTGRESQL_DATABASE -c 'SELECT 1'"] }
    initialDelaySeconds := some 5
    timeoutSeconds := some 1 }
  livenessProbe := some {
    tcpSocket := some { port := .int port }
    initialDelaySeconds := some 30
    timeoutSeconds := some 1 }
  resources := some resources
  volumeMounts := some [{
    name := childName server postgresql ++ "-data"
    mountPath := "/var/lib/pgsql/data" }]

def deployment (server : Server) (settings : Settings) : Except Error Deployment := do
  let resources ← postgresResources server settings
  let metadata ← objectMeta server postgresql
  return {
    metadata
    spec := some {
      replicas := some 1
      selector := { matchLabels := some (labels server postgresql) }
      strategy := some { type := some "Recreate" }
      template := {
        metadata := some { labels := some (labels server postgresql) }
        spec := some {
          containers := [container server settings resources]
          volumes := some [{
            name := childName server postgresql ++ "-data"
            persistentVolumeClaim := some { claimName := childName server postgresql } }]
          affinity := server.spec.affinity
          tolerations := tolerations server } } }
    status := none }

def service (server : Server) : Except Error Service := do
  return {
    metadata := ← objectMeta server postgresql
    spec := some {
      selector := some (labels server postgresql)
      ports := some [{
        name := some postgresql
        port := port
        protocol := some "TCP"
        targetPort := some (.int port) }] }
    status := none }

end PushOperator.Child.Database
