import PushOperator.Kubernetes.Pod
import PushOperator.Registry

/-!
# Push servers

The resource that describes one installation of a push server: its database, its backups, the
resources of its containers, and what the last pass has made of it.
-/

namespace PushOperator

/-! ## What is asked for -/

/-- How to reach a database outside the cluster. -/
structure Database where
  name : String
  user : String
  password : String
  host : String
  port : Option IntOrString := none
  deriving DecidableEq, Inhabited

instance : Wire Database where
  toJson x := Json.ofFields <|
    Fields.always "name" x.name ++ Fields.always "user" x.user ++
    Fields.always "password" x.password ++ Fields.always "host" x.host ++
    Fields.whenSome "port" x.port
  ofJson? j := do
    let f ← j.record? ["name", "user", "password", "host", "port"]
    return {
      name := ← Fields.required f "name"
      user := ← Fields.required f "user"
      password := ← Fields.required f "password"
      host := ← Fields.required f "host"
      port := ← Fields.optional f "port" }

/-- A backup of the database on a schedule. The job that makes it bears its name. -/
structure Backup where
  name : String
  schedule : String
  labels : Option (Dict String) := none
  /-- The secret with the key that dumps are encrypted with. -/
  encryptionKeySecretName : Option String := none
  encryptionKeySecretNs : Option String := none
  /-- The secret with the credentials of the place that dumps are stored at. -/
  backendSecretName : String
  backendSecretNs : Option String := none
  deriving DecidableEq, Inhabited

instance : Wire Backup where
  toJson x := Json.ofFields <|
    Fields.always "name" x.name ++ Fields.always "schedule" x.schedule ++
    Fields.whenSome "labels" x.labels ++
    Fields.whenSome "encryptionKeySecretName" x.encryptionKeySecretName ++
    Fields.whenSome "encryptionKeySecretNamespace" x.encryptionKeySecretNs ++
    Fields.always "backendSecretName" x.backendSecretName ++
    Fields.whenSome "backendSecretNamespace" x.backendSecretNs
  ofJson? j := do
    let f ← j.record?
      ["name", "schedule", "labels", "encryptionKeySecretName", "encryptionKeySecretNamespace",
       "backendSecretName", "backendSecretNamespace"]
    return {
      name := ← Fields.required f "name"
      schedule := ← Fields.required f "schedule"
      labels := ← Fields.optional f "labels"
      encryptionKeySecretName := ← Fields.optional f "encryptionKeySecretName"
      encryptionKeySecretNs := ← Fields.optional f "encryptionKeySecretNamespace"
      backendSecretName := ← Fields.required f "backendSecretName"
      backendSecretNs := ← Fields.optional f "backendSecretNamespace" }

structure ServerSpec where
  /-- Whether to use a database that is already there. -/
  externalDB : Bool := false
  database : Option Database := none
  /-- The secret that says how to reach that database. -/
  databaseSecret : Option String := none
  backups : List Backup := []
  useMessageBroker : Bool := false
  unifiedPushResourceRequirements : Option ResourceRequirements := none
  oAuthResourceRequirements : Option ResourceRequirements := none
  postgresResourceRequirements : Option ResourceRequirements := none
  postgresPVCSize : Option String := none
  affinity : Option Affinity := none
  tolerations : List Toleration := []
  deriving DecidableEq, Inhabited

instance : Wire ServerSpec where
  toJson x := Json.ofFields <|
    Fields.always "externalDB" x.externalDB ++ Fields.whenSome "database" x.database ++
    Fields.whenSome "databaseSecret" x.databaseSecret ++
    Fields.whenNonempty "backups" x.backups ++
    Fields.always "useMessageBroker" x.useMessageBroker ++
    Fields.whenSome "unifiedPushResourceRequirements" x.unifiedPushResourceRequirements ++
    Fields.whenSome "oAuthResourceRequirements" x.oAuthResourceRequirements ++
    Fields.whenSome "postgresResourceRequirements" x.postgresResourceRequirements ++
    Fields.whenSome "postgresPVCSize" x.postgresPVCSize ++
    Fields.whenSome "affinity" x.affinity ++ Fields.whenNonempty "tolerations" x.tolerations
  ofJson? j := do
    let f ← j.record?
      ["externalDB", "database", "databaseSecret", "backups", "useMessageBroker",
       "unifiedPushResourceRequirements", "oAuthResourceRequirements",
       "postgresResourceRequirements", "postgresPVCSize", "affinity", "tolerations"]
    return {
      externalDB := ← Fields.defaulted f "externalDB" false
      database := ← Fields.optional f "database"
      databaseSecret := ← Fields.optional f "databaseSecret"
      backups := ← Fields.defaulted f "backups" []
      useMessageBroker := ← Fields.defaulted f "useMessageBroker" false
      unifiedPushResourceRequirements := ← Fields.optional f "unifiedPushResourceRequirements"
      oAuthResourceRequirements := ← Fields.optional f "oAuthResourceRequirements"
      postgresResourceRequirements := ← Fields.optional f "postgresResourceRequirements"
      postgresPVCSize := ← Fields.optional f "postgresPVCSize"
      affinity := ← Fields.optional f "affinity"
      tolerations := ← Fields.defaulted f "tolerations" [] }

/-! ## What has become of it -/

inductive Phase where
  | empty
  | initializing
  | reconciling
  | failing
  deriving DecidableEq, Inhabited

namespace Phase

/-- The name of a phase; a server not seen before has none. -/
def name : Phase → String
  | empty => ""
  | initializing => "Initializing"
  | reconciling => "Reconciling"
  | failing => "Failing"

def ofName? (name : String) : Option Phase :=
  [empty, initializing, reconciling, failing].find? (·.name == name)

/-- Whether a server in this phase has its namespace to itself. -/
def isActive : Phase → Bool
  | initializing | reconciling => true
  | empty | failing => false

/-- A phase is written as its name; an object with the name as its only field, over null, is read
as well. -/
instance : Wire Phase where
  toJson p := .string p.name
  ofJson?
    | .string name => ofName? name
    | .object [(name, .null)] => ofName? name
    | _ => none

end Phase

structure ServerStatus where
  phase : Phase := .empty
  ready : Bool := false
  /-- Why the last pass failed, if it did. -/
  message : String := ""
  /-- The children of the last pass that succeeded. -/
  secondaryResources : Registry := ∅
  /-- The generation of the spec that the pass has seen. -/
  observedGeneration : Option Int64 := none
  deriving DecidableEq, Inhabited

instance : Wire ServerStatus where
  toJson x := Json.ofFields <|
    Fields.always "phase" x.phase ++ Fields.always "ready" x.ready ++
    Fields.always "message" x.message ++
    Fields.always "secondaryResources" x.secondaryResources ++
    Fields.whenSome "observedGeneration" x.observedGeneration
  ofJson? j := do
    let f ← j.record? ["phase", "ready", "message", "secondaryResources", "observedGeneration"]
    return {
      phase := ← Fields.defaulted f "phase" .empty
      ready := ← Fields.defaulted f "ready" false
      message := ← Fields.defaulted f "message" ""
      secondaryResources := ← Fields.defaulted f "secondaryResources" ∅
      observedGeneration := ← Fields.optional f "observedGeneration" }

end PushOperator
