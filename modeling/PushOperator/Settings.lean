import PushOperator.Quantity

/-!
# Settings

The settings of the operator and their defaults: names and images of containers, what the containers
get, which namespaces are watched, and how many servers are seen to at the same time.
-/

namespace PushOperator

structure Settings where
  upsContainerName : String := "ups"
  postgresContainerName : String := "postgresql"
  oauthProxyContainerName : String := "ups-oauth-proxy"
  upsImage : String := "quay.io/aerogear/unifiedpush-configurable-container:2.3"
  postgresImage : String := "docker.io/centos/postgresql-96-centos7:9.6"
  oauthProxyImage : String := "quay.io/openshift/origin-oauth-proxy:4.2.0"
  backupImage : String := "quay.io/integreatly/backup-container:1.0.8"
  upsMemoryLimit : String := "2Gi"
  upsMemoryRequest : String := "512Mi"
  upsCpuLimit : String := "1"
  upsCpuRequest : String := "500m"
  oauthMemoryLimit : String := "64Mi"
  oauthMemoryRequest : String := "32Mi"
  oauthCpuLimit : String := "20m"
  oauthCpuRequest : String := "10m"
  postgresMemoryLimit : String := "512Mi"
  postgresMemoryRequest : String := "256Mi"
  postgresCpuLimit : String := "1"
  postgresCpuRequest : String := "250m"
  postgresPvcSize : String := "5Gi"
  serviceNamespace : List String := []
  maxConcurrentReconciles : Nat := 4
  deriving DecidableEq, Inhabited

/-- A setting that is a text, under the name it has in the environment and on the command line. -/
structure TextSetting where
  key : String
  get : Settings → String
  set : String → Settings → Settings

def TextSetting.all : List TextSetting := [
  ⟨"ups_container_name", (·.upsContainerName), fun v s => { s with upsContainerName := v }⟩,
  ⟨"postgres_container_name", (·.postgresContainerName),
    fun v s => { s with postgresContainerName := v }⟩,
  ⟨"oauth_proxy_container_name", (·.oauthProxyContainerName),
    fun v s => { s with oauthProxyContainerName := v }⟩,
  ⟨"ups_image", (·.upsImage), fun v s => { s with upsImage := v }⟩,
  ⟨"postgres_image", (·.postgresImage), fun v s => { s with postgresImage := v }⟩,
  ⟨"oauth_proxy_image", (·.oauthProxyImage), fun v s => { s with oauthProxyImage := v }⟩,
  ⟨"backup_image", (·.backupImage), fun v s => { s with backupImage := v }⟩,
  ⟨"ups_memory_limit", (·.upsMemoryLimit), fun v s => { s with upsMemoryLimit := v }⟩,
  ⟨"ups_memory_request", (·.upsMemoryRequest), fun v s => { s with upsMemoryRequest := v }⟩,
  ⟨"ups_cpu_limit", (·.upsCpuLimit), fun v s => { s with upsCpuLimit := v }⟩,
  ⟨"ups_cpu_request", (·.upsCpuRequest), fun v s => { s with upsCpuRequest := v }⟩,
  ⟨"oauth_memory_limit", (·.oauthMemoryLimit), fun v s => { s with oauthMemoryLimit := v }⟩,
  ⟨"oauth_memory_request", (·.oauthMemoryRequest), fun v s => { s with oauthMemoryRequest := v }⟩,
  ⟨"oauth_cpu_limit", (·.oauthCpuLimit), fun v s => { s with oauthCpuLimit := v }⟩,
  ⟨"oauth_cpu_request", (·.oauthCpuRequest), fun v s => { s with oauthCpuRequest := v }⟩,
  ⟨"postgres_memory_limit", (·.postgresMemoryLimit),
    fun v s => { s with postgresMemoryLimit := v }⟩,
  ⟨"postgres_memory_request", (·.postgresMemoryRequest),
    fun v s => { s with postgresMemoryRequest := v }⟩,
  ⟨"postgres_cpu_limit", (·.postgresCpuLimit), fun v s => { s with postgresCpuLimit := v }⟩,
  ⟨"postgres_cpu_request", (·.postgresCpuRequest), fun v s => { s with postgresCpuRequest := v }⟩,
  ⟨"postgres_pvc_size", (·.postgresPvcSize), fun v s => { s with postgresPvcSize := v }⟩]

namespace Settings

/-- Settings are written under their keys. Reading takes the default for a key that is absent or
null. -/
instance : Wire Settings where
  toJson s := Json.ofFields <|
    TextSetting.all.map (fun t => (t.key, .string (t.get s))) ++
    Fields.always "service_namespace" s.serviceNamespace ++
    [("max_concurrent_reconciles", .int s.maxConcurrentReconciles)]
  ofJson? j := do
    let f ← j.fields?
    let s ← TextSetting.all.foldlM
      (fun s t => return t.set (← Fields.lenient f t.key (t.get s)) s) ({} : Settings)
    let limit ← match f.lookup "max_concurrent_reconciles" with
      | none | some .null => some s.maxConcurrentReconciles
      | some j => j.int?.bind fun n => if 0 ≤ n then some n.toNat else none
    return { s with
      serviceNamespace := ← Fields.lenient f "service_namespace" s.serviceNamespace
      maxConcurrentReconciles := limit }

def upsResources (s : Settings) : ResourceDefaults :=
  ⟨s.upsMemoryLimit, s.upsMemoryRequest, s.upsCpuLimit, s.upsCpuRequest⟩

def oauthResources (s : Settings) : ResourceDefaults :=
  ⟨s.oauthMemoryLimit, s.oauthMemoryRequest, s.oauthCpuLimit, s.oauthCpuRequest⟩

def postgresResources (s : Settings) : ResourceDefaults :=
  ⟨s.postgresMemoryLimit, s.postgresMemoryRequest, s.postgresCpuLimit, s.postgresCpuRequest⟩

/-- The namespaces that the operator is restricted to, or nothing when it watches all of them. -/
def namespaces (s : Settings) : Option (List String) :=
  match (s.serviceNamespace.map Text.trim).filter (· ≠ "") with
  | [] => none
  | names => some names

def watches (s : Settings) (ns : String) : Bool :=
  match s.namespaces with
  | some names => names.contains ns
  | none => true

/-- Refuses quantities that no container or volume could be given. -/
def validate (s : Settings) : Except Error Unit := do
  let defaults := [s.upsResources, s.oauthResources, s.postgresResources]
  for quantity in defaults.flatMap (·.quantities) do
    let _ ← Quantity.parse quantity
  let _ ← Quantity.parse s.postgresPvcSize

end Settings

end PushOperator
