import PushOperator.Kubernetes.Metadata
import PushOperator.Kubernetes.PodSchema

/-!
# Pods

Containers, their volumes and their placement, as far as the operator builds or corrects them. A
container is known by its name, and the first one of a name is the one that counts.
-/

namespace PushOperator

/-! ## Environment -/

structure SecretKeySelector where
  key : String
  name : String
  optional : Option Bool := none
  deriving DecidableEq, Inhabited

instance : Wire SecretKeySelector where
  toJson x := Json.ofFields <|
    Fields.always "key" x.key ++ Fields.always "name" x.name ++
    Fields.whenSome "optional" x.optional
  ofJson? j := do
    let f ← j.fields?
    return {
      key := ← Fields.lenient f "key" ""
      name := ← Fields.lenient f "name" ""
      optional := ← Fields.optional f "optional" }

/-- Where the value of a variable comes from. -/
structure EnvVarSource where
  secretKeyRef : Option SecretKeySelector := none
  other : Fields := []
  deriving DecidableEq, Inhabited

instance : Wire EnvVarSource where
  toJson x := Json.ofFields <|
    Fields.whenSome "secretKeyRef" x.secretKeyRef ++ x.other
  ofJson? j := do
    let f ← j.fields?
    return {
      secretKeyRef := ← Fields.optional f "secretKeyRef"
      other := ← Schema.conformFields PodSchema.valueSourceFields f }

structure EnvVar where
  name : String
  value : Option String := none
  valueFrom : Option EnvVarSource := none
  deriving DecidableEq, Inhabited

instance : Wire EnvVar where
  toJson x := Json.ofFields <|
    Fields.always "name" x.name ++ Fields.whenSome "value" x.value ++
    Fields.whenSome "valueFrom" x.valueFrom
  ofJson? j := do
    let f ← j.fields?
    return {
      name := ← Fields.lenient f "name" ""
      value := ← Fields.optional f "value"
      valueFrom := ← Fields.optional f "valueFrom" }

/-! ## Probes and ports -/

structure ExecAction where
  command : Option (List String) := none
  deriving DecidableEq, Inhabited

instance : Wire ExecAction where
  toJson x := Json.ofFields <|
    Fields.whenSome "command" x.command
  ofJson? j := do
    let f ← j.fields?
    return {
      command := ← Fields.optional f "command" }

structure HttpGetAction where
  path : Option String := none
  port : IntOrString
  other : Fields := []
  deriving DecidableEq, Inhabited

instance : Wire HttpGetAction where
  toJson x := Json.ofFields <|
    Fields.whenSome "path" x.path ++ Fields.always "port" x.port ++ x.other
  ofJson? j := do
    let f ← j.fields?
    return {
      path := ← Fields.optional f "path"
      port := ← Fields.lenient f "port" (.int 0)
      other := ← Schema.conformFields [
        Schema.opt "host" .string,
        Schema.opt "httpHeaders" (.list (.object [
          Schema.req "name" .string, Schema.req "value" .string])),
        Schema.opt "scheme" .string] f }

structure TcpSocketAction where
  port : IntOrString
  host : Option String := none
  deriving DecidableEq, Inhabited

instance : Wire TcpSocketAction where
  toJson x := Json.ofFields <|
    Fields.always "port" x.port ++ Fields.whenSome "host" x.host
  ofJson? j := do
    let f ← j.fields?
    return {
      port := ← Fields.lenient f "port" (.int 0)
      host := ← Fields.optional f "host" }

/-- A check of the container, first made after a delay and then again and again. -/
structure Probe where
  exec : Option ExecAction := none
  httpGet : Option HttpGetAction := none
  tcpSocket : Option TcpSocketAction := none
  initialDelaySeconds : Option Int32 := none
  timeoutSeconds : Option Int32 := none
  other : Fields := []
  deriving DecidableEq, Inhabited

instance : Wire Probe where
  toJson x := Json.ofFields <|
    Fields.whenSome "exec" x.exec ++ Fields.whenSome "httpGet" x.httpGet ++
    Fields.whenSome "tcpSocket" x.tcpSocket ++
    Fields.whenSome "initialDelaySeconds" x.initialDelaySeconds ++
    Fields.whenSome "timeoutSeconds" x.timeoutSeconds ++ x.other
  ofJson? j := do
    let f ← j.fields?
    return {
      exec := ← Fields.optional f "exec"
      httpGet := ← Fields.optional f "httpGet"
      tcpSocket := ← Fields.optional f "tcpSocket"
      initialDelaySeconds := ← Fields.optional f "initialDelaySeconds"
      timeoutSeconds := ← Fields.optional f "timeoutSeconds"
      other := ← Schema.conformFields [
        Schema.opt "failureThreshold" .int32,
        Schema.opt "grpc" (.object [Schema.req "port" .int32, Schema.opt "service" .string]),
        Schema.opt "periodSeconds" .int32,
        Schema.opt "successThreshold" .int32,
        Schema.opt "terminationGracePeriodSeconds" .int64] f }

structure ContainerPort where
  name : Option String := none
  containerPort : Int32
  protocol : Option String := none
  hostIP : Option String := none
  hostPort : Option Int32 := none
  deriving DecidableEq, Inhabited

instance : Wire ContainerPort where
  toJson x := Json.ofFields <|
    Fields.whenSome "name" x.name ++ Fields.always "containerPort" x.containerPort ++
    Fields.whenSome "protocol" x.protocol ++ Fields.whenSome "hostIP" x.hostIP ++
    Fields.whenSome "hostPort" x.hostPort
  ofJson? j := do
    let f ← j.fields?
    return {
      name := ← Fields.optional f "name"
      containerPort := ← Fields.lenient f "containerPort" 0
      protocol := ← Fields.optional f "protocol"
      hostIP := ← Fields.optional f "hostIP"
      hostPort := ← Fields.optional f "hostPort" }

/-! ## Resources -/

/-- How much of each resource a container may use and is promised. -/
structure ResourceRequirements where
  limits : Option (Dict String) := none
  requests : Option (Dict String) := none
  other : Fields := []
  deriving DecidableEq, Inhabited

/-- The fields of resources kept under `other`. -/
def ResourceRequirements.otherSchema : List (String × Bool × Schema) := [
  Schema.opt "claims" (.list (.object [
    Schema.req "name" .string, Schema.opt "request" .string]))]

instance : Wire ResourceRequirements where
  toJson x := Json.ofFields <|
    Fields.whenSome "limits" x.limits ++ Fields.whenSome "requests" x.requests ++ x.other
  ofJson? j := do
    let f ← j.fields?
    return {
      limits := ← Fields.optional f "limits"
      requests := ← Fields.optional f "requests"
      other := ← Schema.conformFields ResourceRequirements.otherSchema f }

/-! ## Containers -/

structure VolumeMount where
  name : String
  mountPath : String
  other : Fields := []
  deriving DecidableEq, Inhabited

instance : Wire VolumeMount where
  toJson x := Json.ofFields <|
    Fields.always "name" x.name ++ Fields.always "mountPath" x.mountPath ++ x.other
  ofJson? j := do
    let f ← j.fields?
    return {
      name := ← Fields.lenient f "name" ""
      mountPath := ← Fields.lenient f "mountPath" ""
      other := ← Schema.conformFields [
        Schema.opt "mountPropagation" .string,
        Schema.opt "readOnly" .bool,
        Schema.opt "recursiveReadOnly" .string,
        Schema.opt "subPath" .string,
        Schema.opt "subPathExpr" .string] f }

structure Container where
  name : String
  image : Option String := none
  imagePullPolicy : Option String := none
  command : Option (List String) := none
  args : Option (List String) := none
  env : Option (List EnvVar) := none
  ports : Option (List ContainerPort) := none
  readinessProbe : Option Probe := none
  livenessProbe : Option Probe := none
  resources : Option ResourceRequirements := none
  volumeMounts : Option (List VolumeMount) := none
  other : Fields := []
  deriving DecidableEq, Inhabited

instance : Wire Container where
  toJson x := Json.ofFields <|
    Fields.always "name" x.name ++ Fields.whenSome "image" x.image ++
    Fields.whenSome "imagePullPolicy" x.imagePullPolicy ++ Fields.whenSome "command" x.command ++
    Fields.whenSome "args" x.args ++ Fields.whenSome "env" x.env ++
    Fields.whenSome "ports" x.ports ++ Fields.whenSome "readinessProbe" x.readinessProbe ++
    Fields.whenSome "livenessProbe" x.livenessProbe ++ Fields.whenSome "resources" x.resources ++
    Fields.whenSome "volumeMounts" x.volumeMounts ++ x.other
  ofJson? j := do
    let f ← j.fields?
    return {
      name := ← Fields.lenient f "name" ""
      image := ← Fields.optional f "image"
      imagePullPolicy := ← Fields.optional f "imagePullPolicy"
      command := ← Fields.optional f "command"
      args := ← Fields.optional f "args"
      env := ← Fields.optional f "env"
      ports := ← Fields.optional f "ports"
      readinessProbe := ← Fields.optional f "readinessProbe"
      livenessProbe := ← Fields.optional f "livenessProbe"
      resources := ← Fields.optional f "resources"
      volumeMounts := ← Fields.optional f "volumeMounts"
      other := ← Schema.conformFields PodSchema.containerFields f }

/-- The first container called `name`. -/
def findContainer (containers : List Container) (name : String) : Option Container :=
  containers.find? (·.name == name)

/-- Changes the first container called `name`. -/
def modifyContainer (f : Container → Container) (name : String) : List Container → List Container
  | [] => []
  | container :: rest =>
    if container.name == name then f container :: rest
    else container :: modifyContainer f name rest

/-! ## Pods -/

/-- A volume that a claim stands for. -/
structure ClaimSource where
  claimName : String
  readOnly : Option Bool := none
  deriving DecidableEq, Inhabited

instance : Wire ClaimSource where
  toJson x := Json.ofFields <|
    Fields.always "claimName" x.claimName ++ Fields.whenSome "readOnly" x.readOnly
  ofJson? j := do
    let f ← j.fields?
    return {
      claimName := ← Fields.lenient f "claimName" ""
      readOnly := ← Fields.optional f "readOnly" }

structure Volume where
  name : String
  persistentVolumeClaim : Option ClaimSource := none
  other : Fields := []
  deriving DecidableEq, Inhabited

instance : Wire Volume where
  toJson x := Json.ofFields <|
    Fields.always "name" x.name ++
    Fields.whenSome "persistentVolumeClaim" x.persistentVolumeClaim ++ x.other
  ofJson? j := do
    let f ← j.fields?
    return {
      name := ← Fields.lenient f "name" ""
      persistentVolumeClaim := ← Fields.optional f "persistentVolumeClaim"
      other := ← Schema.conformFields PodSchema.volumeFields f }

/-- A taint of nodes that a pod puts up with. -/
structure Toleration where
  key : Option String := none
  operator : Option String := none
  value : Option String := none
  effect : Option String := none
  tolerationSeconds : Option Int64 := none
  deriving DecidableEq, Inhabited

instance : Wire Toleration where
  toJson x := Json.ofFields <|
    Fields.whenSome "key" x.key ++ Fields.whenSome "operator" x.operator ++
    Fields.whenSome "value" x.value ++ Fields.whenSome "effect" x.effect ++
    Fields.whenSome "tolerationSeconds" x.tolerationSeconds
  ofJson? j := do
    let f ← j.fields?
    return {
      key := ← Fields.optional f "key"
      operator := ← Fields.optional f "operator"
      value := ← Fields.optional f "value"
      effect := ← Fields.optional f "effect"
      tolerationSeconds := ← Fields.optional f "tolerationSeconds" }

structure Affinity where
  rules : Fields
  deriving DecidableEq, Inhabited

instance : Wire Affinity where
  toJson x := .object x.rules
  ofJson? j := do return ⟨← Schema.conformFields PodSchema.affinityFields (← j.fields?)⟩

structure PodSpec where
  serviceAccountName : Option String := none
  initContainers : Option (List Container) := none
  containers : List Container := []
  volumes : Option (List Volume) := none
  affinity : Option Affinity := none
  tolerations : Option (List Toleration) := none
  restartPolicy : Option String := none
  other : Fields := []
  deriving DecidableEq, Inhabited

instance : Wire PodSpec where
  toJson x := Json.ofFields <|
    Fields.whenSome "serviceAccountName" x.serviceAccountName ++
    Fields.whenSome "initContainers" x.initContainers ++
    Fields.always "containers" x.containers ++ Fields.whenSome "volumes" x.volumes ++
    Fields.whenSome "affinity" x.affinity ++ Fields.whenSome "tolerations" x.tolerations ++
    Fields.whenSome "restartPolicy" x.restartPolicy ++ x.other
  ofJson? j := do
    let f ← j.fields?
    return {
      serviceAccountName := ← Fields.optional f "serviceAccountName"
      initContainers := ← Fields.optional f "initContainers"
      containers := ← Fields.lenient f "containers" []
      volumes := ← Fields.optional f "volumes"
      affinity := ← Fields.optional f "affinity"
      tolerations := ← Fields.optional f "tolerations"
      restartPolicy := ← Fields.optional f "restartPolicy"
      other := ← Schema.conformFields PodSchema.podFields f }

structure PodTemplate where
  metadata : Option ObjectMeta := none
  spec : Option PodSpec := none
  deriving DecidableEq, Inhabited

instance : Wire PodTemplate where
  toJson x := Json.ofFields <|
    Fields.whenSome "metadata" x.metadata ++ Fields.whenSome "spec" x.spec
  ofJson? j := do
    let f ← j.fields?
    return {
      metadata := ← Fields.optional f "metadata"
      spec := ← Fields.optional f "spec" }

end PushOperator
