import PushOperator.Kubernetes.Pod

/-!
# Services, secrets and claims

The kinds that connect pods, hand them their credentials and give them storage.
-/

namespace PushOperator

/-! ## Services -/

/-- A port of a service and the port of the pods behind it. -/
structure ServicePort where
  name : Option String := none
  port : Int32
  protocol : Option String := none
  targetPort : Option IntOrString := none
  other : Fields := []
  deriving DecidableEq, Inhabited

instance : Wire ServicePort where
  toJson x := Json.ofFields <|
    Fields.whenSome "name" x.name ++ Fields.always "port" x.port ++
    Fields.whenSome "protocol" x.protocol ++ Fields.whenSome "targetPort" x.targetPort ++ x.other
  ofJson? j := do
    let f ← j.fields?
    return {
      name := ← Fields.optional f "name"
      port := ← Fields.lenient f "port" 0
      protocol := ← Fields.optional f "protocol"
      targetPort := ← Fields.optional f "targetPort"
      other := ← Schema.conformFields [
        Schema.opt "appProtocol" .string,
        Schema.opt "nodePort" .int32] f }

structure ServiceSpec where
  selector : Option (Dict String) := none
  ports : Option (List ServicePort) := none
  other : Fields := []
  deriving DecidableEq, Inhabited

instance : Wire ServiceSpec where
  toJson x := Json.ofFields <|
    Fields.whenSome "selector" x.selector ++ Fields.whenSome "ports" x.ports ++ x.other
  ofJson? j := do
    let f ← j.fields?
    return {
      selector := ← Fields.optional f "selector"
      ports := ← Fields.optional f "ports"
      other := ← Schema.conformFields [
        Schema.opt "allocateLoadBalancerNodePorts" .bool,
        Schema.opt "clusterIP" .string,
        Schema.opt "clusterIPs" (.list .string),
        Schema.opt "externalIPs" (.list .string),
        Schema.opt "externalName" .string,
        Schema.opt "externalTrafficPolicy" .string,
        Schema.opt "healthCheckNodePort" .int32,
        Schema.opt "internalTrafficPolicy" .string,
        Schema.opt "ipFamilies" (.list .string),
        Schema.opt "ipFamilyPolicy" .string,
        Schema.opt "loadBalancerClass" .string,
        Schema.opt "loadBalancerIP" .string,
        Schema.opt "loadBalancerSourceRanges" (.list .string),
        Schema.opt "publishNotReadyAddresses" .bool,
        Schema.opt "sessionAffinity" .string,
        Schema.opt "sessionAffinityConfig" (.object [
          Schema.opt "clientIP" (.object [Schema.opt "timeoutSeconds" .int32])]),
        Schema.opt "trafficDistribution" .string,
        Schema.opt "type" .string] f }

def serviceStatusFields : List (String × Bool × Schema) := [
  Schema.opt "conditions" (.list (.object [
    Schema.req "lastTransitionTime" .time,
    Schema.req "message" .string,
    Schema.opt "observedGeneration" .int64,
    Schema.req "reason" .string,
    Schema.req "status" .string,
    Schema.req "type" .string])),
  Schema.opt "loadBalancer" (.object [
    Schema.opt "ingress" (.list (.object [
      Schema.opt "hostname" .string,
      Schema.opt "ip" .string,
      Schema.opt "ipMode" .string,
      Schema.opt "ports" (.list (.object [
        Schema.opt "error" .string,
        Schema.req "port" .int32,
        Schema.req "protocol" .string]))]))])]

/-! ## Secrets and settings -/

/-- What a secret holds: data, and texts that the cluster turns into data. -/
structure SecretContent where
  data : Option (Dict Bytes) := none
  stringData : Option (Dict String) := none
  type : Option String := none
  immutable : Option Bool := none
  deriving DecidableEq, Inhabited

def SecretContent.toFields (x : SecretContent) : Fields :=
  Fields.whenSome "data" x.data ++ Fields.whenSome "stringData" x.stringData ++
  Fields.whenSome "type" x.type ++ Fields.whenSome "immutable" x.immutable

def SecretContent.ofFields? (f : Fields) : Option SecretContent := do
  return {
    data := ← Fields.optional f "data"
    stringData := ← Fields.optional f "stringData"
    type := ← Fields.optional f "type"
    immutable := ← Fields.optional f "immutable" }

def serviceAccountFields : List (String × Bool × Schema) := [
  Schema.opt "automountServiceAccountToken" .bool,
  Schema.opt "imagePullSecrets" (.list PodSchema.localObjectReference),
  Schema.opt "secrets" (.list PodSchema.objectReference)]

def configMapFields : List (String × Bool × Schema) := [
  Schema.opt "binaryData" (.dict .bytes),
  Schema.opt "data" (.dict .string),
  Schema.opt "immutable" .bool]

/-! ## Claims -/

structure StorageRequirements where
  limits : Option (Dict String) := none
  requests : Option (Dict String) := none
  deriving DecidableEq, Inhabited

instance : Wire StorageRequirements where
  toJson x := Json.ofFields <|
    Fields.whenSome "limits" x.limits ++ Fields.whenSome "requests" x.requests
  ofJson? j := do
    let f ← j.fields?
    return {
      limits := ← Fields.optional f "limits"
      requests := ← Fields.optional f "requests" }

structure ClaimSpec where
  accessModes : Option (List String) := none
  resources : Option StorageRequirements := none
  other : Fields := []
  deriving DecidableEq, Inhabited

instance : Wire ClaimSpec where
  toJson x := Json.ofFields <|
    Fields.whenSome "accessModes" x.accessModes ++ Fields.whenSome "resources" x.resources ++
    x.other
  ofJson? j := do
    let f ← j.fields?
    return {
      accessModes := ← Fields.optional f "accessModes"
      resources := ← Fields.optional f "resources"
      other := ← Schema.conformFields PodSchema.claimFields f }

def claimStatusFields : List (String × Bool × Schema) := [
  Schema.opt "accessModes" (.list .string),
  Schema.opt "allocatedResourceStatuses" (.dict .string),
  Schema.opt "allocatedResources" (.dict .string),
  Schema.opt "capacity" (.dict .string),
  Schema.opt "conditions" (.list (.object [
    Schema.opt "lastProbeTime" .time,
    Schema.opt "lastTransitionTime" .time,
    Schema.opt "message" .string,
    Schema.opt "reason" .string,
    Schema.req "status" .string,
    Schema.req "type" .string])),
  Schema.opt "currentVolumeAttributesClassName" .string,
  Schema.opt "modifyVolumeStatus" (.object [
    Schema.req "status" .string,
    Schema.opt "targetVolumeAttributesClassName" .string]),
  Schema.opt "phase" .string]

end PushOperator
