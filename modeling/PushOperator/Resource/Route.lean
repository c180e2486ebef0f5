import PushOperator.Json.Wire

/-!
# Routes and older kinds

Routes lead into the cluster from outside. Deployment configurations and image streams are what
earlier versions of the operator used; they are only listed and deleted.
-/

namespace PushOperator

/-! ## Routes -/

structure RouteTarget where
  kind : String
  name : String
  deriving DecidableEq, Inhabited

instance : Wire RouteTarget where
  toJson x := Json.ofFields <|
    Fields.always "kind" x.kind ++ Fields.always "name" x.name
  ofJson? j := do
    let f ← j.record? ["kind", "name"]
    return {
      kind := ← Fields.required f "kind"
      name := ← Fields.required f "name" }

structure TlsConfig where
  termination : String
  insecureEdgeTerminationPolicy : Option String := none
  deriving DecidableEq, Inhabited

instance : Wire TlsConfig where
  toJson x := Json.ofFields <|
    Fields.always "termination" x.termination ++
    Fields.whenSome "insecureEdgeTerminationPolicy" x.insecureEdgeTerminationPolicy
  ofJson? j := do
    let f ← j.record? ["termination", "insecureEdgeTerminationPolicy"]
    return {
      termination := ← Fields.required f "termination"
      insecureEdgeTerminationPolicy := ← Fields.optional f "insecureEdgeTerminationPolicy" }

/-- A host name that leads to a service. -/
structure RouteSpec where
  host : Option String := none
  target : RouteTarget
  tls : Option TlsConfig := none
  deriving DecidableEq, Inhabited

instance : Wire RouteSpec where
  toJson x := Json.ofFields <|
    Fields.whenSome "host" x.host ++ Fields.always "to" x.target ++ Fields.whenSome "tls" x.tls
  ofJson? j := do
    let f ← j.record? ["host", "to", "tls"]
    return {
      host := ← Fields.optional f "host"
      target := ← Fields.required f "to"
      tls := ← Fields.optional f "tls" }

structure RouteCondition where
  type : String
  status : String
  reason : Option String := none
  deriving DecidableEq, Inhabited

instance : Wire RouteCondition where
  toJson x := Json.ofFields <|
    Fields.always "type" x.type ++ Fields.always "status" x.status ++
    Fields.whenSome "reason" x.reason
  ofJson? j := do
    let f ← j.record? ["type", "status", "reason"]
    return {
      type := ← Fields.required f "type"
      status := ← Fields.required f "status"
      reason := ← Fields.optional f "reason" }

/-- A router that serves a route. -/
structure RouteIngress where
  host : Option String := none
  routerName : Option String := none
  conditions : List RouteCondition := []
  deriving DecidableEq, Inhabited

instance : Wire RouteIngress where
  toJson x := Json.ofFields <|
    Fields.whenSome "host" x.host ++ Fields.whenSome "routerName" x.routerName ++
    Fields.always "conditions" x.conditions
  ofJson? j := do
    let f ← j.record? ["host", "routerName", "conditions"]
    return {
      host := ← Fields.optional f "host"
      routerName := ← Fields.optional f "routerName"
      conditions := ← Fields.defaulted f "conditions" [] }

structure RouteStatus where
  ingress : List RouteIngress := []
  deriving DecidableEq, Inhabited

instance : Wire RouteStatus where
  toJson x := Json.ofFields <|
    Fields.always "ingress" x.ingress
  ofJson? j := do
    let f ← j.record? ["ingress"]
    return {
      ingress := ← Fields.defaulted f "ingress" [] }

/-! ## Older kinds -/

/-- What earlier versions ran. -/
structure DeploymentConfigSpec where
  replicas : Option Int32 := none
  selector : Option (Dict String) := none
  deriving DecidableEq, Inhabited

instance : Wire DeploymentConfigSpec where
  toJson x := Json.ofFields <|
    Fields.whenSome "replicas" x.replicas ++ Fields.whenSome "selector" x.selector
  ofJson? j := do
    let f ← j.record? ["replicas", "selector"]
    return {
      replicas := ← Fields.optional f "replicas"
      selector := ← Fields.optional f "selector" }

/-- Where earlier versions got their images. -/
structure ImageStreamSpec where
  dockerImageRepository : Option String := none
  deriving DecidableEq, Inhabited

instance : Wire ImageStreamSpec where
  toJson x := Json.ofFields <|
    Fields.whenSome "dockerImageRepository" x.dockerImageRepository
  ofJson? j := do
    let f ← j.record? ["dockerImageRepository"]
    return {
      dockerImageRepository := ← Fields.optional f "dockerImageRepository" }

end PushOperator
