import PushOperator.Kind

/-!
# Objects

An object of a kind: metadata, spec and status. On the wire it also names its kind and API version.
An object of a kind of Kubernetes itself may come without either of them, but not with those of
another type, and its metadata may be missing and counts as empty. Objects of the other kinds are
records that have to come with metadata and a spec; what they say about their type is skipped.
-/

namespace PushOperator

structure Object (k : Kind) where
  metadata : ObjectMeta
  spec : k.Spec
  status : k.Status
  deriving DecidableEq

/-! ## Shorthands for the kinds -/

abbrev Address := Object .address
abbrev AddressSpace := Object .addressSpace
abbrev CronJob := Object .cronJob
abbrev Deployment := Object .deployment
abbrev GrafanaDashboard := Object .grafanaDashboard
abbrev Job := Object .job
abbrev MessagingUser := Object .messagingUser
abbrev Claim := Object .persistentVolumeClaim
abbrev PrometheusRule := Object .prometheusRule
abbrev Route := Object .route
abbrev Secret := Object .secret
abbrev Service := Object .service
abbrev ServiceAccount := Object .serviceAccount
abbrev ServiceMonitor := Object .serviceMonitor
abbrev Server := Object .unifiedPushServer

/-! ## On the wire -/

namespace Kind

/-- The fields of an optional part that is kept in the form of a schema. -/
def partFields (name : String) (part : Option Fields) : Fields :=
  Fields.whenSome name (part.map Json.object)

def partOfFields? (name : String) (schema : List (String × Bool × Schema)) (f : Fields) :
    Option (Option Fields) :=
  let read (j : Json) : Option Fields := do Schema.conformFields schema (← j.fields?)
  (Fields.last? f name (Fields.orNull read)).map Option.join

def specFields : (k : Kind) → k.Spec → Fields
  | address, s => Fields.always "spec" s
  | addressSpace, s => Fields.always "spec" s
  | configMap, s => s
  | cronJob, s => Fields.whenSome "spec" s
  | deployment, s => Fields.whenSome "spec" s
  | deploymentConfig, s => Fields.always "spec" s
  | grafanaDashboard, s => Fields.always "spec" s
  | imageStream, s => Fields.always "spec" s
  | job, s => Fields.whenSome "spec" s
  | messagingUser, s => Fields.always "spec" s
  | persistentVolumeClaim, s => Fields.whenSome "spec" s
  | prometheusRule, s => Fields.always "spec" s
  | route, s => Fields.always "spec" s
  | secret, s => s.toFields
  | service, s => Fields.whenSome "spec" s
  | serviceAccount, s => s
  | serviceMonitor, s => Fields.always "spec" s
  | unifiedPushServer, s => Fields.always "spec" s

def specOfFields? : (k : Kind) → Fields → Option k.Spec
  | address, f => Fields.required f "spec"
  | addressSpace, f => Fields.required f "spec"
  | configMap, f => Schema.conformFields configMapFields f
  | cronJob, f => Fields.optional f "spec"
  | deployment, f => Fields.optional f "spec"
  | deploymentConfig, f => Fields.required f "spec"
  | grafanaDashboard, f => Fields.required f "spec"
  | imageStream, f => Fields.required f "spec"
  | job, f => Fields.optional f "spec"
  | messagingUser, f => Fields.required f "spec"
  | persistentVolumeClaim, f => Fields.optional f "spec"
  | prometheusRule, f => Fields.required f "spec"
  | route, f => Fields.required f "spec"
  | secret, f => SecretContent.ofFields? f
  | service, f => Fields.optional f "spec"
  | serviceAccount, f => Schema.conformFields serviceAccountFields f
  | serviceMonitor, f => Fields.required f "spec"
  | unifiedPushServer, f => Fields.required f "spec"

def statusFields : (k : Kind) → k.Status → Fields
  | address, s => Fields.whenSome "status" s
  | addressSpace, s => Fields.whenSome "status" s
  | cronJob, s => partFields "status" s
  | deployment, s => Fields.whenSome "status" s
  | job, s => Fields.whenSome "status" s
  | persistentVolumeClaim, s => partFields "status" s
  | route, s => Fields.whenSome "status" s
  | service, s => partFields "status" s
  | unifiedPushServer, s => Fields.whenSome "status" s
  | configMap, _ | deploymentConfig, _ | grafanaDashboard, _ | imageStream, _ | messagingUser, _
  | prometheusRule, _ | secret, _ | serviceAccount, _ | serviceMonitor, _ => []

def statusOfFields? : (k : Kind) → Fields → Option k.Status
  | address, f => Fields.optional f "status"
  | addressSpace, f => Fields.optional f "status"
  | cronJob, f => partOfFields? "status" cronJobStatusFields f
  | deployment, f => Fields.optional f "status"
  | job, f => Fields.optional f "status"
  | persistentVolumeClaim, f => partOfFields? "status" claimStatusFields f
  | route, f => Fields.optional f "status"
  | service, f => partOfFields? "status" serviceStatusFields f
  | unifiedPushServer, f => Fields.optional f "status"
  | configMap, _ | deploymentConfig, _ | grafanaDashboard, _ | imageStream, _ | messagingUser, _
  | prometheusRule, _ | secret, _ | serviceAccount, _ | serviceMonitor, _ => some ()

def hasStatus : Kind → Bool
  | configMap | deploymentConfig | grafanaDashboard | imageStream | messagingUser
  | prometheusRule | secret | serviceAccount | serviceMonitor => false
  | _ => true

end Kind

namespace Object

variable {k : Kind}

def ownFields? (k : Kind) (j : Json) : Option Fields :=
  if k.isBuiltIn then (j.fields?).filter fun f => !Fields.isOfOtherType f k.apiVersion k.name
  else if k.hasStatus then j.fullRecord? ["metadata", "spec", "status"]
  else j.fullRecord? ["metadata", "spec"]

instance : Wire (Object k) where
  toJson o := Json.ofFields <|
    Fields.always "apiVersion" k.apiVersion ++ Fields.always "kind" k.name ++
    Fields.always "metadata" o.metadata ++ k.specFields o.spec ++ k.statusFields o.status
  ofJson? j := do
    let f ← ownFields? k j
    return {
      metadata := ←
        if k.isBuiltIn then Fields.lenient f "metadata" {} else Fields.required f "metadata"
      spec := ← k.specOfFields? f
      status := ← k.statusOfFields? f }

def anyName (o : Object k) : String := o.metadata.anyName

end Object

def Server.phase (server : Server) : Phase := (server.status.map (·.phase)).getD .empty

end PushOperator
