import PushOperator.Kubernetes.Core
import PushOperator.Kubernetes.Workload
import PushOperator.Resource.Broker
import PushOperator.Resource.Monitoring
import PushOperator.Resource.Route
import PushOperator.Resource.Server

/-!
# Kinds of objects

The kinds of objects that the operator reads and writes, where the API serves them, and what objects
of each kind are made of. An object has metadata, a spec and a status; for a kind without a spec of
its own, the spec stands for all that the object holds, and for a kind without status, the status is
the unit.
-/

namespace PushOperator

inductive Kind where
  | address
  | addressSpace
  | configMap
  | cronJob
  | deployment
  | deploymentConfig
  | grafanaDashboard
  | imageStream
  | job
  | messagingUser
  | persistentVolumeClaim
  | prometheusRule
  | route
  | secret
  | service
  | serviceAccount
  | serviceMonitor
  | unifiedPushServer
  deriving DecidableEq, Inhabited

namespace Kind

/-- All kinds, in ascending order of their names. -/
def all : List Kind := [
  address, addressSpace, configMap, cronJob, deployment, deploymentConfig, grafanaDashboard,
  imageStream, job, messagingUser, persistentVolumeClaim, prometheusRule, route, secret, service,
  serviceAccount, serviceMonitor, unifiedPushServer]

theorem mem_all (k : Kind) : k ∈ all := by cases k <;> decide

def name : Kind → String
  | address => "Address"
  | addressSpace => "AddressSpace"
  | configMap => "ConfigMap"
  | cronJob => "CronJob"
  | deployment => "Deployment"
  | deploymentConfig => "DeploymentConfig"
  | grafanaDashboard => "GrafanaDashboard"
  | imageStream => "ImageStream"
  | job => "Job"
  | messagingUser => "MessagingUser"
  | persistentVolumeClaim => "PersistentVolumeClaim"
  | prometheusRule => "PrometheusRule"
  | route => "Route"
  | secret => "Secret"
  | service => "Service"
  | serviceAccount => "ServiceAccount"
  | serviceMonitor => "ServiceMonitor"
  | unifiedPushServer => "UnifiedPushServer"

def ofName? (name : String) : Option Kind := all.find? (·.name == name)

/-- The API version that serves a kind: a group and a version, or a version of the core group. -/
def apiVersion : Kind → String
  | address | addressSpace => "enmasse.io/v1beta1"
  | cronJob | job => "batch/v1"
  | deployment => "apps/v1"
  | deploymentConfig => "apps.openshift.io/v1"
  | grafanaDashboard => "integreatly.org/v1alpha1"
  | imageStream => "image.openshift.io/v1"
  | messagingUser => "user.enmasse.io/v1beta1"
  | prometheusRule | serviceMonitor => "monitoring.coreos.com/v1"
  | route => "route.openshift.io/v1"
  | unifiedPushServer => "push.aerogear.org/v1alpha1"
  | configMap | persistentVolumeClaim | secret | service | serviceAccount => "v1"

/-- Whether a kind belongs to the core group, which has a path of its own. -/
def isCore : Kind → Bool
  | configMap | persistentVolumeClaim | secret | service | serviceAccount => true
  | _ => false

def isBuiltIn : Kind → Bool
  | cronJob | job | deployment => true
  | k => k.isCore

/-- The word for objects of a kind in paths. -/
def plural : Kind → String
  | address => "addresses"
  | k => String.ofList (k.name.toList.map Char.toLower) ++ "s"

/-- What an object of a kind holds besides its metadata and status. -/
@[reducible]
def Spec : Kind → Type
  | address => AddressSpec
  | addressSpace => AddressSpaceSpec
  | configMap => Fields
  | cronJob => Option CronJobSpec
  | deployment => Option DeploymentSpec
  | deploymentConfig => DeploymentConfigSpec
  | grafanaDashboard => GrafanaDashboardSpec
  | imageStream => ImageStreamSpec
  | job => Option JobSpec
  | messagingUser => MessagingUserSpec
  | persistentVolumeClaim => Option ClaimSpec
  | prometheusRule => PrometheusRuleSpec
  | route => RouteSpec
  | secret => SecretContent
  | service => Option ServiceSpec
  | serviceAccount => Fields
  | serviceMonitor => ServiceMonitorSpec
  | unifiedPushServer => ServerSpec

@[reducible]
def Status : Kind → Type
  | address => Option AddressStatus
  | addressSpace => Option AddressSpaceStatus
  | cronJob => Option Fields
  | deployment => Option DeploymentStatus
  | job => Option JobStatus
  | persistentVolumeClaim => Option Fields
  | route => Option RouteStatus
  | service => Option Fields
  | unifiedPushServer => Option ServerStatus
  | configMap | deploymentConfig | grafanaDashboard | imageStream | messagingUser
  | prometheusRule | secret | serviceAccount | serviceMonitor => Unit

instance decEqSpec : (k : Kind) → DecidableEq k.Spec
  | address | addressSpace | configMap | cronJob | deployment | deploymentConfig
  | grafanaDashboard | imageStream | job | messagingUser | persistentVolumeClaim
  | prometheusRule | route | secret | service | serviceAccount | serviceMonitor
  | unifiedPushServer => inferInstance

instance decEqStatus : (k : Kind) → DecidableEq k.Status
  | address | addressSpace | configMap | cronJob | deployment | deploymentConfig
  | grafanaDashboard | imageStream | job | messagingUser | persistentVolumeClaim
  | prometheusRule | route | secret | service | serviceAccount | serviceMonitor
  | unifiedPushServer => inferInstance

end Kind

end PushOperator
