import PushOperator.Schema

/-!
# Schemas of pods

The parts of pods and their volumes that the operator hands through without looking at them, as
version 1.33 of the Kubernetes API has them.
-/

namespace PushOperator.PodSchema

open Schema

/-! ## References and selectors -/

/-- A reference to an object of the same namespace. -/
def localObjectReference : Schema := .object [req "name" .string]

def objectReference : Schema := .object [
  opt "apiVersion" .string,
  opt "fieldPath" .string,
  opt "kind" .string,
  opt "name" .string,
  opt "namespace" .string,
  opt "resourceVersion" .string,
  opt "uid" .string]

/-- A requirement on a label or field. -/
def requirement : Schema := .object [
  req "key" .string,
  req "operator" .string,
  opt "values" (.list .string)]

def labelSelector : Schema := .object [
  opt "matchExpressions" (.list requirement),
  opt "matchLabels" (.dict .string)]

def nodeSelectorTerm : Schema := .object [
  opt "matchExpressions" (.list requirement),
  opt "matchFields" (.list requirement)]

/-- A rule that pods keep to, or away from, the nodes of other pods. -/
def podAffinityTerm : Schema := .object [
  opt "labelSelector" labelSelector,
  opt "matchLabelKeys" (.list .string),
  opt "mismatchLabelKeys" (.list .string),
  opt "namespaceSelector" labelSelector,
  opt "namespaces" (.list .string),
  req "topologyKey" .string]

def podAffinity : Schema := .object [
  opt "preferredDuringSchedulingIgnoredDuringExecution" (.list (.object [
    req "podAffinityTerm" podAffinityTerm,
    req "weight" .int32])),
  opt "requiredDuringSchedulingIgnoredDuringExecution" (.list podAffinityTerm)]

/-- The fields of the rules about the nodes a pod may run on. -/
def affinityFields : List (String × Bool × Schema) := [
  opt "nodeAffinity" (.object [
    opt "preferredDuringSchedulingIgnoredDuringExecution" (.list (.object [
      req "preference" nodeSelectorTerm,
      req "weight" .int32])),
    opt "requiredDuringSchedulingIgnoredDuringExecution" (.object [
      req "nodeSelectorTerms" (.list nodeSelectorTerm)])]),
  opt "podAffinity" podAffinity,
  opt "podAntiAffinity" podAffinity]

/-! ## Containers -/

def httpGet : Schema := .object [
  opt "host" .string,
  opt "httpHeaders" (.list (.object [req "name" .string, req "value" .string])),
  opt "path" .string,
  req "port" .intOrString,
  opt "scheme" .string]

/-- Something to do at a point of a container's life. -/
def lifecycleHandler : Schema := .object [
  opt "exec" (.object [opt "command" (.list .string)]),
  opt "httpGet" httpGet,
  opt "sleep" (.object [req "seconds" .int64]),
  opt "tcpSocket" (.object [opt "host" .string, req "port" .intOrString])]

def fieldRef : Schema := .object [opt "apiVersion" .string, req "fieldPath" .string]

def resourceFieldRef : Schema := .object [
  opt "containerName" .string,
  opt "divisor" .string,
  req "resource" .string]

def seLinuxOptions : Schema := .object [
  opt "level" .string, opt "role" .string, opt "type" .string, opt "user" .string]

def securityProfile : Schema := .object [opt "localhostProfile" .string, req "type" .string]

def windowsOptions : Schema := .object [
  opt "gmsaCredentialSpec" .string,
  opt "gmsaCredentialSpecName" .string,
  opt "hostProcess" .bool,
  opt "runAsUserName" .string]

def securityContext : Schema := .object [
  opt "allowPrivilegeEscalation" .bool,
  opt "appArmorProfile" securityProfile,
  opt "capabilities" (.object [opt "add" (.list .string), opt "drop" (.list .string)]),
  opt "privileged" .bool,
  opt "procMount" .string,
  opt "readOnlyRootFilesystem" .bool,
  opt "runAsGroup" .int64,
  opt "runAsNonRoot" .bool,
  opt "runAsUser" .int64,
  opt "seLinuxOptions" seLinuxOptions,
  opt "seccompProfile" securityProfile,
  opt "windowsOptions" windowsOptions]

/-- A reference to the contents of a configuration object, which may be missing. -/
def sourceRef : Schema := .object [req "name" .string, opt "optional" .bool]

def probe : Schema := .object [
  opt "exec" (.object [opt "command" (.list .string)]),
  opt "failureThreshold" .int32,
  opt "grpc" (.object [req "port" .int32, opt "service" .string]),
  opt "httpGet" httpGet,
  opt "initialDelaySeconds" .int32,
  opt "periodSeconds" .int32,
  opt "successThreshold" .int32,
  opt "tcpSocket" (.object [opt "host" .string, req "port" .intOrString]),
  opt "terminationGracePeriodSeconds" .int64,
  opt "timeoutSeconds" .int32]

/-- The other sources of the value of a variable. -/
def valueSourceFields : List (String × Bool × Schema) := [
  opt "configMapKeyRef" (.object [
    req "key" .string, req "name" .string, opt "optional" .bool]),
  opt "fieldRef" fieldRef,
  opt "resourceFieldRef" resourceFieldRef]

/-- The other fields of a container. -/
def containerFields : List (String × Bool × Schema) := [
  opt "envFrom" (.list (.object [
    opt "configMapRef" sourceRef,
    opt "prefix" .string,
    opt "secretRef" sourceRef])),
  opt "lifecycle" (.object [
    opt "postStart" lifecycleHandler,
    opt "preStop" lifecycleHandler,
    opt "stopSignal" .string]),
  opt "resizePolicy" (.list (.object [req "resourceName" .string, req "restartPolicy" .string])),
  opt "restartPolicy" .string,
  opt "securityContext" securityContext,
  opt "startupProbe" probe,
  opt "stdin" .bool,
  opt "stdinOnce" .bool,
  opt "terminationMessagePath" .string,
  opt "terminationMessagePolicy" .string,
  opt "tty" .bool,
  opt "volumeDevices" (.list (.object [req "devicePath" .string, req "name" .string])),
  opt "workingDir" .string]

def resources : Schema := .object [
  opt "claims" (.list (.object [req "name" .string, opt "request" .string])),
  opt "limits" (.dict .string),
  opt "requests" (.dict .string)]

/-- A container that joins a running pod. -/
def ephemeralContainer : Schema := .object [
  opt "args" (.list .string),
  opt "command" (.list .string),
  opt "env" (.list (.object [
    req "name" .string,
    opt "value" .string,
    opt "valueFrom" (.object (valueSourceFields ++ [
      opt "secretKeyRef" (.object [
        req "key" .string, req "name" .string, opt "optional" .bool])]))])),
  opt "envFrom" (.list (.object [
    opt "configMapRef" sourceRef,
    opt "prefix" .string,
    opt "secretRef" sourceRef])),
  opt "image" .string,
  opt "imagePullPolicy" .string,
  opt "lifecycle" (.object [
    opt "postStart" lifecycleHandler,
    opt "preStop" lifecycleHandler,
    opt "stopSignal" .string]),
  opt "livenessProbe" probe,
  req "name" .string,
  opt "ports" (.list (.object [
    req "containerPort" .int32,
    opt "hostIP" .string,
    opt "hostPort" .int32,
    opt "name" .string,
    opt "protocol" .string])),
  opt "readinessProbe" probe,
  opt "resizePolicy" (.list (.object [req "resourceName" .string, req "restartPolicy" .string])),
  opt "resources" resources,
  opt "restartPolicy" .string,
  opt "securityContext" securityContext,
  opt "startupProbe" probe,
  opt "stdin" .bool,
  opt "stdinOnce" .bool,
  opt "targetContainerName" .string,
  opt "terminationMessagePath" .string,
  opt "terminationMessagePolicy" .string,
  opt "tty" .bool,
  opt "volumeDevices" (.list (.object [req "devicePath" .string, req "name" .string])),
  opt "volumeMounts" (.list (.object [
    req "mountPath" .string,
    opt "mountPropagation" .string,
    req "name" .string,
    opt "readOnly" .bool,
    opt "recursiveReadOnly" .string,
    opt "subPath" .string,
    opt "subPathExpr" .string])),
  opt "workingDir" .string]

/-! ## Volumes -/

/-- Keys projected to paths. -/
def keyToPaths : Schema := .list (.object [
  req "key" .string, opt "mode" .int32, req "path" .string])

/-- Fields of the pod projected to paths. -/
def downwardFiles : Schema := .list (.object [
  opt "fieldRef" fieldRef,
  opt "mode" .int32,
  req "path" .string,
  opt "resourceFieldRef" resourceFieldRef])

def volumeResources : Schema := .object [
  opt "limits" (.dict .string),
  opt "requests" (.dict .string)]

/-- The fields of a claim's spec that say what the volume is filled with at first. -/
def claimSourceFields : List (String × Bool × Schema) := [
  opt "dataSource" (.object [
    opt "apiGroup" .string, req "kind" .string, req "name" .string]),
  opt "dataSourceRef" (.object [
    opt "apiGroup" .string, req "kind" .string, req "name" .string, opt "namespace" .string])]

/-- The fields of a claim's spec that say which volume is claimed. -/
def claimVolumeFields : List (String × Bool × Schema) := [
  opt "selector" labelSelector,
  opt "storageClassName" .string,
  opt "volumeAttributesClassName" .string,
  opt "volumeMode" .string,
  opt "volumeName" .string]

/-- The fields of a claim's spec other than the storage asked for and the ways of access. -/
def claimFields : List (String × Bool × Schema) := claimSourceFields ++ claimVolumeFields

def objectMeta : Schema := .object [
  opt "annotations" (.dict .string),
  opt "creationTimestamp" .time,
  opt "deletionGracePeriodSeconds" .int64,
  opt "deletionTimestamp" .time,
  opt "finalizers" (.list .string),
  opt "generateName" .string,
  opt "generation" .int64,
  opt "labels" (.dict .string),
  opt "managedFields" (.list (.object [
    opt "apiVersion" .string,
    opt "fieldsType" .string,
    opt "fieldsV1" .any,
    opt "manager" .string,
    opt "operation" .string,
    opt "subresource" .string,
    opt "time" .time])),
  opt "name" .string,
  opt "namespace" .string,
  opt "ownerReferences" (.list (.object [
    req "apiVersion" .string,
    opt "blockOwnerDeletion" .bool,
    opt "controller" .bool,
    req "kind" .string,
    req "name" .string,
    req "uid" .string])),
  opt "resourceVersion" .string,
  opt "selfLink" .string,
  opt "uid" .string]

/-- The kinds of volumes other than a claimed one. -/
def volumeFields : List (String × Bool × Schema) := [
  opt "awsElasticBlockStore" (.object [
    opt "fsType" .string, opt "partition" .int32, opt "readOnly" .bool, req "volumeID" .string]),
  opt "azureDisk" (.object [
    opt "cachingMode" .string, req "diskName" .string, req "diskURI" .string,
    opt "fsType" .string, opt "kind" .string, opt "readOnly" .bool]),
  opt "azureFile" (.object [
    opt "readOnly" .bool, req "secretName" .string, req "shareName" .string]),
  opt "cephfs" (.object [
    req "monitors" (.list .string), opt "path" .string, opt "readOnly" .bool,
    opt "secretFile" .string, opt "secretRef" localObjectReference, opt "user" .string]),
  opt "cinder" (.object [
    opt "fsType" .string, opt "readOnly" .bool, opt "secretRef" localObjectReference,
    req "volumeID" .string]),
  opt "configMap" (.object [
    opt "defaultMode" .int32, opt "items" keyToPaths, req "name" .string, opt "optional" .bool]),
  opt "csi" (.object [
    req "driver" .string, opt "fsType" .string, opt "nodePublishSecretRef" localObjectReference,
    opt "readOnly" .bool, opt "volumeAttributes" (.dict .string)]),
  opt "downwardAPI" (.object [opt "defaultMode" .int32, opt "items" downwardFiles]),
  opt "emptyDir" (.object [opt "medium" .string, opt "sizeLimit" .string]),
  opt "ephemeral" (.object [
    opt "volumeClaimTemplate" (.object [
      opt "metadata" objectMeta,
      req "spec" (.object (
        [opt "accessModes" (.list .string)] ++ claimSourceFields ++
        [opt "resources" volumeResources] ++ claimVolumeFields))])]),
  opt "fc" (.object [
    opt "fsType" .string, opt "lun" .int32, opt "readOnly" .bool,
    opt "targetWWNs" (.list .string), opt "wwids" (.list .string)]),
  opt "flexVolume" (.object [
    req "driver" .string, opt "fsType" .string, opt "options" (.dict .string),
    opt "readOnly" .bool, opt "secretRef" localObjectReference]),
  opt "flocker" (.object [opt "datasetName" .string, opt "datasetUUID" .string]),
  opt "gcePersistentDisk" (.object [
    opt "fsType" .string, opt "partition" .int32, req "pdName" .string, opt "readOnly" .bool]),
  opt "gitRepo" (.object [
    opt "directory" .string, req "repository" .string, opt "revision" .string]),
  opt "glusterfs" (.object [
    req "endpoints" .string, req "path" .string, opt "readOnly" .bool]),
  opt "hostPath" (.object [req "path" .string, opt "type" .string]),
  opt "image" (.object [opt "pullPolicy" .string, opt "reference" .string]),
  opt "iscsi" (.object [
    opt "chapAuthDiscovery" .bool, opt "chapAuthSession" .bool, opt "fsType" .string,
    opt "initiatorName" .string, req "iqn" .string, opt "iscsiInterface" .string,
    req "lun" .int32, opt "portals" (.list .string), opt "readOnly" .bool,
    opt "secretRef" localObjectReference, req "targetPortal" .string]),
  opt "nfs" (.object [req "path" .string, opt "readOnly" .bool, req "server" .string]),
  opt "photonPersistentDisk" (.object [opt "fsType" .string, req "pdID" .string]),
  opt "portworxVolume" (.object [
    opt "fsType" .string, opt "readOnly" .bool, req "volumeID" .string]),
  opt "projected" (.object [
    opt "defaultMode" .int32,
    opt "sources" (.list (.object [
      opt "clusterTrustBundle" (.object [
        opt "labelSelector" labelSelector, opt "name" .string, opt "optional" .bool,
        req "path" .string, opt "signerName" .string]),
      opt "configMap" (.object [
        opt "items" keyToPaths, req "name" .string, opt "optional" .bool]),
      opt "downwardAPI" (.object [opt "items" downwardFiles]),
      opt "secret" (.object [
        opt "items" keyToPaths, req "name" .string, opt "optional" .bool]),
      opt "serviceAccountToken" (.object [
        opt "audience" .string, opt "expirationSeconds" .int64, req "path" .string])]))]),
  opt "quobyte" (.object [
    opt "group" .string, opt "readOnly" .bool, req "registry" .string, opt "tenant" .string,
    opt "user" .string, req "volume" .string]),
  opt "rbd" (.object [
    opt "fsType" .string, req "image" .string, opt "keyring" .string,
    req "monitors" (.list .string), opt "pool" .string, opt "readOnly" .bool,
    opt "secretRef" localObjectReference, opt "user" .string]),
  opt "scaleIO" (.object [
    opt "fsType" .string, req "gateway" .string, opt "protectionDomain" .string,
    opt "readOnly" .bool, req "secretRef" localObjectReference, opt "sslEnabled" .bool,
    opt "storageMode" .string, opt "storagePool" .string, req "system" .string,
    opt "volumeName" .string]),
  opt "secret" (.object [
    opt "defaultMode" .int32, opt "items" keyToPaths, opt "optional" .bool,
    opt "secretName" .string]),
  opt "storageos" (.object [
    opt "fsType" .string, opt "readOnly" .bool, opt "secretRef" localObjectReference,
    opt "volumeName" .string, opt "volumeNamespace" .string]),
  opt "vsphereVolume" (.object [
    opt "fsType" .string, opt "storagePolicyID" .string, opt "storagePolicyName" .string,
    req "volumePath" .string])]

/-! ## Pods -/

def podSecurityContext : Schema := .object [
  opt "appArmorProfile" securityProfile,
  opt "fsGroup" .int64,
  opt "fsGroupChangePolicy" .string,
  opt "runAsGroup" .int64,
  opt "runAsNonRoot" .bool,
  opt "runAsUser" .int64,
  opt "seLinuxChangePolicy" .string,
  opt "seLinuxOptions" seLinuxOptions,
  opt "seccompProfile" securityProfile,
  opt "supplementalGroups" (.list .int64),
  opt "supplementalGroupsPolicy" .string,
  opt "sysctls" (.list (.object [req "name" .string, req "value" .string])),
  opt "windowsOptions" windowsOptions]

/-- The other fields of a pod's spec. -/
def podFields : List (String × Bool × Schema) := [
  opt "activeDeadlineSeconds" .int64,
  opt "automountServiceAccountToken" .bool,
  opt "dnsConfig" (.object [
    opt "nameservers" (.list .string),
    opt "options" (.list (.object [opt "name" .string, opt "value" .string])),
    opt "searches" (.list .string)]),
  opt "dnsPolicy" .string,
  opt "enableServiceLinks" .bool,
  opt "ephemeralContainers" (.list ephemeralContainer),
  opt "hostAliases" (.list (.object [opt "hostnames" (.list .string), req "ip" .string])),
  opt "hostIPC" .bool,
  opt "hostNetwork" .bool,
  opt "hostPID" .bool,
  opt "hostUsers" .bool,
  opt "hostname" .string,
  opt "imagePullSecrets" (.list localObjectReference),
  opt "nodeName" .string,
  opt "nodeSelector" (.dict .string),
  opt "os" (.object [req "name" .string]),
  opt "overhead" (.dict .string),
  opt "preemptionPolicy" .string,
  opt "priority" .int32,
  opt "priorityClassName" .string,
  opt "readinessGates" (.list (.object [req "conditionType" .string])),
  opt "resourceClaims" (.list (.object [
    req "name" .string,
    opt "resourceClaimName" .string,
    opt "resourceClaimTemplateName" .string])),
  opt "resources" resources,
  opt "runtimeClassName" .string,
  opt "schedulerName" .string,
  opt "schedulingGates" (.list (.object [req "name" .string])),
  opt "securityContext" podSecurityContext,
  opt "serviceAccount" .string,
  opt "setHostnameAsFQDN" .bool,
  opt "shareProcessNamespace" .bool,
  opt "subdomain" .string,
  opt "terminationGracePeriodSeconds" .int64,
  opt "topologySpreadConstraints" (.list (.object [
    opt "labelSelector" labelSelector,
    opt "matchLabelKeys" (.list .string),
    req "maxSkew" .int32,
    opt "minDomains" .int32,
    opt "nodeAffinityPolicy" .string,
    opt "nodeTaintsPolicy" .string,
    req "topologyKey" .string,
    req "whenUnsatisfiable" .string]))]

end PushOperator.PodSchema
