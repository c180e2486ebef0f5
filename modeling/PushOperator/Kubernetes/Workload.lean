import PushOperator.Kubernetes.Pod

/-!
# Workloads

Deployments, jobs and scheduled jobs.
-/

namespace PushOperator

/-! ## Deployments -/

/-- How old pods of a deployment give way to new ones. -/
structure DeploymentStrategy where
  type : Option String := none
  other : Fields := []
  deriving DecidableEq, Inhabited

instance : Wire DeploymentStrategy where
  toJson x := Json.ofFields <|
    Fields.whenSome "type" x.type ++ x.other
  ofJson? j := do
    let f ← j.fields?
    return {
      type := ← Fields.optional f "type"
      other := ← Schema.conformFields [
        Schema.opt "rollingUpdate" (.object [
          Schema.opt "maxSurge" .intOrString, Schema.opt "maxUnavailable" .intOrString])] f }

structure DeploymentSpec where
  replicas : Option Int32 := none
  selector : LabelSelector := {}
  strategy : Option DeploymentStrategy := none
  template : PodTemplate := {}
  other : Fields := []
  deriving DecidableEq, Inhabited

instance : Wire DeploymentSpec where
  toJson x := Json.ofFields <|
    Fields.whenSome "replicas" x.replicas ++ Fields.always "selector" x.selector ++
    Fields.whenSome "strategy" x.strategy ++ Fields.always "template" x.template ++ x.other
  ofJson? j := do
    let f ← j.fields?
    return {
      replicas := ← Fields.optional f "replicas"
      selector := ← Fields.lenient f "selector" {}
      strategy := ← Fields.optional f "strategy"
      template := ← Fields.lenient f "template" {}
      other := ← Schema.conformFields [
        Schema.opt "minReadySeconds" .int32,
        Schema.opt "paused" .bool,
        Schema.opt "progressDeadlineSeconds" .int32,
        Schema.opt "revisionHistoryLimit" .int32] f }

structure DeploymentCondition where
  type : String
  status : String
  reason : Option String := none
  other : Fields := []
  deriving DecidableEq, Inhabited

instance : Wire DeploymentCondition where
  toJson x := Json.ofFields <|
    Fields.always "type" x.type ++ Fields.always "status" x.status ++
    Fields.whenSome "reason" x.reason ++ x.other
  ofJson? j := do
    let f ← j.fields?
    return {
      type := ← Fields.lenient f "type" ""
      status := ← Fields.lenient f "status" ""
      reason := ← Fields.optional f "reason"
      other := ← Schema.conformFields [
        Schema.opt "lastTransitionTime" .time,
        Schema.opt "lastUpdateTime" .time,
        Schema.opt "message" .string] f }

structure DeploymentStatus where
  conditions : Option (List DeploymentCondition) := none
  other : Fields := []
  deriving DecidableEq, Inhabited

instance : Wire DeploymentStatus where
  toJson x := Json.ofFields <|
    Fields.whenSome "conditions" x.conditions ++ x.other
  ofJson? j := do
    let f ← j.fields?
    return {
      conditions := ← Fields.optional f "conditions"
      other := ← Schema.conformFields [
        Schema.opt "availableReplicas" .int32,
        Schema.opt "collisionCount" .int32,
        Schema.opt "observedGeneration" .int64,
        Schema.opt "readyReplicas" .int32,
        Schema.opt "replicas" .int32,
        Schema.opt "terminatingReplicas" .int32,
        Schema.opt "unavailableReplicas" .int32,
        Schema.opt "updatedReplicas" .int32] f }

/-! ## Jobs -/

structure JobSpec where
  template : PodTemplate := {}
  other : Fields := []
  deriving DecidableEq, Inhabited

instance : Wire JobSpec where
  toJson x := Json.ofFields <|
    Fields.always "template" x.template ++ x.other
  ofJson? j := do
    let f ← j.fields?
    return {
      template := ← Fields.lenient f "template" {}
      other := ← Schema.conformFields [
        Schema.opt "activeDeadlineSeconds" .int64,
        Schema.opt "backoffLimit" .int32,
        Schema.opt "backoffLimitPerIndex" .int32,
        Schema.opt "completionMode" .string,
        Schema.opt "completions" .int32,
        Schema.opt "managedBy" .string,
        Schema.opt "manualSelector" .bool,
        Schema.opt "maxFailedIndexes" .int32,
        Schema.opt "parallelism" .int32,
        Schema.opt "podFailurePolicy" (.object [
          Schema.req "rules" (.list (.object [
            Schema.req "action" .string,
            Schema.opt "onExitCodes" (.object [
              Schema.opt "containerName" .string,
              Schema.req "operator" .string,
              Schema.req "values" (.list .int32)]),
            Schema.opt "onPodConditions" (.list (.object [
              Schema.req "status" .string, Schema.req "type" .string]))]))]),
        Schema.opt "podReplacementPolicy" .string,
        Schema.opt "selector" PodSchema.labelSelector,
        Schema.opt "successPolicy" (.object [
          Schema.req "rules" (.list (.object [
            Schema.opt "succeededCount" .int32, Schema.opt "succeededIndexes" .string]))]),
        Schema.opt "suspend" .bool,
        Schema.opt "ttlSecondsAfterFinished" .int32] f }

/-- What is observed of a job; `succeeded` counts the pods that did. -/
structure JobStatus where
  succeeded : Option Int32 := none
  other : Fields := []
  deriving DecidableEq, Inhabited

instance : Wire JobStatus where
  toJson x := Json.ofFields <|
    Fields.whenSome "succeeded" x.succeeded ++ x.other
  ofJson? j := do
    let f ← j.fields?
    return {
      succeeded := ← Fields.optional f "succeeded"
      other := ← Schema.conformFields [
        Schema.opt "active" .int32,
        Schema.opt "completedIndexes" .string,
        Schema.opt "completionTime" .time,
        Schema.opt "conditions" (.list (.object [
          Schema.opt "lastProbeTime" .time,
          Schema.opt "lastTransitionTime" .time,
          Schema.opt "message" .string,
          Schema.opt "reason" .string,
          Schema.req "status" .string,
          Schema.req "type" .string])),
        Schema.opt "failed" .int32,
        Schema.opt "failedIndexes" .string,
        Schema.opt "ready" .int32,
        Schema.opt "startTime" .time,
        Schema.opt "terminating" .int32,
        Schema.opt "uncountedTerminatedPods" (.object [
          Schema.opt "failed" (.list .string), Schema.opt "succeeded" (.list .string)])] f }

structure JobTemplate where
  metadata : Option ObjectMeta := none
  spec : Option JobSpec := none
  deriving DecidableEq, Inhabited

instance : Wire JobTemplate where
  toJson x := Json.ofFields <|
    Fields.whenSome "metadata" x.metadata ++ Fields.whenSome "spec" x.spec
  ofJson? j := do
    let f ← j.fields?
    return {
      metadata := ← Fields.optional f "metadata"
      spec := ← Fields.optional f "spec" }

structure CronJobSpec where
  schedule : String
  concurrencyPolicy : Option String := none
  jobTemplate : JobTemplate
  other : Fields := []
  deriving DecidableEq, Inhabited

instance : Wire CronJobSpec where
  toJson x := Json.ofFields <|
    Fields.always "schedule" x.schedule ++
    Fields.whenSome "concurrencyPolicy" x.concurrencyPolicy ++
    Fields.always "jobTemplate" x.jobTemplate ++ x.other
  ofJson? j := do
    let f ← j.fields?
    return {
      schedule := ← Fields.lenient f "schedule" ""
      concurrencyPolicy := ← Fields.optional f "concurrencyPolicy"
      jobTemplate := ← Fields.lenient f "jobTemplate" {}
      other := ← Schema.conformFields [
        Schema.opt "failedJobsHistoryLimit" .int32,
        Schema.opt "startingDeadlineSeconds" .int64,
        Schema.opt "successfulJobsHistoryLimit" .int32,
        Schema.opt "suspend" .bool,
        Schema.opt "timeZone" .string] f }

def cronJobStatusFields : List (String × Bool × Schema) := [
  Schema.opt "active" (.list PodSchema.objectReference),
  Schema.opt "lastScheduleTime" .time,
  Schema.opt "lastSuccessfulTime" .time]

end PushOperator
