import PushOperator.Kubernetes.Metadata

/-!
# Monitoring

The resources of the monitoring operators: what to scrape, when to alert, and a dashboard.
-/

namespace PushOperator

structure MetricsEndpoint where
  port : String
  path : String
  deriving DecidableEq, Inhabited

instance : Wire MetricsEndpoint where
  toJson x := Json.ofFields <|
    Fields.always "port" x.port ++ Fields.always "path" x.path
  ofJson? j := do
    let f ← j.record? ["port", "path"]
    return {
      port := ← Fields.required f "port"
      path := ← Fields.required f "path" }

structure ServiceMonitorSpec where
  selector : LabelSelector
  endpoints : List MetricsEndpoint
  deriving DecidableEq, Inhabited

instance : Wire ServiceMonitorSpec where
  toJson x := Json.ofFields <|
    Fields.always "selector" x.selector ++ Fields.always "endpoints" x.endpoints
  ofJson? j := do
    let f ← j.record? ["selector", "endpoints"]
    return {
      selector := ← Fields.required f "selector"
      endpoints := ← Fields.required f "endpoints" }

/-- A condition that raises an alert when it has held for some time. -/
structure AlertRule where
  alert : String
  expr : String
  duration : String
  labels : Dict String := ∅
  annotations : Dict String := ∅
  deriving DecidableEq, Inhabited

instance : Wire AlertRule where
  toJson x := Json.ofFields <|
    Fields.always "alert" x.alert ++ Fields.always "expr" x.expr ++
    Fields.always "for" x.duration ++ Fields.always "labels" x.labels ++
    Fields.always "annotations" x.annotations
  ofJson? j := do
    let f ← j.record? ["alert", "expr", "for", "labels", "annotations"]
    return {
      alert := ← Fields.required f "alert"
      expr := ← Fields.required f "expr"
      duration := ← Fields.required f "for"
      labels := ← Fields.defaulted f "labels" ∅
      annotations := ← Fields.defaulted f "annotations" ∅ }

structure RuleGroup where
  name : String
  rules : List AlertRule
  deriving DecidableEq, Inhabited

instance : Wire RuleGroup where
  toJson x := Json.ofFields <|
    Fields.always "name" x.name ++ Fields.always "rules" x.rules
  ofJson? j := do
    let f ← j.record? ["name", "rules"]
    return {
      name := ← Fields.required f "name"
      rules := ← Fields.required f "rules" }

structure PrometheusRuleSpec where
  groups : List RuleGroup
  deriving DecidableEq, Inhabited

instance : Wire PrometheusRuleSpec where
  toJson x := Json.ofFields <|
    Fields.always "groups" x.groups
  ofJson? j := do
    let f ← j.record? ["groups"]
    return {
      groups := ← Fields.required f "groups" }

/-- A dashboard, as JSON text. -/
structure GrafanaDashboardSpec where
  name : String
  json : String
  deriving DecidableEq, Inhabited

instance : Wire GrafanaDashboardSpec where
  toJson x := Json.ofFields <|
    Fields.always "name" x.name ++ Fields.always "json" x.json
  ofJson? j := do
    let f ← j.record? ["name", "json"]
    return {
      name := ← Fields.required f "name"
      json := ← Fields.required f "json" }

end PushOperator
