import PushOperator.Child.Frontend

/-!
# Monitoring a server

What the monitoring operators are told about a server: which service shows metrics, when to raise an
alert, and a dashboard.
-/

namespace PushOperator.Child.Monitoring

/-- The labels that the monitoring operators look for. -/
def monitoringLabels : Dict String := Dict.ofList [
  ("monitoring-key", "middleware"),
  ("prometheus", "application-monitoring")]

def serviceMonitor (server : Server) : Except Error ServiceMonitor := do
  let name := childName server unifiedpush
  return {
    metadata := ← namedMeta server name monitoringLabels
    spec := {
      selector := { matchLabels := some (Dict.ofList [("service", name)]) }
      endpoints := [{ port := "web", path := Frontend.metricsPath }] }
    status := () }

/-- An alert for when a service shows no metrics. -/
def downAlert (alert service message : String) : AlertRule where
  alert := alert
  expr := "absent(up\x7bservice=\"" ++ service ++ "\"\x7d == 1)"
  duration := "5m"
  labels := Dict.ofList [("severity", "critical")]
  annotations := Dict.ofList [("message", message)]

def alerts (server : Server) : List AlertRule :=
  let ns := server.metadata.ns.getD ""
  let database := childName server postgresql
  [downAlert "UnifiedPushDown" (childName server unifiedpush)
      ("UnifiedPush Server " ++ server.anyName ++ " in namespace " ++ ns ++ " is down"),
    downAlert "UnifiedPushDatabaseDown" database
      ("UnifiedPush database " ++ database ++ " in namespace " ++ ns ++ " is down")]

def prometheusRule (server : Server) : Except Error PrometheusRule := do
  let labels := monitoringLabels.insert "role" "alert-rules"
  return {
    metadata := ← namedMeta server (childName server unifiedpush) labels
    spec := { groups := [{ name := "general.rules", rules := alerts server }] }
    status := () }

def dashboardJson (server : Server) : String :=
  Json.compact <| Json.ofFields [
    ("title", .string ("UnifiedPush Server " ++ server.anyName)),
    ("tags", .array [.string "unifiedpush"]),
    ("schemaVersion", .int 16),
    ("panels", .array [])]

def grafanaDashboard (server : Server) : Except Error GrafanaDashboard := do
  let name := childName server unifiedpush
  return {
    metadata := ← namedMeta server name monitoringLabels
    spec := { name := name ++ ".json", json := dashboardJson server }
    status := () }

end PushOperator.Child.Monitoring
