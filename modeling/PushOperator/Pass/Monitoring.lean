import PushOperator.Child.Monitoring
import PushOperator.Pass.Basic

/-!
# The monitoring step

Metrics, alerts and the dashboard, on clusters where the monitoring operators run.
-/

namespace PushOperator.Pass

open Child

/-- Makes sure that an object is there with the wanted spec, and records it. -/
def reconcileSpec {k : Kind} (build : Server → Except Error (Object k)) : Pass Unit := do
  let server ← server
  let desired ← (build server : Task (Object k))
  track (← Task.createOrUpdate server desired)

def reconcileMonitoring : Pass Unit := do
  if ← Task.call (.probe Kind.serviceMonitor.apiVersion) then
    reconcileSpec Monitoring.serviceMonitor
    reconcileSpec Monitoring.prometheusRule
  if ← Task.call (.probe Kind.grafanaDashboard.apiVersion) then
    reconcileSpec Monitoring.grafanaDashboard

end PushOperator.Pass
