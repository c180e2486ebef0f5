import PushOperator.Child.Backup
import PushOperator.Child.Frontend
import PushOperator.Child.Monitoring

/-!
# Wanted children

The children that the spec of a server calls for, by kind and name and in the order in which a pass
sees to them. Which of the monitoring children are among them depends on the API versions that the
cluster serves.
-/

namespace PushOperator.Child

def Broker.wanted (server : Server) : List (Kind × String) :=
  if server.spec.useMessageBroker then
    [(.addressSpace, spaceName), (.messagingUser, userName), (.secret, secretName server)] ++
      catalogue.map fun entry => (.address, addressName entry.1)
  else []

/-- A server that brings its own database may still need a secret made for it. -/
def Database.wanted (server : Server) : List (Kind × String) :=
  let name := childName server postgresql
  let secret := (Kind.secret, secretName server)
  if server.spec.externalDB then if namesSecret server then [] else [secret]
  else [(.persistentVolumeClaim, name), secret, (.deployment, name), (.service, name)]

def Frontend.wanted (server : Server) : List (Kind × String) := [
  (.serviceAccount, server.anyName),
  (.service, childName server proxy),
  (.service, childName server unifiedpush),
  (.route, childName server proxy),
  (.deployment, server.anyName)]

def Backup.wanted (server : Server) : List (Kind × String) :=
  server.spec.backups.map fun backup => (.cronJob, backup.name)

def Monitoring.wanted (server : Server) (serves : String → Bool) : List (Kind × String) :=
  let name := childName server unifiedpush
  (if serves Kind.serviceMonitor.apiVersion then [(.serviceMonitor, name), (.prometheusRule, name)]
    else []) ++
  if serves Kind.grafanaDashboard.apiVersion then [(.grafanaDashboard, name)] else []

/-- All children of a server. -/
def wanted (server : Server) (serves : String → Bool) : List (Kind × String) :=
  Broker.wanted server ++ Database.wanted server ++ Frontend.wanted server ++
    Backup.wanted server ++ Monitoring.wanted server serves

end PushOperator.Child
