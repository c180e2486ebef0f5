import PushOperator.Proofs.PublishedRegistry

/-!
# What is built for a server

A pass calls one builder for each child that the spec of its server asks for. A builder also goes by
the settings, and some of them go by what the pass draws or is told by the broker (`Plan`). What is
built when all of them succeed is what the spec calls for (`calledFor_of_built`, `exists_built`).
-/

namespace PushOperator.Child

/-- What the children of a server are built from. -/
structure Plan where
  server : Server
  settings : Settings
  serves : String → Bool
  databasePassword : String
  brokerPassword : String
  brokerHost : String
  cookieSecret : String

variable {p : Plan} {k : Kind} {name : String} {o : Object k} {e : Except Error (Object k)}

/-- The builders that a pass calls, one rule a child. -/
inductive Plan.Calls (p : Plan) : (k : Kind) → Except Error (Object k) → Prop
  | addressSpace (hon : p.server.spec.useMessageBroker = true) :
    Calls p .addressSpace (Broker.addressSpace p.server)
  | messagingUser (hon : p.server.spec.useMessageBroker = true) :
    Calls p .messagingUser (Broker.messagingUser p.server p.brokerPassword)
  | brokerSecret (hon : p.server.spec.useMessageBroker = true) :
    Calls p .secret (Broker.secret p.server p.brokerPassword p.brokerHost)
  | address {address : String} {build : Server → Except Error Address}
    (hon : p.server.spec.useMessageBroker = true) (hentry : (address, build) ∈ Broker.catalogue) :
    Calls p .address (build p.server)
  | claim (hown : p.server.spec.externalDB = false) :
    Calls p .persistentVolumeClaim (Database.claim p.server p.settings)
  | databaseSecret
    (hneeded : (p.server.spec.externalDB && Database.namesSecret p.server) = false) :
    Calls p .secret (Database.secret p.server p.databasePassword)
  | databaseDeployment (hown : p.server.spec.externalDB = false) :
    Calls p .deployment (Database.deployment p.server p.settings)
  | databaseService (hown : p.server.spec.externalDB = false) :
    Calls p .service (Database.service p.server)
  | serviceAccount : Calls p .serviceAccount (Frontend.serviceAccount p.server)
  | proxyService : Calls p .service (Frontend.proxyService p.server)
  | serverService : Calls p .service (Frontend.serverService p.server)
  | route : Calls p .route (Frontend.proxyRoute p.server)
  | serverDeployment :
    Calls p .deployment (Frontend.deployment p.server p.settings p.cookieSecret)
  | cronJob {backup : Backup} (hbackup : backup ∈ p.server.spec.backups) :
    Calls p .cronJob (Backup.cronJob p.server p.settings backup)
  | serviceMonitor (hserved : p.serves Kind.serviceMonitor.apiVersion = true) :
    Calls p .serviceMonitor (Monitoring.serviceMonitor p.server)
  | prometheusRule (hserved : p.serves Kind.prometheusRule.apiVersion = true) :
    Calls p .prometheusRule (Monitoring.prometheusRule p.server)
  | grafanaDashboard (hserved : p.serves Kind.grafanaDashboard.apiVersion = true) :
    Calls p .grafanaDashboard (Monitoring.grafanaDashboard p.server)

/-- All builders that are called succeed. -/
def Plan.Succeeds (p : Plan) : Prop :=
  ∀ k (e : Except Error (Object k)), p.Calls k e → ∃ o, e = .ok o

/-- A builder that is called comes to an object. -/
def Plan.Builds (p : Plan) (k : Kind) (o : Object k) : Prop :=
  ∃ e, p.Calls k e ∧ e = .ok o

/-- A builder places its objects where the spec calls for them. -/
theorem Plan.Calls.places (h : p.Calls k e) : ∃ name, CalledFor p.server p.serves k name ∧
    ∀ o, e = .ok o → o.metadata.ns = p.server.metadata.ns ∧ o.metadata.name = some name := by
  cases h with
  | addressSpace hon => exact ⟨_, .addressSpace hon, places_addressSpace p.server⟩
  | messagingUser hon => exact ⟨_, .messagingUser hon, places_messagingUser _ p.server⟩
  | brokerSecret hon => exact ⟨_, .brokerSecret hon, places_brokerSecret _ _ p.server⟩
  | address hon hentry =>
    have haddress := List.mem_map_of_mem (f := Prod.fst) hentry
    rw [addresses_catalogue] at haddress
    exact ⟨_, .address hon haddress, places_catalogue hentry p.server⟩
  | claim hown => exact ⟨_, .claim hown, places_claim _ p.server⟩
  | databaseSecret hneeded =>
    exact ⟨_, .databaseSecret (needsSecret_iff.1 hneeded), places_databaseSecret _ p.server⟩
  | databaseDeployment hown =>
    exact ⟨_, .databaseDeployment hown, places_databaseDeployment _ p.server⟩
  | databaseService hown => exact ⟨_, .databaseService hown, places_databaseService p.server⟩
  | serviceAccount => exact ⟨_, .serviceAccount, places_serviceAccount p.server⟩
  | proxyService => exact ⟨_, .proxyService, places_proxyService p.server⟩
  | serverService => exact ⟨_, .serverService, places_serverService p.server⟩
  | route => exact ⟨_, .route, places_proxyRoute p.server⟩
  | serverDeployment => exact ⟨_, .serverDeployment, places_serverDeployment _ _ p.server⟩
  | cronJob hbackup => exact ⟨_, .cronJob hbackup, places_cronJob _ _ p.server⟩
  | serviceMonitor hserved => exact ⟨_, .serviceMonitor hserved, places_serviceMonitor p.server⟩
  | prometheusRule hserved => exact ⟨_, .prometheusRule hserved, places_prometheusRule p.server⟩
  | grafanaDashboard hserved =>
    exact ⟨_, .grafanaDashboard hserved, places_grafanaDashboard p.server⟩

/-- What is built stands in the namespace of the server, under a name that the spec calls for. -/
theorem calledFor_of_built (h : p.Builds k o) : o.metadata.ns = p.server.metadata.ns ∧
    ∃ name, o.metadata.name = some name ∧ CalledFor p.server p.serves k name := by
  obtain ⟨e, hcalls, he⟩ := h
  obtain ⟨name, hcalled, hplaces⟩ := hcalls.places
  obtain ⟨hns, hname⟩ := hplaces o he
  exact ⟨hns, name, hname, hcalled⟩

/-- There is a builder for each child that the spec calls for. -/
theorem exists_calls (h : CalledFor p.server p.serves k name) :
    ∃ e, p.Calls k e ∧ ∀ o, e = .ok o → o.metadata.name = some name := by
  cases h with
  | addressSpace hon => exact ⟨_, .addressSpace hon, fun o h => (places_addressSpace _ o h).2⟩
  | messagingUser hon =>
    exact ⟨_, .messagingUser hon, fun o h => (places_messagingUser _ _ o h).2⟩
  | brokerSecret hon => exact ⟨_, .brokerSecret hon, fun o h => (places_brokerSecret _ _ _ o h).2⟩
  | address hon haddress =>
    rw [← addresses_catalogue] at haddress
    obtain ⟨⟨address, build⟩, hentry, rfl⟩ := List.mem_map.1 haddress
    exact ⟨_, .address hon hentry, fun o h => (places_catalogue hentry _ o h).2⟩
  | claim hown => exact ⟨_, .claim hown, fun o h => (places_claim _ _ o h).2⟩
  | databaseSecret hneeded =>
    exact ⟨_, .databaseSecret (needsSecret_iff.2 hneeded),
      fun o h => (places_databaseSecret _ _ o h).2⟩
  | databaseDeployment hown =>
    exact ⟨_, .databaseDeployment hown, fun o h => (places_databaseDeployment _ _ o h).2⟩
  | databaseService hown =>
    exact ⟨_, .databaseService hown, fun o h => (places_databaseService _ o h).2⟩
  | serviceAccount => exact ⟨_, .serviceAccount, fun o h => (places_serviceAccount _ o h).2⟩
  | proxyService => exact ⟨_, .proxyService, fun o h => (places_proxyService _ o h).2⟩
  | serverService => exact ⟨_, .serverService, fun o h => (places_serverService _ o h).2⟩
  | route => exact ⟨_, .route, fun o h => (places_proxyRoute _ o h).2⟩
  | serverDeployment =>
    exact ⟨_, .serverDeployment, fun o h => (places_serverDeployment _ _ _ o h).2⟩
  | cronJob hbackup => exact ⟨_, .cronJob hbackup, fun o h => (places_cronJob _ _ _ o h).2⟩
  | serviceMonitor hserved =>
    exact ⟨_, .serviceMonitor hserved, fun o h => (places_serviceMonitor _ o h).2⟩
  | prometheusRule hserved =>
    exact ⟨_, .prometheusRule hserved, fun o h => (places_prometheusRule _ o h).2⟩
  | grafanaDashboard hserved =>
    exact ⟨_, .grafanaDashboard hserved, fun o h => (places_grafanaDashboard _ o h).2⟩

/-- When all builders succeed, all that the spec calls for is built. -/
theorem exists_built (hp : p.Succeeds) (h : CalledFor p.server p.serves k name) :
    ∃ o : Object k, p.Builds k o ∧ o.metadata.name = some name := by
  obtain ⟨e, hcalls, hname⟩ := exists_calls h
  obtain ⟨o, he⟩ := hp k e hcalls
  exact ⟨o, ⟨e, hcalls, he⟩, hname o he⟩

end PushOperator.Child
