import Mathlib.Tactic.Common
import PushOperator.Child.Backup
import PushOperator.Child.Monitoring

/-!
# Where children are built

A child is built into the namespace of its server, under a name that is known beforehand.
-/

namespace PushOperator

theorem bind_eq_ok {α β : Type} {x : Except Error α} {f : α → Except Error β} {b : β} :
    (x >>= f) = .ok b ↔ ∃ a, x = .ok a ∧ f a = .ok b := by
  cases x with
  | error e =>
    constructor
    · intro h
      cases h
    · rintro ⟨a, h, -⟩
      cases h
  | ok a =>
    constructor
    · exact fun h => ⟨a, rfl, h⟩
    · rintro ⟨a', h, h'⟩
      exact Except.ok.inj h ▸ h'

theorem pure_eq_ok {α : Type} {a b : α} : (pure a : Except Error α) = .ok b ↔ a = b :=
  Except.ok.injEq a b ▸ Iff.rfl

theorem ObjectMeta.requireName_eq_ok {m : ObjectMeta} {name : String} :
    m.requireName = .ok name ↔ m.name = some name := by
  unfold requireName
  cases m.name <;> simp

theorem ObjectMeta.requireNs_eq_ok {m : ObjectMeta} {ns : String} :
    m.requireNs = .ok ns ↔ m.ns = some ns := by
  unfold requireNs
  cases m.ns <;> simp

namespace Child

variable {k : Kind}

theorem namedMeta_eq_ok {server : Server} {name : String} {labels : Dict String} {m : ObjectMeta} :
    namedMeta server name labels = .ok m ↔
      ∃ ns, server.metadata.ns = some ns ∧
        m = { name := some name, ns := some ns, labels := some labels } := by
  unfold namedMeta
  simp only [bind_eq_ok, pure_eq_ok, ObjectMeta.requireNs_eq_ok, eq_comm (a := m)]

/-- A builder that needs nothing but the namespace of the server comes to an object. -/
theorem exists_of_namedMeta {server : Server} {ns name : String} {labels : Dict String}
    {f : ObjectMeta → Object k} (hns : server.metadata.ns = some ns) :
    ∃ o, (namedMeta server name labels >>= fun m => pure (f m)) = .ok o :=
  ⟨f _, bind_eq_ok.2 ⟨_, namedMeta_eq_ok.2 ⟨ns, hns, rfl⟩, rfl⟩⟩

theorem childName_inj {server : Server} {a b : String} :
    childName server a = childName server b ↔ a = b := by
  simp [childName]

/-- A child is not called like its server. -/
theorem childName_ne_anyName (server : Server) (suffix : String) :
    childName server suffix ≠ server.anyName := by
  intro h
  have hlength := congrArg (fun text => text.toList.length) h
  simp [childName] at hlength

/-- All objects of a builder stand in the namespace of the server, under the given name. -/
def Places (name : Server → String) (build : Server → Except Error (Object k)) : Prop :=
  ∀ server object, build server = .ok object →
    object.metadata.ns = server.metadata.ns ∧ object.metadata.name = some (name server)

/-- A builder that starts from new metadata and keeps their namespace and name. -/
theorem places_bind {name : Server → String} {labels : Server → Dict String}
    {f : Server → ObjectMeta → Except Error (Object k)}
    (hf : ∀ server m object, f server m = .ok object →
      object.metadata.ns = m.ns ∧ object.metadata.name = m.name) :
    Places name fun server => namedMeta server (name server) (labels server) >>= f server := by
  intro server object h
  obtain ⟨m, hm, h⟩ := bind_eq_ok.1 h
  obtain ⟨ns, hns, rfl⟩ := namedMeta_eq_ok.1 hm
  obtain ⟨hobject, hname⟩ := hf server _ object h
  exact ⟨hobject.trans hns.symm, hname⟩

/-- A builder that then has nothing more to do that could fail. -/
theorem places_pure {name : Server → String} {labels : Server → Dict String}
    {f : Server → ObjectMeta → Object k}
    (hf : ∀ server m, (f server m).metadata.ns = m.ns ∧ (f server m).metadata.name = m.name) :
    Places name fun server =>
      namedMeta server (name server) (labels server) >>= fun m => pure (f server m) := by
  refine places_bind fun server m object h => ?_
  obtain rfl := pure_eq_ok.1 h
  exact hf server m

/-! ## The broker -/

theorem places_addressSpace : Places (fun _ => Broker.spaceName) Broker.addressSpace :=
  places_pure fun _ _ => ⟨rfl, rfl⟩

theorem places_messagingUser (password : String) :
    Places (fun _ => Broker.userName) (Broker.messagingUser · password) :=
  places_pure fun _ _ => ⟨rfl, rfl⟩

theorem places_brokerSecret (password url : String) :
    Places Broker.secretName (Broker.secret · password url) :=
  places_pure fun _ _ => ⟨rfl, rfl⟩

theorem places_newAddress (address type plan : String) :
    Places (fun _ => Broker.addressName address) (Broker.newAddress · address type plan) :=
  places_pure fun _ _ => ⟨rfl, rfl⟩

/-- Every address of the catalogue is built under its own name. -/
theorem places_catalogue {address : String} {build : Server → Except Error Address}
    (h : (address, build) ∈ Broker.catalogue) :
    Places (fun _ => Broker.addressName address) build := by
  simp only [Broker.catalogue, List.mem_append, List.mem_map, Prod.mk.injEq] at h
  obtain ⟨_, _, rfl, rfl⟩ | ⟨_, _, rfl, rfl⟩ := h
  · exact places_newAddress _ _ _
  · exact places_newAddress _ _ _

/-! ## The database -/

theorem places_claim (settings : Settings) :
    Places (childName · postgresql) (Database.claim · settings) := by
  refine places_bind fun server m object h => ?_
  obtain ⟨size, -, h⟩ := bind_eq_ok.1 h
  obtain rfl := pure_eq_ok.1 h
  exact ⟨rfl, rfl⟩

theorem places_databaseSecret (password : String) :
    Places (childName · postgresql) (Database.secret · password) := by
  intro server object h
  obtain ⟨ns, hns, h⟩ := bind_eq_ok.1 h
  have hrest : ∃ entries m, objectMeta server postgresql = .ok m ∧ object =
      { metadata := m, spec := { stringData := some (Dict.ofList entries) }, status := () } := by
    split at h
    · obtain ⟨entries, -, h⟩ := bind_eq_ok.1 h
      obtain ⟨m, hm, h⟩ := bind_eq_ok.1 h
      exact ⟨entries, m, hm, (pure_eq_ok.1 h).symm⟩
    · obtain ⟨entries, -, h⟩ := bind_eq_ok.1 h
      obtain ⟨m, hm, h⟩ := bind_eq_ok.1 h
      exact ⟨entries, m, hm, (pure_eq_ok.1 h).symm⟩
  obtain ⟨entries, m, hm, rfl⟩ := hrest
  obtain ⟨ns', hns', rfl⟩ := namedMeta_eq_ok.1 hm
  exact ⟨hns'.symm, rfl⟩

theorem places_databaseDeployment (settings : Settings) :
    Places (childName · postgresql) (Database.deployment · settings) := by
  intro server object h
  obtain ⟨resources, -, h⟩ := bind_eq_ok.1 h
  obtain ⟨m, hm, h⟩ := bind_eq_ok.1 h
  obtain rfl := pure_eq_ok.1 h
  obtain ⟨ns, hns, rfl⟩ := namedMeta_eq_ok.1 hm
  exact ⟨hns.symm, rfl⟩

theorem places_databaseService : Places (childName · postgresql) Database.service :=
  places_pure fun _ _ => ⟨rfl, rfl⟩

/-! ## The server and its proxy -/

theorem places_serviceAccount : Places Object.anyName Frontend.serviceAccount :=
  places_pure fun _ _ => ⟨rfl, rfl⟩

theorem places_proxyService : Places (childName · proxy) Frontend.proxyService :=
  places_pure fun _ _ => ⟨rfl, rfl⟩

theorem places_serverService : Places (childName · unifiedpush) Frontend.serverService :=
  places_pure fun _ _ => ⟨rfl, rfl⟩

theorem places_proxyRoute : Places (childName · proxy) Frontend.proxyRoute :=
  places_pure fun _ _ => ⟨rfl, rfl⟩

theorem places_serverDeployment (settings : Settings) (cookieSecret : String) :
    Places Object.anyName (Frontend.deployment · settings cookieSecret) := by
  intro server object h
  obtain ⟨upsResources, -, h⟩ := bind_eq_ok.1 h
  obtain ⟨proxyResources, -, h⟩ := bind_eq_ok.1 h
  obtain ⟨m, hm, h⟩ := bind_eq_ok.1 h
  obtain rfl := pure_eq_ok.1 h
  obtain ⟨ns, hns, rfl⟩ := namedMeta_eq_ok.1 hm
  exact ⟨hns.symm, rfl⟩

/-! ## Backups and monitoring -/

theorem places_cronJob (settings : Settings) (backup : Backup) :
    Places (fun _ => backup.name) (Backup.cronJob · settings backup) := by
  intro server object h
  obtain ⟨ns, -, h⟩ := bind_eq_ok.1 h
  obtain ⟨m, hm, h⟩ := bind_eq_ok.1 h
  obtain rfl := pure_eq_ok.1 h
  obtain ⟨ns', hns, rfl⟩ := namedMeta_eq_ok.1 hm
  exact ⟨hns.symm, rfl⟩

theorem places_serviceMonitor : Places (childName · unifiedpush) Monitoring.serviceMonitor :=
  places_pure fun _ _ => ⟨rfl, rfl⟩

theorem places_prometheusRule : Places (childName · unifiedpush) Monitoring.prometheusRule :=
  places_pure fun _ _ => ⟨rfl, rfl⟩

theorem places_grafanaDashboard : Places (childName · unifiedpush) Monitoring.grafanaDashboard :=
  places_pure fun _ _ => ⟨rfl, rfl⟩

end Child

end PushOperator
