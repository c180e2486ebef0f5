import Mathlib.Tactic.Common
import PushOperator.Proofs.ResourceLayers

/-!
# Valid settings

Settings are valid when all quantities in them are. These are the quantities that a server gets
which asks for nothing itself, so the settings are valid exactly when such a server can be given
what it needs. With valid settings nothing but a server itself can keep its children from being
built (`validate_iff_builds`).
-/

namespace PushOperator

open Child ResourceRequirements

variable {server : Server} {settings : Settings}

/-! ## What servers ask for -/

namespace Server

/-- The resources that a server asks for, for each of its containers. -/
def overrides (server : Server) : List (Option ResourceRequirements) :=
  [server.spec.unifiedPushResourceRequirements, server.spec.oAuthResourceRequirements,
    server.spec.postgresResourceRequirements]

/-- A server that leaves its resources and its storage to the settings. -/
structure Undemanding (server : Server) : Prop where
  resources : ∀ overrides ∈ server.overrides, limitsOf overrides = ∅ ∧ requestsOf overrides = ∅
  storage : ∀ size, server.spec.postgresPVCSize = some size → size = ""

/-- A server that asks for quantities only. -/
structure Sound (server : Server) : Prop where
  resources : ∀ overrides ∈ server.overrides, ∀ texts ∈ [limitsOf overrides, requestsOf overrides],
    ∀ key text, texts.get? key = some text → Quantity.Parses text
  storage : ∀ size, server.spec.postgresPVCSize = some size → size ≠ "" → Quantity.Parses size

end Server

/-! ## What settings are checked for -/

theorem forIn_parse_eq_ok {quantities : List String} :
    (forIn quantities PUnit.unit fun quantity _ => do
      let _ ← Quantity.parse quantity
      pure (ForInStep.yield PUnit.unit) : Except Error PUnit) = .ok () ↔
      ∀ quantity ∈ quantities, Quantity.Parses quantity := by
  induction quantities with
  | nil => simp [pure, Except.pure]
  | cons quantity rest ih =>
    rw [List.forIn_cons, List.forall_mem_cons, ← ih]
    constructor
    · intro h
      obtain ⟨step, hstep, hrest⟩ := bind_eq_ok.1 h
      obtain ⟨read, hread, hstep⟩ := bind_eq_ok.1 hstep
      obtain rfl := pure_eq_ok.1 hstep
      exact ⟨⟨read, hread⟩, hrest⟩
    · rintro ⟨⟨read, hread⟩, hrest⟩
      exact bind_eq_ok.2 ⟨_, bind_eq_ok.2 ⟨read, hread, rfl⟩, hrest⟩

theorem validate_eq_ok : settings.validate = .ok () ↔
    (∀ defaults ∈ [settings.upsResources, settings.oauthResources, settings.postgresResources],
      ∀ quantity ∈ defaults.quantities, Quantity.Parses quantity) ∧
    Quantity.Parses settings.postgresPvcSize := by
  rw [← List.forall_mem_flatMap, ← forIn_parse_eq_ok]
  constructor
  · intro h
    obtain ⟨done, hdefaults, hrest⟩ := bind_eq_ok.1 h
    obtain ⟨size, hsize, -⟩ := bind_eq_ok.1 hrest
    exact ⟨hdefaults, size, hsize⟩
  · rintro ⟨hdefaults, size, hsize⟩
    exact bind_eq_ok.2 ⟨_, hdefaults, bind_eq_ok.2 ⟨size, hsize, rfl⟩⟩

/-! ## What a container gets -/

section

variable {given : Option ResourceRequirements} {defaults : ResourceDefaults}

/-- Without overrides all four defaults are read. -/
theorem exists_layered_iff (hlimits : limitsOf given = ∅) (hrequests : requestsOf given = ∅) :
    (∃ resources, layered given defaults = .ok resources) ↔
      ∀ quantity ∈ defaults.quantities, Quantity.Parses quantity := by
  have husable (memory cpu : String) :
      Usable ∅ memory cpu ↔ Quantity.Parses memory ∧ Quantity.Parses cpu := by
    constructor
    · exact fun h => ⟨h.memory rfl, h.cpu rfl⟩
    · exact fun h => ⟨nofun, fun _ => h.1, fun _ => h.2⟩
  simp only [layered_eq_ok, hlimits, hrequests, husable, ResourceDefaults.quantities,
    List.forall_mem_cons, List.not_mem_nil, IsEmpty.forall_iff, implies_true, and_true,
    exists_and_left, exists_eq]
  constructor
  · rintro ⟨⟨hmemory, hcpu⟩, hmemory', hcpu'⟩
    exact ⟨hmemory, hmemory', hcpu, hcpu'⟩
  · rintro ⟨hmemory, hmemory', hcpu, hcpu'⟩
    exact ⟨⟨hmemory, hcpu⟩, hmemory', hcpu'⟩

/-- With good defaults the overrides only have to be quantities. -/
theorem exists_layered (hdefaults : ∀ quantity ∈ defaults.quantities, Quantity.Parses quantity)
    (hgiven : ∀ texts ∈ [limitsOf given, requestsOf given], ∀ key text,
      texts.get? key = some text → Quantity.Parses text) :
    ∃ resources, layered given defaults = .ok resources := by
  simp only [ResourceDefaults.quantities, List.forall_mem_cons] at hdefaults hgiven
  obtain ⟨hmemory, hmemory', hcpu, hcpu', -⟩ := hdefaults
  obtain ⟨hlimits, hrequests, -⟩ := hgiven
  exact ⟨_, layered_eq_ok.2 ⟨⟨hlimits, fun _ => hmemory, fun _ => hcpu⟩,
    ⟨hrequests, fun _ => hmemory', fun _ => hcpu'⟩, rfl⟩⟩

end

/-- The storage that a server gets which does not ask for any. -/
theorem claimSize_of_undemanding (h : server.Undemanding) :
    Database.claimSize server settings = Quantity.parse settings.postgresPvcSize := by
  unfold Database.claimSize
  split
  · next size hsize => rw [h.storage size hsize, if_pos rfl]
  · rfl

theorem exists_claimSize (hsettings : Quantity.Parses settings.postgresPvcSize)
    (h : server.Sound) : ∃ size, Database.claimSize server settings = .ok size := by
  unfold Database.claimSize
  split
  · next size hsize =>
    by_cases hempty : size = ""
    · rw [if_pos hempty]
      exact hsettings
    · rw [if_neg hempty]
      exact h.storage size hsize hempty
  · exact hsettings

/-! ## The builders -/

/-- The builders, over a server and settings and with whatever else they are given. The secret of a
database that is already there is only built from what the server says about that database. -/
inductive Child.Builder (server : Server) (settings : Settings) :
    {α : Type} → Except Error α → Prop
  | upsResources : Builder server settings (upsResources server settings)
  | oauthProxyResources : Builder server settings (oauthProxyResources server settings)
  | postgresResources : Builder server settings (postgresResources server settings)
  | claimSize : Builder server settings (Database.claimSize server settings)
  | namedMeta (name : String) (labels : Dict String) :
    Builder server settings (namedMeta server name labels)
  | objectMeta (suffix : String) : Builder server settings (objectMeta server suffix)
  | addressSpace : Builder server settings (Broker.addressSpace server)
  | messagingUser (password : String) :
    Builder server settings (Broker.messagingUser server password)
  | brokerSecret (password url : String) :
    Builder server settings (Broker.secret server password url)
  | queue (address : String) : Builder server settings (Broker.queue server address)
  | topic (address : String) : Builder server settings (Broker.topic server address)
  | claim : Builder server settings (Database.claim server settings)
  | databaseSecret (password : String)
    (hconnection : server.spec.externalDB = true → server.spec.database ≠ none) :
    Builder server settings (Database.secret server password)
  | databaseDeployment : Builder server settings (Database.deployment server settings)
  | databaseService : Builder server settings (Database.service server)
  | serviceAccount : Builder server settings (Frontend.serviceAccount server)
  | proxyService : Builder server settings (Frontend.proxyService server)
  | serverService : Builder server settings (Frontend.serverService server)
  | proxyRoute : Builder server settings (Frontend.proxyRoute server)
  | serverDeployment (cookieSecret : String) :
    Builder server settings (Frontend.deployment server settings cookieSecret)
  | cronJobs : Builder server settings (Backup.cronJobs server settings)
  | serviceMonitor : Builder server settings (Monitoring.serviceMonitor server)
  | prometheusRule : Builder server settings (Monitoring.prometheusRule server)
  | grafanaDashboard : Builder server settings (Monitoring.grafanaDashboard server)

/-- What comes of two parts that succeed. -/
theorem exists_bind {α β : Type} {x : Except Error α} {f : α → Except Error β}
    (hx : ∃ a, x = .ok a) (hf : ∀ a, ∃ b, f a = .ok b) : ∃ b, (x >>= f) = .ok b := by
  obtain ⟨a, ha⟩ := hx
  obtain ⟨b, hb⟩ := hf a
  exact ⟨b, bind_eq_ok.2 ⟨a, ha, hb⟩⟩

theorem exists_mapM {α β : Type} {f : α → Except Error β} (hf : ∀ a, ∃ b, f a = .ok b)
    (l : List α) : ∃ l', l.mapM f = .ok l' := by
  induction l with
  | nil => exact ⟨[], rfl⟩
  | cons a l ih =>
    rw [List.mapM_cons]
    exact exists_bind (hf a) fun b => exists_bind ih fun l' => ⟨b :: l', rfl⟩

/-- An external database has to be described. -/
theorem databaseSecret_undescribed (hns : server.metadata.ns ≠ none)
    (hexternal : server.spec.externalDB = true) (hnone : server.spec.database = none)
    (password : String) :
    ∃ text, Database.secret server password = .error (.configuration text) := by
  obtain ⟨ns, hns⟩ := Option.ne_none_iff_exists'.1 hns
  unfold Database.secret Database.externalEntries
  rw [ObjectMeta.requireNs_eq_ok.2 hns, hnone, hexternal]
  exact ⟨_, rfl⟩

/-- With good settings and a sound server all builders succeed. -/
theorem Child.Builder.exists_ok {α : Type} {built : Except Error α}
    (hsettings : settings.validate = .ok ()) (hns : server.metadata.ns ≠ none)
    (hserver : server.Sound) (h : Builder server settings built) : ∃ a, built = .ok a := by
  obtain ⟨ns, hns⟩ := Option.ne_none_iff_exists'.1 hns
  obtain ⟨hdefaults, hsize⟩ := validate_eq_ok.1 hsettings
  have hplace : ∃ ns, server.metadata.requireNs = .ok ns :=
    ⟨ns, ObjectMeta.requireNs_eq_ok.2 hns⟩
  have hmeta (name : String) (labels : Dict String) :
      ∃ m, Child.namedMeta server name labels = .ok m :=
    ⟨_, namedMeta_eq_ok.2 ⟨ns, hns, rfl⟩⟩
  have hups : ∃ r, Child.upsResources server settings = .ok r :=
    exists_layered (hdefaults _ (by simp)) (hserver.resources _ (by simp [Server.overrides]))
  have hoauth : ∃ r, Child.oauthProxyResources server settings = .ok r :=
    exists_layered (hdefaults _ (by simp)) (hserver.resources _ (by simp [Server.overrides]))
  have hpostgres : ∃ r, Child.postgresResources server settings = .ok r :=
    exists_layered (hdefaults _ (by simp)) (hserver.resources _ (by simp [Server.overrides]))
  have hclaimSize : ∃ size, Database.claimSize server settings = .ok size :=
    exists_claimSize hsize hserver
  cases h with
  | upsResources => exact hups
  | oauthProxyResources => exact hoauth
  | postgresResources => exact hpostgres
  | claimSize => exact hclaimSize
  | namedMeta name labels => exact hmeta name labels
  | objectMeta suffix => exact hmeta _ _
  | claim => exact exists_bind (hmeta _ _) fun _ => exists_bind hclaimSize fun _ => ⟨_, rfl⟩
  | databaseSecret password hconnection =>
    refine exists_bind hplace fun ns => ?_
    split
    · next hexternal =>
      obtain ⟨database, hdatabase⟩ := Option.ne_none_iff_exists'.1 (hconnection hexternal)
      refine exists_bind ?_ fun entries => exists_of_namedMeta hns
      unfold Database.externalEntries
      rw [hdatabase]
      exact ⟨_, rfl⟩
    · exact exists_bind ⟨_, rfl⟩ fun entries => exists_of_namedMeta hns
  | databaseDeployment => exact exists_bind hpostgres fun _ => exists_of_namedMeta hns
  | serverDeployment cookieSecret =>
    exact exists_bind hups fun _ => exists_bind hoauth fun _ => exists_of_namedMeta hns
  | cronJobs =>
    exact exists_mapM (fun _ => exists_bind hplace fun _ => exists_of_namedMeta hns) _
  | _ => exact exists_of_namedMeta hns

/-- Settings are valid exactly when a server that asks for nothing itself gets its resources and its
storage from them. With valid settings all children of a server can be built that is in a namespace
and asks for quantities only, but for the secret of an external database that it does not describe.
-/
theorem validate_iff_builds (settings : Settings) :
    (∀ server : Server, server.Undemanding →
      (settings.validate = .ok () ↔
        (∃ resources, Child.upsResources server settings = .ok resources) ∧
        (∃ resources, Child.oauthProxyResources server settings = .ok resources) ∧
        (∃ resources, Child.postgresResources server settings = .ok resources) ∧
        ∃ size, Database.claimSize server settings = .ok size)) ∧
    (settings.validate = .ok () → ∀ server : Server, server.metadata.ns ≠ none → server.Sound →
      (∀ (α : Type) (built : Except Error α), Builder server settings built →
        ∃ a, built = .ok a) ∧
      (server.spec.externalDB = true → server.spec.database = none → ∀ password,
        ∃ text, Database.secret server password = .error (.configuration text))) := by
  constructor
  · intro server h
    obtain ⟨hups, hoauth, hpostgres, -⟩ : _ ∧ _ ∧ _ ∧ _ := by
      simpa only [Server.overrides, List.forall_mem_cons] using h.resources
    rw [validate_eq_ok, claimSize_of_undemanding h, Child.upsResources, Child.oauthProxyResources,
      Child.postgresResources, exists_layered_iff hups.1 hups.2,
      exists_layered_iff hoauth.1 hoauth.2, exists_layered_iff hpostgres.1 hpostgres.2]
    simp only [List.forall_mem_cons, List.not_mem_nil, IsEmpty.forall_iff, implies_true, and_true,
      and_assoc, Quantity.Parses]
  · intro hsettings server hns hserver
    constructor
    · intro α built hbuilt
      exact hbuilt.exists_ok hsettings hns hserver
    · intro hexternal hnone password
      exact databaseSecret_undescribed hns hexternal hnone password

/-- A server that leaves everything to the settings. -/
def plainServer : Server where
  metadata := { name := some "b", ns := some "push" }
  spec := {}
  status := none

theorem undemanding_plainServer : plainServer.Undemanding where
  resources := by decide
  storage := nofun

/-- A server that overrides one limit and uses an external database that it does not describe. -/
def externalServer : Server where
  metadata := { name := some "a", ns := some "push" }
  spec := {
    externalDB := true
    oAuthResourceRequirements := some sampleOverrides
    postgresPVCSize := some "" }
  status := none

theorem sound_externalServer : externalServer.Sound where
  resources := by
    have hvalid : ∀ overrides ∈ externalServer.overrides,
        ∀ texts ∈ [limitsOf overrides, requestsOf overrides], ∀ entry ∈ texts.entries,
          Quantity.isValid entry.2 = true := by decide
    intro overrides hoverrides texts htexts key text hkey
    have hmem : (key, text) ∈ texts.entries := Dict.get?_eq_some_iff.1 hkey
    exact ⟨text, if_pos (hvalid _ hoverrides _ htexts _ hmem)⟩
  storage := by
    intro size hsize hne
    cases hsize
    exact absurd rfl hne

/-- With the settings that the operator comes with. -/
theorem validate_iff_builds_externalServer :
    plainServer.Undemanding ∧ Settings.validate {} = .ok () ∧ externalServer.Sound ∧
      (∃ resources, Child.upsResources plainServer {} = .ok resources) ∧
      (∃ d, Frontend.deployment externalServer {} "cookie" = .ok d) ∧
      ∃ text, Database.secret externalServer "" = .error (.configuration text) := by
  obtain ⟨hplain, hall⟩ := validate_iff_builds {}
  have hvalid : Settings.validate {} = .ok () := by decide
  obtain ⟨hbuilds, hfails⟩ := hall hvalid externalServer nofun sound_externalServer
  exact ⟨undemanding_plainServer, hvalid, sound_externalServer,
    ((hplain _ undemanding_plainServer).1 hvalid).1, hbuilds _ _ (.serverDeployment "cookie"),
    hfails rfl rfl ""⟩

end PushOperator
