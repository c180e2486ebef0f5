import PushOperator.Proofs.Pass.Recorded

/-!
# The published registry

A pass that asks to be run again after thirty seconds publishes in the status which children its
server has. It lists what the spec calls for and nothing else, each name once. All that it lists is
there, and all that the pass has created is listed, so whoever goes by the list misses nothing.

Backups need not have distinct names for this, and neither do containers: the list only has names,
and a name that is called for twice stands in it once.
-/

namespace PushOperator

open Child Cluster

variable {settings : Settings} {c c' : Cluster} {ns name : String} {server : Server}
  {serves : String → Bool} {k : Kind}

/-! ## What is called for -/

/-- What the spec of a server calls for, one rule a child. -/
inductive CalledFor (server : Server) (serves : String → Bool) : Kind → String → Prop
  | addressSpace (h : server.spec.useMessageBroker = true) :
    CalledFor server serves .addressSpace Broker.spaceName
  | messagingUser (h : server.spec.useMessageBroker = true) :
    CalledFor server serves .messagingUser Broker.userName
  | brokerSecret (h : server.spec.useMessageBroker = true) :
    CalledFor server serves .secret (childName server amq)
  | address {address : String} (h : server.spec.useMessageBroker = true)
    (haddress : address ∈ Broker.queues ++ Broker.topics) :
    CalledFor server serves .address (Broker.addressName address)
  | claim (h : server.spec.externalDB = false) :
    CalledFor server serves .persistentVolumeClaim (childName server postgresql)
  | databaseSecret (h : ¬(server.spec.externalDB = true ∧
      ∃ secret, server.spec.databaseSecret = some secret ∧ secret ≠ "")) :
    CalledFor server serves .secret (childName server postgresql)
  | databaseDeployment (h : server.spec.externalDB = false) :
    CalledFor server serves .deployment (childName server postgresql)
  | databaseService (h : server.spec.externalDB = false) :
    CalledFor server serves .service (childName server postgresql)
  | serviceAccount : CalledFor server serves .serviceAccount server.anyName
  | proxyService : CalledFor server serves .service (childName server proxy)
  | serverService : CalledFor server serves .service (childName server unifiedpush)
  | route : CalledFor server serves .route (childName server proxy)
  | serverDeployment : CalledFor server serves .deployment server.anyName
  | cronJob {backup : Backup} (h : backup ∈ server.spec.backups) :
    CalledFor server serves .cronJob backup.name
  | serviceMonitor (h : serves "monitoring.coreos.com/v1" = true) :
    CalledFor server serves .serviceMonitor (childName server unifiedpush)
  | prometheusRule (h : serves "monitoring.coreos.com/v1" = true) :
    CalledFor server serves .prometheusRule (childName server unifiedpush)
  | grafanaDashboard (h : serves "integreatly.org/v1alpha1" = true) :
    CalledFor server serves .grafanaDashboard (childName server unifiedpush)

/-- There is an address for each queue and each topic. -/
theorem addresses_catalogue : Broker.catalogue.map (·.1) = Broker.queues ++ Broker.topics :=
  rfl

example : Broker.catalogue.length = 14 := rfl

theorem calledFor_of_broker (h : (k, name) ∈ Broker.wanted server) :
    CalledFor server serves k name := by
  unfold Broker.wanted at h
  split at h
  · next hon =>
    simp only [List.mem_append, List.mem_cons, List.mem_map, List.not_mem_nil, or_false,
      Prod.mk.injEq] at h
    rcases h with (⟨rfl, rfl⟩ | ⟨rfl, rfl⟩ | ⟨rfl, rfl⟩) | ⟨entry, hentry, rfl, rfl⟩
    · exact .addressSpace hon
    · exact .messagingUser hon
    · exact .brokerSecret hon
    · exact .address hon (addresses_catalogue ▸ List.mem_map_of_mem hentry)
  · cases h

/-- The operator makes the connection secret unless the server names one for a database of its own.
-/
theorem needsSecret_iff : (server.spec.externalDB && Database.namesSecret server) = false ↔
    ¬(server.spec.externalDB = true ∧
      ∃ secret, server.spec.databaseSecret = some secret ∧ secret ≠ "") := by
  unfold Database.namesSecret
  rw [← Bool.not_eq_true, Bool.and_eq_true, Option.any_eq_true]
  simp

theorem calledFor_of_database (h : (k, name) ∈ Database.wanted server) :
    CalledFor server serves k name := by
  have hsecret (hneeded : (server.spec.externalDB && Database.namesSecret server) = false) :
      CalledFor server serves .secret (Database.secretName server) := by
    rw [Pass.secretName_eq hneeded]
    exact .databaseSecret (needsSecret_iff.1 hneeded)
  unfold Database.wanted at h
  dsimp only at h
  split at h
  · next hexternal =>
    split at h
    · cases h
    · next hunnamed =>
      obtain ⟨rfl, rfl⟩ := Prod.mk.inj (List.mem_singleton.1 h)
      exact hsecret (by simp [hexternal, eq_false_of_ne_true hunnamed])
  · next hown =>
    have hown' : server.spec.externalDB = false := eq_false_of_ne_true hown
    simp only [List.mem_cons, List.not_mem_nil, or_false, Prod.mk.injEq] at h
    rcases h with ⟨rfl, rfl⟩ | ⟨rfl, rfl⟩ | ⟨rfl, rfl⟩ | ⟨rfl, rfl⟩
    · exact .claim hown'
    · exact hsecret (by simp [hown'])
    · exact .databaseDeployment hown'
    · exact .databaseService hown'

theorem mem_database_of_needed
    (h : (server.spec.externalDB && Database.namesSecret server) = false) :
    (.secret, childName server postgresql) ∈ Database.wanted server := by
  rw [← Pass.secretName_eq h]
  unfold Database.wanted
  cases hexternal : server.spec.externalDB with
  | true =>
    rw [hexternal, Bool.true_and] at h
    simp [h]
  | false => simp

theorem calledFor_of_frontend (h : (k, name) ∈ Frontend.wanted server) :
    CalledFor server serves k name := by
  simp only [Frontend.wanted, List.mem_cons, List.not_mem_nil, or_false, Prod.mk.injEq] at h
  rcases h with ⟨rfl, rfl⟩ | ⟨rfl, rfl⟩ | ⟨rfl, rfl⟩ | ⟨rfl, rfl⟩ | ⟨rfl, rfl⟩
  · exact .serviceAccount
  · exact .proxyService
  · exact .serverService
  · exact .route
  · exact .serverDeployment

theorem calledFor_of_backup (h : (k, name) ∈ Backup.wanted server) :
    CalledFor server serves k name := by
  obtain ⟨backup, hbackup, heq⟩ := List.mem_map.1 h
  obtain ⟨rfl, rfl⟩ := Prod.mk.inj heq
  exact .cronJob hbackup

theorem calledFor_of_monitoring (h : (k, name) ∈ Monitoring.wanted server serves) :
    CalledFor server serves k name := by
  unfold Monitoring.wanted at h
  dsimp only at h
  rcases List.mem_append.1 h with h | h
  · split at h
    · next hserved =>
      simp only [List.mem_cons, List.not_mem_nil, or_false, Prod.mk.injEq] at h
      rcases h with ⟨rfl, rfl⟩ | ⟨rfl, rfl⟩
      · exact .serviceMonitor hserved
      · exact .prometheusRule hserved
    · cases h
  · split at h
    · next hserved =>
      obtain ⟨rfl, rfl⟩ := Prod.mk.inj (List.mem_singleton.1 h)
      exact .grafanaDashboard hserved
    · cases h

/-- The children that are wanted are those that the spec calls for. -/
theorem mem_wanted_iff : (k, name) ∈ wanted server serves ↔ CalledFor server serves k name := by
  unfold wanted
  simp only [List.mem_append]
  constructor
  · rintro ((((h | h) | h) | h) | h)
    · exact calledFor_of_broker h
    · exact calledFor_of_database h
    · exact calledFor_of_frontend h
    · exact calledFor_of_backup h
    · exact calledFor_of_monitoring h
  · intro h
    cases h with
    | addressSpace hon | messagingUser hon | brokerSecret hon =>
      simp [Broker.wanted, hon, Broker.secretName]
    | address hon haddress =>
      rw [← addresses_catalogue] at haddress
      obtain ⟨entry, hentry, rfl⟩ := List.mem_map.1 haddress
      refine .inl (.inl (.inl (.inl ?_)))
      unfold Broker.wanted
      rw [if_pos hon]
      exact List.mem_append_right _ (List.mem_map_of_mem hentry)
    | claim hown | databaseDeployment hown | databaseService hown =>
      simp [Database.wanted, hown]
    | databaseSecret hneeded =>
      exact .inl (.inl (.inl (.inr (mem_database_of_needed (needsSecret_iff.2 hneeded)))))
    | serviceAccount | proxyService | serverService | route | serverDeployment =>
      simp [Frontend.wanted]
    | cronJob hbackup => exact .inl (.inr (List.mem_map_of_mem hbackup))
    | serviceMonitor hserved | prometheusRule hserved | grafanaDashboard hserved =>
      simp [Monitoring.wanted, Kind.apiVersion, hserved]

/-! ## What is published -/

/-- No two kinds share a name, so a kind can be told from what it is listed under. -/
theorem Kind.name_injective : Function.Injective Kind.name := by
  have hall : ∀ k ∈ all, ∀ k' ∈ all, k.name = k'.name → k = k' := by decide
  exact fun k k' => hall k (mem_all k) k' (mem_all k')

/-- A registry lists some children and nothing else, each name once under its kind. -/
structure Registry.Lists (r : Registry) (children : Kind → String → Prop) : Prop where
  contains_iff : ∀ kind name, r.contains kind name = true ↔
    ∃ k, k.name = kind ∧ children k name
  distinct : r.Distinct

theorem Registry.Lists.of_contains {r : Registry} {children : Kind → String → Prop}
    (h : r.Lists children) (hcontains : r.contains k.name name = true) : children k name := by
  obtain ⟨k', hname, hchild⟩ := (h.contains_iff _ _).1 hcontains
  obtain rfl := Kind.name_injective hname
  exact hchild

theorem Registry.lists_addAll (children : List (Kind × String)) :
    ((∅ : Registry).addAll children).Lists fun k name => (k, name) ∈ children where
  contains_iff kind name := by
    rw [contains_addAll]
    refine or_iff_right fun hempty => ?_
    rw [contains_iff, names_empty] at hempty
    cases hempty
  distinct := distinct_empty.addAll children

/-- A pass that comes to the thirty seconds publishes exactly what the spec calls for. All that it
lists is there, and all that it has created is listed. -/
theorem lists_of_reconcile {t : Trace} (hc : c.Filed)
    (hrun : Run flaky (reconcile settings ns name).run c t (some (.ok (.requeue 30))) c') :
    ∃ server live status, c.get? .unifiedPushServer ns name = some server ∧
      c'.get? .unifiedPushServer ns name = some live ∧ live.status = some status ∧
      status.secondaryResources.Lists (CalledFor server c.serves) ∧
      (∀ k name', status.secondaryResources.contains k.name name' = true →
        ∃ o, c'.get? k ns name' = some o) ∧
      ∀ k ns' name' o, c'.get? k ns' name' = some o → c.get? k ns' name' = none →
        ns' = ns ∧ status.secondaryResources.contains k.name name' = true := by
  obtain ⟨server, live, hserver, hpublishes⟩ := Pass.publishes_of_reconcile hc hrun
  obtain ⟨observed, hstatus, -⟩ := hpublishes.status
  have hlists : ((∅ : Registry).addAll (wanted server c.serves)).Lists
      (CalledFor server c.serves) := by
    have hwanted : (fun k name => (k, name) ∈ wanted server c.serves) =
        CalledFor server c.serves :=
      funext fun k => funext fun name => propext mem_wanted_iff
    rw [← hwanted]
    exact Registry.lists_addAll _
  refine ⟨server, live, _, hserver, hpublishes.get?, hstatus, hlists, ?_, ?_⟩
  · intro k name' hlisted
    exact hpublishes.present (k, name') (mem_wanted_iff.2 (hlists.of_contains hlisted))
  · intro k ns' name' o ho hfree
    rcases hpublishes.recorded k ns' name' o ho with ⟨o', ho'⟩ | ⟨hns, hmem⟩
    · rw [hfree] at ho'
      cases ho'
    · exact ⟨hns, (hlists.contains_iff _ _).2 ⟨k, rfl, mem_wanted_iff.1 hmem⟩⟩

/-- The first pass over a new server lists what it has made. -/
theorem lists_of_reconcile_sampleCluster : ∃ t c' server live status,
    Run flaky (reconcile {} "push" "a").run sampleCluster t (some (.ok (.requeue 30))) c' ∧
      sampleCluster.get? .unifiedPushServer "push" "a" = some server ∧
      c'.get? .unifiedPushServer "push" "a" = some live ∧ live.status = some status ∧
      status.secondaryResources.Lists (CalledFor server sampleCluster.serves) ∧
      (∀ k name', status.secondaryResources.contains k.name name' = true →
        ∃ o, c'.get? k "push" name' = some o) ∧
      ∀ k ns' name' o, c'.get? k ns' name' = some o → sampleCluster.get? k ns' name' = none →
        ns' = "push" ∧ status.secondaryResources.contains k.name name' = true := by
  obtain ⟨t, c', hrun⟩ := exists_run_sampleCluster
  have hrun' := hrun.mono flaky_of_reliable
  obtain ⟨server, live, status, h⟩ := lists_of_reconcile filed_sampleCluster hrun'
  exact ⟨t, c', server, live, status, hrun', h⟩

end PushOperator
