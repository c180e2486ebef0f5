import PushOperator.Proofs.Child.Wanted
import PushOperator.Proofs.Pass.Run

/-!
# Convergence

A pass that asks to be run again after thirty seconds has brought the children of its server in line
with the spec. It does not matter what it started from, or which calls failed on the way: all
children that the spec calls for are there, and what the operator manages of them is as the builders
have it. Everything a pass leaves behind when it comes to its end is collected in `Pass.Leaves`.
-/

namespace PushOperator

open Child Cluster

variable {settings : Settings} {c c' : Cluster} {ns name : String} {server : Server}

namespace Pass

/-! ## The wanted children are there -/

theorem BrokerSettled.exists_child (h : BrokerSettled c ns server) {child : Kind × String}
    (hchild : child ∈ Broker.wanted server) : ∃ o, c.get? child.1 ns child.2 = some o := by
  unfold Broker.wanted at hchild
  split at hchild
  · simp only [List.mem_append, List.mem_cons, List.mem_map, List.not_mem_nil, or_false] at hchild
    rcases hchild with (rfl | rfl | rfl) | ⟨entry, hentry, rfl⟩
    · obtain ⟨space, hspace, -⟩ := h.space
      exact ⟨space, hspace⟩
    · obtain ⟨user, huser, -⟩ := h.user
      exact ⟨user, huser⟩
    · exact h.secret
    · obtain ⟨address, haddress, -⟩ := h.addresses entry hentry
      exact ⟨address, haddress⟩
  · cases hchild

theorem DatabaseSettled.exists_child (h : DatabaseSettled settings c ns server)
    {child : Kind × String} (hchild : child ∈ Database.wanted server) :
    ∃ o, c.get? child.1 ns child.2 = some o := by
  have hsecret := h.secret
  unfold Database.wanted at hchild
  cases hexternal : server.spec.externalDB with
  | true =>
    cases hnamed : Database.namesSecret server with
    | true => simp [hexternal, hnamed] at hchild
    | false =>
      simp only [hexternal, hnamed, if_true, Bool.false_eq_true, if_false, List.mem_singleton]
        at hchild
      subst hchild
      exact hsecret (by simp [hnamed])
  | false =>
    simp only [hexternal, Bool.false_eq_true, if_false, List.mem_cons, List.not_mem_nil, or_false]
      at hchild
    rcases hchild with rfl | rfl | rfl | rfl
    · obtain ⟨claim, -, hclaim, -⟩ := h.claim hexternal
      exact ⟨claim, hclaim⟩
    · exact hsecret (by simp [hexternal])
    · obtain ⟨deployment, -, hdeployment, -⟩ := h.deployment hexternal
      exact ⟨deployment, hdeployment⟩
    · exact h.service hexternal

theorem FrontendSettled.exists_child (h : FrontendSettled settings c ns server)
    {child : Kind × String} (hchild : child ∈ Frontend.wanted server) :
    ∃ o, c.get? child.1 ns child.2 = some o := by
  simp only [Frontend.wanted, List.mem_cons, List.not_mem_nil, or_false] at hchild
  rcases hchild with rfl | rfl | rfl | rfl | rfl
  · exact h.account
  · exact h.proxyService
  · exact h.serverService
  · exact h.route
  · obtain ⟨deployment, -, hdeployment, -⟩ := h.deployment
    exact ⟨deployment, hdeployment⟩

theorem BackupsSettled.exists_child (h : BackupsSettled settings c ns server) (hc : c.Filed)
    {child : Kind × String} (hchild : child ∈ Backup.wanted server) :
    ∃ o, c.get? child.1 ns child.2 = some o := by
  obtain ⟨backup, hbackup, rfl⟩ := List.mem_map.1 hchild
  obtain ⟨desired, hdesired, -, hperm⟩ := h
  have hname : some backup.name ∈ desired.map (·.metadata.name) := by
    rw [names_cronJobs hdesired]
    exact List.mem_map_of_mem hbackup
  -- The jobs that are there have the names of the wanted ones.
  have hlive : some backup.name ∈ (backupJobs c ns server).map (·.metadata.name) := by
    have hnames := hperm.map Prod.fst
    rw [List.map_map, List.map_map] at hnames
    exact hnames.mem_iff.2 hname
  obtain ⟨job, hjob, hjobname⟩ := List.mem_map.1 hlive
  obtain ⟨name, hget⟩ := mem_values_objects.1 (List.mem_filter.1 hjob).1
  obtain rfl : name = backup.name :=
    Option.some.inj ((hc _ _ _ _ hget).2.symm.trans hjobname)
  exact ⟨job, hget⟩

theorem MonitoringSettled.exists_child (h : MonitoringSettled c ns server) {child : Kind × String}
    (hchild : child ∈ Monitoring.wanted server c.serves) :
    ∃ o, c.get? child.1 ns child.2 = some o := by
  unfold Monitoring.wanted at hchild
  rcases List.mem_append.1 hchild with hmember | hmember
  · split at hmember
    · next hserved =>
      simp only [List.mem_cons, List.not_mem_nil, or_false] at hmember
      rcases hmember with rfl | rfl
      · obtain ⟨monitor, -, hmonitor, -⟩ := h.serviceMonitor hserved
        exact ⟨monitor, hmonitor⟩
      · obtain ⟨rule, -, hrule, -⟩ := h.prometheusRule hserved
        exact ⟨rule, hrule⟩
    · cases hmember
  · split at hmember
    · next hserved =>
      obtain rfl := List.mem_singleton.1 hmember
      obtain ⟨dashboard, -, hdashboard, -⟩ := h.grafanaDashboard hserved
      exact ⟨dashboard, hdashboard⟩
    · cases hmember

/-- Every child that the spec calls for is there. -/
theorem Settled.exists_child (h : Settled settings c ns server) (hc : c.Filed)
    {child : Kind × String} (hchild : child ∈ wanted server c.serves) :
    ∃ o, c.get? child.1 ns child.2 = some o := by
  unfold wanted at hchild
  simp only [List.mem_append] at hchild
  rcases hchild with (((hbroker | hdatabase) | hfrontend) | hbackup) | hmonitoring
  · have hon : server.spec.useMessageBroker = true := by
      unfold Broker.wanted at hbroker
      split at hbroker
      · assumption
      · cases hbroker
    exact (h.broker hon).exists_child hbroker
  · exact h.database.exists_child hdatabase
  · exact h.frontend.exists_child hfrontend
  · exact h.backups.exists_child hc hbackup
  · exact h.monitoring.exists_child hmonitoring

/-! ## Other versions of the server -/

/-- What is settled is a matter of the spec and the name of a server only. -/
theorem Settled.restamp (h : Settled settings c ns server) (uid resourceVersion : Option String)
    (status : Option ServerStatus) : Settled settings c ns
      { server with metadata := { server.metadata with uid, resourceVersion }, status } := by
  obtain ⟨hbroker, hdatabase, hfrontend, hbackups, hmonitoring⟩ := h
  refine ⟨fun hon => ?_, ?_, ?_, hbackups, ?_⟩
  · exact ⟨(hbroker hon).space, (hbroker hon).user, (hbroker hon).secret, (hbroker hon).addresses⟩
  · exact ⟨hdatabase.claim, hdatabase.secret, hdatabase.deployment, hdatabase.service⟩
  · exact ⟨hfrontend.account, hfrontend.proxyService, hfrontend.serverService, hfrontend.route,
      hfrontend.deployment⟩
  · exact ⟨hmonitoring.serviceMonitor, hmonitoring.prometheusRule, hmonitoring.grafanaDashboard⟩

theorem settled_iff_of_remains {later : Server} (h : server.Remains later) :
    Settled settings c ns later ↔ Settled settings c ns server := by
  obtain ⟨uid, version, status, -⟩ := h
  constructor
  · intro hsettled
    exact hsettled.restamp server.metadata.uid server.metadata.resourceVersion server.status
  · intro hsettled
    exact hsettled.restamp uid version status

theorem MonitoringSettled.of_remains {later : Server} (h : MonitoringSettled c ns later)
    (hremains : server.Remains later) : MonitoringSettled c ns server := by
  obtain ⟨⟩ := hremains
  exact ⟨h.serviceMonitor, h.prometheusRule, h.grafanaDashboard⟩

/-! ## What a pass leaves behind -/

/-- What a pass leaves behind when it comes to its end: the server, active and still the same, and
all that its spec calls for. -/
structure Leaves (settings : Settings) (ns name : String) (server live : Server) (c' : Cluster) :
    Prop where
  get? : c'.get? .unifiedPushServer ns name = some live
  remains : server.Remains live
  active : (Server.phase live).isActive = true
  filed : c'.Filed
  namespaced : live.metadata.ns = some ns
  settled : Settled settings c' ns live

variable {P : Entry → Prop} {st' : PassState} {action : Action}

/-- The steps of a pass stand between its two writes of the status, and the second of them does not
disturb what the steps have settled. -/
theorem Completes.settled_of_body {w : World Cluster}
    (hw : ∀ r c a c', w r c a c' → flaky r c a c')
    (hnames : settings.upsContainerName ≠ settings.oauthProxyContainerName)
    (h : Completes w P (body settings) { server, stored := server.status } c action st' c')
    (hc : c.Filed) (hknows : Knows c ns name { server, stored := server.status })
    (hcomma : ',' ∉ server.anyName.toList) (hbackups : (server.spec.backups.map (·.name)).Nodup) :
    ∃ st₁ c₁ st₂ c₂, Continues ns name { server, stored := server.status } c st₁ c₁ ∧
      st₁.server.metadata.ns = some ns ∧ Completes w P (converge settings) st₁ c₁ () st₂ c₂ ∧
      Settled settings c₂ ns st₁.server ∧
      Stores ns name st₁.server (Server.succeed st₁.server st₂.ready st₂.children).observe.status
        c₂ st' c' := by
  obtain ⟨st₁, c₁, st₂, c₂, hcontinues, hns, hconverge, hstores⟩ := h.of_body hw hc hknows
  obtain ⟨haccounts, -, -, hsettled⟩ :=
    completes_converge (hconverge.mono hw) hcontinues.filed hns hcontinues.children
  rw [hcontinues.remains.anyName, hcontinues.remains.spec] at hsettled
  exact ⟨st₁, c₁, st₂, c₂, hcontinues, hns, hconverge, hsettled hnames hcomma hbackups,
    hstores haccounts.filed⟩

/-- What the body of a pass leaves behind. -/
theorem completes_body (hnames : settings.upsContainerName ≠ settings.oauthProxyContainerName)
    (h : Completes flaky P (body settings) { server, stored := server.status } c action st' c')
    (hc : c.Filed) (hknows : Knows c ns name { server, stored := server.status })
    (hcomma : ',' ∉ server.anyName.toList) (hbackups : (server.spec.backups.map (·.name)).Nodup) :
    Leaves settings ns name server st'.server c' := by
  obtain ⟨st₁, c₁, st₂, c₂, hcontinues, hns, -, hsettled, hstores⟩ :=
    h.settled_of_body (fun _ _ _ _ h => h) hnames hc hknows hcomma hbackups
  have hsettled' : Settled settings c' ns st₁.server :=
    hsettled.of_shelf hstores.same.serves fun k hk => hstores.shelf hk
  refine ⟨hstores.knows.get?, hcontinues.remains.trans hstores.remains, ?_, hstores.filed, ?_, ?_⟩
  · have hactive := Server.isActive_succeed st₁.server st₂.ready st₂.children
    rw [Server.phase, ← hstores.status] at hactive
    exact hactive
  · exact hstores.remains.ns.trans hns
  · exact (settled_iff_of_remains hstores.remains).2 hsettled'

/-- The monitoring that a pass leaves behind, whatever the names of containers and backups. -/
theorem monitored_of_reconcile {t : Trace} (hc : c.Filed)
    (hserver : c.get? .unifiedPushServer ns name = some server)
    (hrun : Run flaky (reconcile settings ns name).run c t (some (.ok (.requeue 30))) c') :
    c'.serves = c.serves ∧ MonitoringSettled c' ns server := by
  obtain ⟨-, server', st', hserver', hbody⟩ := completes_of_reconcile (fun _ _ _ _ h => h) hc hrun
  obtain rfl : server = server' := Option.some.inj (hserver.symm.trans hserver')
  obtain ⟨st₁, c₁, st₂, c₂, hcontinues, hns, hconverge, hstores⟩ :=
    hbody.of_body (fun _ _ _ _ h => h) hc ⟨hserver, rfl⟩
  obtain ⟨-, -, hsame⟩ := writesOnly_converge.completes hconverge
  obtain ⟨haccounts, -, hmonitored, -⟩ :=
    completes_converge hconverge hcontinues.filed hns hcontinues.children
  have hend := hstores haccounts.filed
  have hkinds : ∀ k ∈ monitoringKinds, k ∈ childKinds := by decide
  have hmonitored' : MonitoringSettled c' ns st₁.server :=
    hmonitored.mono hend.same.serves fun k hk => keeps_of_shelf (hend.shelf (hkinds k hk))
  refine ⟨?_, hmonitored'.of_remains hcontinues.remains⟩
  rw [hend.same.serves, hsame.serves, hcontinues.same.serves]

end Pass

/-- A pass that comes to the thirty seconds has brought all that the operator manages of its server
in line with the spec, whatever the cluster held before and whichever calls failed in between. -/
theorem settled_of_reconcile {t : Trace}
    (hnames : settings.upsContainerName ≠ settings.oauthProxyContainerName) (hc : c.Filed)
    (hserver : c.get? .unifiedPushServer ns name = some server)
    (hcomma : ',' ∉ server.anyName.toList) (hbackups : (server.spec.backups.map (·.name)).Nodup)
    (hrun : Run flaky (reconcile settings ns name).run c t (some (.ok (.requeue 30))) c') :
    (∀ child ∈ wanted server c'.serves, ∃ o, c'.get? child.1 ns child.2 = some o) ∧
      Pass.Settled settings c' ns server := by
  obtain ⟨-, server', st', hserver', hbody⟩ := completes_of_reconcile (fun _ _ _ _ h => h) hc hrun
  obtain rfl : server = server' := Option.some.inj (hserver.symm.trans hserver')
  have hleaves := Pass.completes_body hnames hbody hc ⟨hserver, rfl⟩ hcomma hbackups
  have hsettled := (Pass.settled_iff_of_remains hleaves.remains).1 hleaves.settled
  exact ⟨fun child hchild => hsettled.exists_child hleaves.filed hchild, hsettled⟩

/-- The first pass over a new server leaves all that the spec calls for. -/
theorem settled_of_reconcile_sampleCluster : ∃ live t c',
    sampleCluster.get? .unifiedPushServer "push" "a" = some live ∧
      Run flaky (reconcile {} "push" "a").run sampleCluster t (some (.ok (.requeue 30))) c' ∧
        (∀ child ∈ wanted live c'.serves, ∃ o, c'.get? child.1 "push" child.2 = some o) ∧
          Pass.Settled {} c' "push" live := by
  obtain ⟨t, c', hrun⟩ := exists_run_sampleCluster
  have hrun' := hrun.mono flaky_of_reliable
  obtain ⟨hchildren, hsettled⟩ := settled_of_reconcile (by decide) filed_sampleCluster
    get?_sampleCluster (by decide) (by decide) hrun'
  exact ⟨_, t, c', get?_sampleCluster, hrun', hchildren, hsettled⟩

end PushOperator
