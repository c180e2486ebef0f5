import PushOperator.Proofs.Convergence
import PushOperator.Proofs.References
import PushOperator.Proofs.SeparateNames

/-!
# Alerts and the services they watch

The rule of a server has two alerts, each of which is raised while no service of a certain name is
up: one for the service of the server, and one for the service of its database. A pass ensures the
first of these services for every server, but the second one only with a database of the operator.
So a server with an external database has an alert that nothing the operator does can end
(`alerts_watch_services`, `raised_attachedCluster`).

Whether a service is up is for others to say. The operator has them read the metrics of the first
one only (`watches_of_built`).
-/

namespace PushOperator

open Child Cluster

variable {p : Plan} {server : Server} {settings : Settings} {ns name place label label' : String}
  {serves : String → Bool} {c c' : Cluster} {t : Trace} {alert : AlertRule} {rule : PrometheusRule}
  {up : String → Prop}

/-! ## What an alert watches -/

namespace AlertRule

/-- The alert is about the services of a name. -/
def Watches (alert : AlertRule) (label : String) : Prop :=
  alert.expr = "absent(up\x7bservice=\"" ++ label ++ "\"\x7d == 1)"

/-- The alert is raised: no service of the name that it watches is up. -/
def Fires (alert : AlertRule) (up : String → Prop) : Prop :=
  ∃ label, alert.Watches label ∧ ¬up label

theorem Watches.unique (h : alert.Watches label) (h' : alert.Watches label') : label = label' := by
  have heq := h.symm.trans h'
  rwa [String.append_left_inj, String.append_right_inj] at heq

theorem Watches.fires_iff (h : alert.Watches label) : alert.Fires up ↔ ¬up label := by
  constructor
  · rintro ⟨label', h', hdown⟩
    rwa [h.unique h']
  · exact fun hdown => ⟨label, h, hdown⟩

end AlertRule

/-- The alerts of a rule, whichever group they are in. -/
def PrometheusRule.alerts (rule : PrometheusRule) : List AlertRule :=
  rule.spec.groups.flatMap (·.rules)

namespace Child

/-- A rule needs nothing but a namespace to be built. -/
theorem exists_rule (hns : server.metadata.ns = some ns) :
    ∃ rule, Monitoring.prometheusRule server = .ok rule :=
  exists_of_namedMeta hns

theorem alerts_of_rule (h : Monitoring.prometheusRule server = .ok rule) :
    PrometheusRule.alerts rule = Monitoring.alerts server := by
  obtain ⟨m, -, h⟩ := bind_eq_ok.1 h
  obtain rfl := pure_eq_ok.1 h
  exact List.flatMap_singleton _ _

/-- An alert watches the service of the server or that of its database. -/
theorem watches_of_mem_alerts (h : alert ∈ Monitoring.alerts server) :
    ∃ label, alert.Watches label ∧
      (label = childName server unifiedpush ∨ label = childName server postgresql) := by
  simp only [Monitoring.alerts, List.mem_cons, List.not_mem_nil, or_false] at h
  rcases h with rfl | rfl
  · exact ⟨_, rfl, .inl rfl⟩
  · exact ⟨_, rfl, .inr rfl⟩

theorem exists_watches_database (server : Server) :
    ∃ alert ∈ Monitoring.alerts server, alert.Watches (childName server postgresql) :=
  ⟨_, List.mem_cons_of_mem _ List.mem_cons_self, rfl⟩

/-! ## The services of a server -/

/-- A service is built for the server under a name that it also bears as a label. -/
def Plan.HasService (p : Plan) (label : String) : Prop :=
  ∃ service : Service, p.Builds .service service ∧ service.metadata.name = some label ∧
    service.metadata.labelsOrEmpty.get? "service" = some label

theorem calledFor_service_iff : CalledFor server serves .service label ↔
    label = childName server proxy ∨ label = childName server unifiedpush ∨
      server.spec.externalDB = false ∧ label = childName server postgresql := by
  constructor
  · intro h
    cases h with
    | databaseService hown => exact .inr (.inr ⟨hown, rfl⟩)
    | proxyService => exact .inl rfl
    | serverService => exact .inr (.inl rfl)
  · rintro (rfl | rfl | ⟨hown, rfl⟩)
    · exact .proxyService
    · exact .serverService
    · exact .databaseService hown

theorem exists_service (hns : p.server.metadata.ns = some ns) {e : Except Error Service}
    (h : p.Calls .service e) : ∃ service, e = .ok service := by
  cases h with
  | databaseService | proxyService | serverService => exact exists_of_namedMeta hns

theorem Plan.HasService.calledFor (h : p.HasService label) :
    CalledFor p.server p.serves .service label := by
  obtain ⟨service, hbuilt, hname, -⟩ := h
  obtain ⟨-, name, hname', hcalled⟩ := calledFor_of_built hbuilt
  obtain rfl := Option.some.inj (hname.symm.trans hname')
  exact hcalled

/-- The services that are built are those that the spec calls for, whatever the cluster serves. -/
theorem hasService_iff (serves : String → Bool) (hns : p.server.metadata.ns = some ns) :
    p.HasService label ↔ CalledFor p.server serves .service label := by
  have hserves : CalledFor p.server p.serves .service label ↔
      CalledFor p.server serves .service label :=
    calledFor_service_iff.trans calledFor_service_iff.symm
  rw [← hserves]
  constructor
  · exact fun h => h.calledFor
  · intro hcalled
    obtain ⟨e, hcalls, hplaced⟩ := exists_calls hcalled
    obtain ⟨service, he⟩ := exists_service hns hcalls
    have hbuilt : p.Builds .service service := ⟨e, hcalls, he⟩
    have hname := hplaced service he
    exact ⟨service, hbuilt, hname, (service_of_built hbuilt).trans hname⟩

theorem hasService_unifiedpush (hns : p.server.metadata.ns = some ns) :
    p.HasService (childName p.server unifiedpush) :=
  (hasService_iff p.serves hns).2 .serverService

/-- The service of the database is built for a database of the operator only. -/
theorem hasService_postgresql_iff (hns : p.server.metadata.ns = some ns) :
    p.HasService (childName p.server postgresql) ↔ p.server.spec.externalDB = false := by
  rw [hasService_iff p.serves hns, calledFor_service_iff, childName_inj, childName_inj]
  have hproxy : postgresql ≠ proxy := by decide
  have hunifiedpush : postgresql ≠ unifiedpush := by decide
  simp [hproxy, hunifiedpush]

theorem hasService_of_own (hns : p.server.metadata.ns = some ns)
    (hown : p.server.spec.externalDB = false)
    (hlabel : label = childName p.server unifiedpush ∨ label = childName p.server postgresql) :
    p.HasService label := by
  rcases hlabel with rfl | rfl
  · exact hasService_unifiedpush hns
  · exact (hasService_postgresql_iff hns).2 hown

/-- No server of another name has a service that an alert of the server watches. -/
theorem anyName_of_hasService {q : Plan} (hq : q.HasService label)
    (hlabel : label = childName server unifiedpush ∨ label = childName server postgresql) :
    q.server.anyName = server.anyName := by
  by_contra hne
  -- If its database were the operator's, the server would have a service of this name itself.
  obtain ⟨own, heq, hown⟩ : ∃ own : Server, own.anyName = server.anyName ∧
      MayHave own .service label := by
    refine ⟨{ server with spec := { server.spec with externalDB := false } }, rfl, ?_⟩
    rcases hlabel with rfl | rfl
    · exact .serverService
    · exact .databaseService rfl
  have hhas : MayHave q.server .service label :=
    mayHave_of_wanted (mem_wanted_iff.2 hq.calledFor)
  exact absurd (kind_of_shared (heq ▸ hne) (by decide) hhas hown) (by decide)

/-! ## What passes do about it -/

/-- The alerts that a pass stores are those of the rule. -/
theorem stored_alerts (hrule : Monitoring.prometheusRule server = .ok rule) (hc : c.Filed)
    (hserver : c.get? .unifiedPushServer ns name = some server)
    (hrun : Run flaky (reconcile settings ns name).run c t (some (.ok (.requeue 30))) c')
    (hserved : c.serves Kind.prometheusRule.apiVersion = true) : ∃ stored : PrometheusRule,
      c'.get? .prometheusRule ns (childName server unifiedpush) = some stored ∧
      PrometheusRule.alerts stored = PrometheusRule.alerts rule := by
  obtain ⟨hserves, hmonitored⟩ := Pass.monitored_of_reconcile hc hserver hrun
  obtain ⟨stored, desired, hstored, hdesired, hspec⟩ :=
    hmonitored.prometheusRule (hserves ▸ hserved)
  obtain rfl : rule = desired := Except.ok.inj (hrule.symm.trans hdesired)
  refine ⟨stored, hstored, ?_⟩
  rw [PrometheusRule.alerts, PrometheusRule.alerts, hspec]

/-- The services that a pass lists are those of the server, and they are there. -/
theorem listed_services (hns : p.server.metadata.ns = some ns) (hc : c.Filed)
    (hserver : c.get? .unifiedPushServer place name = some p.server)
    (hrun : Run flaky (reconcile settings place name).run c t (some (.ok (.requeue 30))) c') :
    ∃ live status, c'.get? .unifiedPushServer place name = some live ∧
      live.status = some status ∧ ∀ label,
        (status.secondaryResources.contains Kind.service.name label = true ↔
          p.HasService label) ∧
        (p.HasService label → ∃ service, c'.get? .service place label = some service) := by
  obtain ⟨server, live, hserver', hpublishes⟩ := Pass.publishes_of_reconcile hc hrun
  obtain rfl : p.server = server := Option.some.inj (hserver.symm.trans hserver')
  obtain ⟨observed, hstatus, -⟩ := hpublishes.status
  have hlists := Registry.lists_addAll (wanted p.server c.serves)
  have hhas (label : String) :
      (.service, label) ∈ wanted p.server c.serves ↔ p.HasService label := by
    rw [mem_wanted_iff, hasService_iff c.serves hns]
  refine ⟨live, _, hpublishes.get?, hstatus, fun label => ⟨⟨fun hlisted => ?_, fun h => ?_⟩, ?_⟩⟩
  · exact (hhas label).1 (hlists.of_contains hlisted)
  · exact (hlists.contains_iff _ _).2 ⟨.service, rfl, (hhas label).2 h⟩
  · exact fun h => hpublishes.present (.service, label) ((hhas label).2 h)

/-- A pass asks for no service but those of the server that it has fetched. -/
theorem hasService_of_touches (hns : p.server.metadata.ns = some ns)
    {others : Cluster → Cluster → Prop} (hothers : ∀ c c', others c c' → Becomes c c')
    (hc : c.Stamped) {r : Request} {next : Except Error r.Reply → Interaction (Except Error Action)}
    (hsteps : Steps (amid others) (reconcile settings place name).run c t (.call r next) c')
    (hfetches : Fetches place name p.server t) {ns' : String}
    (htouches : r.Touches .service ns' label) : p.HasService label := by
  obtain ⟨server, hfetches', -, hhas⟩ := touches_of_steps hothers hc hsteps (by decide) htouches
  obtain rfl := hfetches.unique hfetches'
  rcases hhas with hhas | haccount
  · exact (hasService_iff _ hns).2 hhas
  -- A pass also looks for the account that backups need, but that is no service.
  · cases r with
    | get k ns name =>
      obtain ⟨rfl, -, -⟩ := htouches
      exact haccount.elim
    | _ => exact haccount.elim

/-! ## The main statement -/

/-- How the alerts of a rule go together with the services of its server: by themselves, after a
pass that comes to the thirty seconds, and at every point of any pass. -/
structure Plan.Guards (p : Plan) (rule : PrometheusRule) : Prop where
  watches : ∀ alert ∈ PrometheusRule.alerts rule, ∃ label, alert.Watches label ∧
    (p.HasService label ↔
      ¬(p.server.spec.externalDB = true ∧ label = childName p.server postgresql))
  all_iff : (∀ alert ∈ PrometheusRule.alerts rule, ∃ label, alert.Watches label ∧
    p.HasService label) ↔ p.server.spec.externalDB = false
  silent : p.server.spec.externalDB = false → ∀ up : String → Prop,
    (∀ label, p.HasService label → up label) →
      ∀ alert ∈ PrometheusRule.alerts rule, ¬alert.Fires up
  raised : p.server.spec.externalDB = true → ∀ up : String → Prop,
    (∀ label, up label → p.HasService label) →
      ∃ alert ∈ PrometheusRule.alerts rule, alert.Fires up
  foreign : ∀ alert ∈ PrometheusRule.alerts rule, ∀ label, alert.Watches label →
    ∀ q : Plan, q.HasService label → q.server.anyName = p.server.anyName
  converged : ∀ settings ns name c t c', Cluster.Filed c →
    c.get? .unifiedPushServer ns name = some p.server →
    Run flaky (reconcile settings ns name).run c t (some (.ok (.requeue 30))) c' →
      (c.serves Kind.prometheusRule.apiVersion = true → ∃ stored : PrometheusRule,
        c'.get? .prometheusRule ns (childName p.server unifiedpush) = some stored ∧
        PrometheusRule.alerts stored = PrometheusRule.alerts rule) ∧
      ∃ live status, c'.get? .unifiedPushServer ns name = some live ∧
        live.status = some status ∧ ∀ label,
          (status.secondaryResources.contains Kind.service.name label = true ↔
            p.HasService label) ∧
          (p.HasService label → ∃ service, c'.get? .service ns label = some service)
  untouched : ∀ settings ns name (others : Cluster → Cluster → Prop) c t (r : Request)
    (next : Except Error r.Reply → Interaction (Except Error Action)) c',
    (∀ c c', others c c' → Becomes c c') → Cluster.Stamped c →
    Steps (amid others) (reconcile settings ns name).run c t (.call r next) c' →
    Fetches ns name p.server t →
      ∀ ns' label, r.Touches .service ns' label → p.HasService label

theorem guards_of_rule (hns : p.server.metadata.ns = some ns)
    (hrule : Monitoring.prometheusRule p.server = .ok rule) : p.Guards rule where
  watches alert halert := by
    rw [alerts_of_rule hrule] at halert
    obtain ⟨label, hlabel, rfl | rfl⟩ := watches_of_mem_alerts halert
    · refine ⟨_, hlabel, iff_of_true (hasService_unifiedpush hns) ?_⟩
      rintro ⟨-, heq⟩
      exact absurd (childName_inj.1 heq) (by decide)
    · refine ⟨_, hlabel, (hasService_postgresql_iff hns).trans ?_⟩
      simp
  all_iff := by
    rw [alerts_of_rule hrule]
    constructor
    · intro hall
      obtain ⟨database, hmem, hdatabase⟩ := exists_watches_database p.server
      obtain ⟨label, hlabel, hhas⟩ := hall database hmem
      rw [hlabel.unique hdatabase] at hhas
      exact (hasService_postgresql_iff hns).1 hhas
    · intro hown alert halert
      obtain ⟨label, hlabel, heq⟩ := watches_of_mem_alerts halert
      exact ⟨label, hlabel, hasService_of_own hns hown heq⟩
  silent hown up hup alert halert := by
    rw [alerts_of_rule hrule] at halert
    obtain ⟨label, hlabel, heq⟩ := watches_of_mem_alerts halert
    rw [hlabel.fires_iff, not_not]
    exact hup label (hasService_of_own hns hown heq)
  raised hexternal up hup := by
    rw [alerts_of_rule hrule]
    obtain ⟨database, hmem, hdatabase⟩ := exists_watches_database p.server
    refine ⟨database, hmem, hdatabase.fires_iff.2 fun hdown => ?_⟩
    rw [(hasService_postgresql_iff hns).1 (hup _ hdown)] at hexternal
    cases hexternal
  foreign alert halert label hlabel q hq := by
    rw [alerts_of_rule hrule] at halert
    obtain ⟨label', hlabel', heq⟩ := watches_of_mem_alerts halert
    rw [← hlabel.unique hlabel'] at heq
    exact anyName_of_hasService hq heq
  converged settings ns' name c t c' hc hserver hrun :=
    ⟨stored_alerts hrule hc hserver hrun, listed_services hns hc hserver hrun⟩
  untouched settings ns' name others c t r next c' hothers hc hsteps hfetches place label
      htouches :=
    hasService_of_touches hns hothers hc hsteps hfetches htouches

end Child

/-- Every server in a namespace has a rule. Its alerts watch services of the server that a pass
ensures, with one exception, which is the alert for the database when that is external: then no pass
over the server has to do with a service of that name, and no server of another name has one. So
with a database of the operator no alert is raised while the services of the server are up, and with
an external one some alert is raised as long as no others are. -/
theorem alerts_watch_services {p : Plan} (hns : p.server.metadata.ns = some ns) :
    ∃ rule, Monitoring.prometheusRule p.server = .ok rule ∧ p.Guards rule := by
  obtain ⟨rule, hrule⟩ := exists_rule hns
  exact ⟨rule, hrule, guards_of_rule hns hrule⟩

/-- What the children of the server "a" are built from. -/
def samplePlan : Plan where
  server := stamped 2 (sampleServer "a")
  settings := {}
  serves _ := true
  databasePassword := "database"
  brokerPassword := "broker"
  brokerHost := "messaging.example"
  cookieSecret := "cookie"

/-- The first pass over that server stores alerts that all have a service to watch. -/
theorem alerts_watch_services_sampleCluster : ∃ t c' rule,
    Run flaky (reconcile {} "push" "a").run sampleCluster t (some (.ok (.requeue 30))) c' ∧
    c'.get? .prometheusRule "push" "a-unifiedpush" = some rule ∧
    ∀ alert ∈ PrometheusRule.alerts rule, ∃ label, alert.Watches label ∧
      ∃ service, c'.get? .service "push" label = some service := by
  have hns : samplePlan.server.metadata.ns = some "push" := rfl
  obtain ⟨t, c', hrun⟩ := exists_run_sampleCluster
  have hrun' := hrun.mono flaky_of_reliable
  obtain ⟨rule, -, hguards⟩ := alerts_watch_services hns
  obtain ⟨hrule, live, status, -, -, hservices⟩ :=
    hguards.converged _ _ _ _ _ _ filed_sampleCluster get?_sampleCluster hrun'
  obtain ⟨stored, hstored, halerts⟩ := hrule rfl
  refine ⟨t, c', stored, hrun', hstored, fun alert halert => ?_⟩
  obtain ⟨label, hlabel, hhas⟩ := hguards.all_iff.2 rfl alert (halerts ▸ halert)
  exact ⟨label, hlabel, (hservices label).2 hhas⟩

/-! ## An external database -/

/-- A new server that uses a database that is already there. -/
def attachedServer : Server where
  metadata := { name := some "a", ns := some "push", uid := some "uid-a" }
  spec := {
    externalDB := true
    database := some { name := "push", user := "push", password := "secret", host := "db" } }
  status := none

/-- Only that server is there. -/
def attachedCluster : Cluster := (Cluster.empty.store "push" "a" attachedServer).2

/-- The cluster after a pass over the server in which nothing is refused. -/
def watchedCluster : Cluster :=
  ((reconcile {} "push" "a").run.run (drawing (fun _ => false) "secret") attachedCluster).2

/-- The first pass goes through and stores an alert for a service that is not there, neither under
this name nor with this label. The alert is raised whichever services of the namespace are up. -/
theorem raised_attachedCluster : ∃ (t : Trace) (rule : PrometheusRule) (alert : AlertRule),
    Run reliable (reconcile {} "push" "a").run attachedCluster t (some (.ok (.requeue 30)))
      watchedCluster ∧
    watchedCluster.get? .prometheusRule "push" "a-unifiedpush" = some rule ∧
    alert ∈ PrometheusRule.alerts rule ∧ alert.Watches "a-postgresql" ∧
    (∀ service ∈ (watchedCluster.objects .service "push").values,
      service.metadata.labelsOrEmpty.get? "service" ≠ some "a-postgresql") ∧
    ∀ up : String → Prop,
      (∀ label, up label → ∃ service, watchedCluster.get? .service "push" label = some service) →
      alert.Fires up := by
  have hrun : Run reliable (reconcile {} "push" "a").run attachedCluster _ _ watchedCluster :=
    run_drawing (fun _ _ => rfl) "secret" _ _
  have hended : ((reconcile {} "push" "a").run.run (drawing (fun _ => false) "secret")
      attachedCluster).1 = .ok (.requeue 30) :=
    Rehearsal.eq_ok_of_toOption (by decide +kernel)
  rw [hended] at hrun
  have hrule : (watchedCluster.get? .prometheusRule "push" "a-unifiedpush").any (fun rule =>
      PrometheusRule.alerts rule = Monitoring.alerts attachedServer) = true := by
    decide +kernel
  obtain ⟨rule, hstored, halerts⟩ := (Option.any_eq_true _ _).1 hrule
  obtain ⟨alert, hmem, hwatches⟩ := exists_watches_database attachedServer
  have hnone : watchedCluster.get? .service "push" "a-postgresql" = none := by
    decide +kernel
  have hlabels : ∀ service ∈ (watchedCluster.objects .service "push").values,
      service.metadata.labelsOrEmpty.get? "service" ≠ some "a-postgresql" := by
    decide +kernel
  refine ⟨_, rule, alert, hrun, hstored, of_decide_eq_true halerts ▸ hmem, hwatches, hlabels,
    fun up hup => hwatches.fires_iff.2 fun hdown => ?_⟩
  obtain ⟨service, hservice⟩ := hup _ hdown
  exact absurd (hservice.symm.trans hnone) nofun

end PushOperator
