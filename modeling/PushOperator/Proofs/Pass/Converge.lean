import PushOperator.Pass.Run
import PushOperator.Proofs.Pass.Backups
import PushOperator.Proofs.Pass.Broker
import PushOperator.Proofs.Pass.Frontend
import PushOperator.Proofs.Pass.Legacy
import PushOperator.Proofs.Pass.Monitoring

/-!
# All steps complete

When all steps of a pass complete, they have recorded the wanted children and created no others, and
the cluster holds what each of them leaves behind: no later step disturbs what an earlier one has
settled. On such a cluster all steps are quiet, and whether the children are ready is a matter of
the cluster alone.
-/

namespace PushOperator.Pass

open Child Cluster

variable {P : Entry → Prop} {c c' : Cluster} {ns name : String} {server : Server}
  {st st' : PassState} {settings : Settings} {u : Unit}

/-- The kinds that the steps write. -/
def childKinds : List Kind :=
  brokerKinds ++ legacyKinds ++ databaseKinds ++ frontendKinds ++ backupKinds ++ monitoringKinds

/-- What the steps leave behind. -/
structure Settled (settings : Settings) (c : Cluster) (ns : String) (server : Server) : Prop where
  broker : server.spec.useMessageBroker = true → BrokerSettled c ns server
  database : DatabaseSettled settings c ns server
  frontend : FrontendSettled settings c ns server
  backups : BackupsSettled settings c ns server
  monitoring : MonitoringSettled c ns server

theorem writesOnly_converge : WritesOnly childKinds (converge settings) := by
  refine (writesOnly_reconcileBroker.mono (by decide)).bind fun _ => ?_
  refine (writesOnly_removeLegacyKinds.mono (by decide)).bind fun _ => ?_
  refine (writesOnly_reconcileDatabase.mono (by decide)).bind fun _ => ?_
  refine (writesOnly_reconcileFrontend.mono (by decide)).bind fun _ => ?_
  refine (writesOnly_reconcileBackups.mono (by decide)).bind fun _ => ?_
  exact writesOnly_reconcileMonitoring.mono (by decide)

/-- What is settled stays settled while its objects stay as they are. -/
theorem Settled.of_shelf (h : Settled settings c ns server) (hserves : c'.serves = c.serves)
    (hshelf : ∀ k ∈ childKinds, c'.shelf k = c.shelf k) : Settled settings c' ns server := by
  have hkeeps (kinds : List Kind) (hkinds : kinds ⊆ childKinds) : ∀ k ∈ kinds, Keeps k c c' :=
    fun k hk => keeps_of_shelf (hshelf k (hkinds hk))
  refine ⟨fun hon => (h.broker hon).mono (hkeeps _ (by decide)), ?_, ?_, ?_, ?_⟩
  · exact h.database.mono (hkeeps _ (by decide))
  · exact h.frontend.mono (hkeeps _ (by decide))
  · exact h.backups.mono (hshelf _ (by decide)) (keeps_of_shelf (hshelf _ (by decide)))
  · exact h.monitoring.mono hserves (hkeeps _ (by decide))

/-- The last of the steps needs a namespace, so a pass that completes is over a server with one. -/
theorem ns_of_converge (h : Completes flaky P (converge settings) st c u st' c') :
    ∃ ns, st.server.metadata.ns = some ns := by
  obtain ⟨_, st₁, c₁, hbroker, hrest₁⟩ := completes_bind.1 h
  obtain ⟨_, st₂, c₂, hlegacy, hrest₂⟩ := completes_bind.1 hrest₁
  obtain ⟨_, st₃, c₃, hdatabase, hrest₃⟩ := completes_bind.1 hrest₂
  obtain ⟨_, st₄, c₄, hfrontend, hrest₄⟩ := completes_bind.1 hrest₃
  obtain ⟨_, st₅, c₅, hbackups, -⟩ := completes_bind.1 hrest₄
  have hserver : st₄.server = st.server := by
    rw [(writesOnly_reconcileFrontend.completes hfrontend).1,
      (writesOnly_reconcileDatabase.completes hdatabase).1,
      (writesOnly_removeLegacyKinds.completes hlegacy).1,
      (writesOnly_reconcileBroker.completes hbroker).1]
  have hrest₅ := completes_server_bind.1 hbackups
  obtain ⟨ns, hns, -⟩ := completes_build_bind.1 hrest₅
  exact ⟨ns, hserver ▸ ObjectMeta.requireNs_eq_ok.1 hns⟩

/-! ## The wanted children and their kinds -/

theorem kind_of_first {child : Kind × String}
    (h : child ∈ Broker.wanted server ++ Database.wanted server ++ Frontend.wanted server) :
    child.1 ∈ brokerKinds ++ databaseKinds ++ frontendKinds := by
  rcases List.mem_append.1 h with hbefore | hfrontend
  · rcases List.mem_append.1 hbefore with hbroker | hdatabase
    · exact List.mem_append_left _ (List.mem_append_left _ (kind_of_broker hbroker))
    · exact List.mem_append_left _ (List.mem_append_right _ (kind_of_database hdatabase))
  · exact List.mem_append_right _ (kind_of_frontend hfrontend)

theorem kind_of_wanted {serves : String → Bool} {child : Kind × String}
    (h : child ∈ wanted server serves) : child.1 ∈ childKinds := by
  have hkinds : brokerKinds ++ databaseKinds ++ frontendKinds ++ backupKinds ++ monitoringKinds ⊆
      childKinds := by decide
  refine hkinds ?_
  rcases List.mem_append.1 h with h | hmonitoring
  · rcases List.mem_append.1 h with hfirst | hbackup
    · exact List.mem_append_left _ (List.mem_append_left _ (kind_of_first hfirst))
    · exact List.mem_append_left _ (List.mem_append_right _ (kind_of_backup hbackup))
  · exact List.mem_append_right _ (kind_of_monitoring hmonitoring)

/-- No job is recorded before the backup step. -/
theorem contains_first {r : Registry} (hfresh : r.contains Kind.cronJob.name name = false) :
    (r.addAll (Broker.wanted server ++ Database.wanted server ++ Frontend.wanted server)).contains
      Kind.cronJob.name name = false := by
  rw [Bool.eq_false_iff, ne_eq, Registry.contains_addAll, hfresh]
  rintro (hrecorded | ⟨k, hk, hmem⟩)
  · cases hrecorded
  · have hkinds : ∀ k ∈ brokerKinds ++ databaseKinds ++ frontendKinds,
        k.name ≠ Kind.cronJob.name := by decide
    exact hkinds k (kind_of_first hmem) hk

/-! ## Readiness -/

/-- Whether all children can be seen to be ready. -/
def childrenReady (c : Cluster) (ns : String) (server : Server) : Bool :=
  databaseReady c ns server && frontendReady c ns server

theorem childrenReady_of_shelf (hshelf : ∀ k ∈ childKinds, c'.shelf k = c.shelf k) :
    childrenReady c' ns server = childrenReady c ns server := by
  have hdeployment := hshelf .deployment (by decide)
  have hroute := hshelf .route (by decide)
  simp only [childrenReady, databaseReady, frontendReady, get?_of_shelf hdeployment,
    get?_of_shelf hroute]

/-- None of the deployments of a server has failed, as far as they are there. -/
structure NoneFailed (c : Cluster) (ns : String) (server : Server) : Prop where
  own : ∃ ready, Deployment.isReady (c.get? .deployment ns server.anyName) = .ok ready
  database : server.spec.externalDB = false →
    ∃ ready, Deployment.isReady (c.get? .deployment ns (childName server postgresql)) = .ok ready

/-! ## What is left behind -/

/-- The steps up to the server step. Readiness is a matter of what was there before them. -/
theorem completes_first {u₁ u₂ u₃ u₄ : Unit} {st₁ st₂ st₃ st₄ : PassState} {c₁ c₂ c₃ c₄ : Cluster}
    (hstep₁ : Completes flaky P reconcileBroker st c u₁ st₁ c₁)
    (hstep₂ : Completes flaky P removeLegacyKinds st₁ c₁ u₂ st₂ c₂)
    (hstep₃ : Completes flaky P (reconcileDatabase settings) st₂ c₂ u₃ st₃ c₃)
    (hstep₄ : Completes flaky P (reconcileFrontend settings) st₃ c₃ u₄ st₄ c₄) (hc : c.Filed)
    (hns : st.server.metadata.ns = some ns) :
    Accounts ns legacyKinds
      (Broker.wanted st.server ++ Database.wanted st.server ++ Frontend.wanted st.server)
      (childrenReady c ns st.server) st c st₄ c₄ ∧ NoneFailed c ns st.server ∧
      (st.server.spec.useMessageBroker = true → BrokerSettled c₄ ns st.server) ∧
      DatabaseSettled settings c₄ ns st.server ∧
      (settings.upsContainerName ≠ settings.oauthProxyContainerName →
        FrontendSettled settings c₄ ns st.server) := by
  obtain ⟨hbroker, hbrokerSettled⟩ := completes_reconcileBroker hstep₁ hc hns
  have hlegacy := completes_removeLegacyKinds hstep₂ hbroker.filed (hbroker.server ▸ hns)
  have hafter₂ := hbroker.trans hlegacy fun child hchild =>
    (by decide : ∀ k ∈ brokerKinds, k ∉ legacyKinds) _ (kind_of_broker hchild)
  rw [List.append_nil] at hafter₂
  -- The broker step sees no deployment, so those that are there are as they were.
  have hunseen (name : String) : (.deployment, name) ∉ Broker.wanted st.server := fun hmem =>
    absurd (kind_of_broker hmem) (by simp [brokerKinds])
  have hsame (name : String) := hafter₂.get?_of_unseen (by decide) (hunseen name)
  obtain ⟨hdatabase, hfailed, hdatabaseSettled⟩ :=
    completes_reconcileDatabase hstep₃ hafter₂.filed (hafter₂.server ▸ hns)
  rw [hafter₂.server, databaseReady_congr (hsame _)] at hdatabase
  rw [hafter₂.server, hsame] at hfailed
  rw [hafter₂.server] at hdatabaseSettled
  have hafter₃ := hafter₂.trans hdatabase (by simp)
  -- Nor does the database step see the route or the deployment of the server.
  have hroute : (.route, childName st.server proxy) ∉
      Broker.wanted st.server ++ Database.wanted st.server := by
    intro hmem
    rcases List.mem_append.1 hmem with hmem | hmem
    · exact absurd (kind_of_broker hmem) (by simp [brokerKinds])
    · exact absurd (kind_of_database hmem) (by simp [databaseKinds])
  have hdeployment : (.deployment, st.server.anyName) ∉
      Broker.wanted st.server ++ Database.wanted st.server := by
    rw [List.mem_append, not_or]
    exact ⟨hunseen _, anyName_not_mem_database⟩
  have hsame' := hafter₃.get?_of_unseen (by decide) hdeployment
  obtain ⟨hfrontend, hfailed', hfrontendSettled⟩ :=
    completes_reconcileFrontend hstep₄ hafter₃.filed (hafter₃.server ▸ hns)
  rw [hafter₃.server, frontendReady_congr (hafter₃.get?_of_unseen (by decide) hroute) hsame']
    at hfrontend
  rw [hafter₃.server, hsame'] at hfailed'
  rw [hafter₃.server] at hfrontendSettled
  refine ⟨by simpa [childrenReady] using hafter₃.trans hfrontend (by simp), ⟨hfailed', hfailed⟩,
    fun hon => ?_, hdatabaseSettled.mono (hfrontend.keeps_all (by simp)), hfrontendSettled⟩
  have hlast := (hlegacy.trans hdatabase (by simp)).trans hfrontend (by simp)
  exact (hbrokerSettled hon).mono (hlast.keeps_all (by decide))

/-- What the steps account for and leave behind when they complete. The monitoring they settle for
any server. That they settle all that belongs to it takes distinct names of its containers and its
backups. -/
theorem completes_converge (h : Completes flaky P (converge settings) st c u st' c') (hc : c.Filed)
    (hns : st.server.metadata.ns = some ns) (hfresh : st.children = ∅) :
    Accounts ns (legacyKinds ++ (backupKinds ++ monitoringKinds)) (wanted st.server c.serves)
      (childrenReady c ns st.server) st c st' c' ∧ NoneFailed c ns st.server ∧
      MonitoringSettled c' ns st.server ∧
      (settings.upsContainerName ≠ settings.oauthProxyContainerName →
        ',' ∉ st.server.anyName.toList → (st.server.spec.backups.map (·.name)).Nodup →
        Settled settings c' ns st.server) := by
  obtain ⟨_, st₁, c₁, hstep₁, hrest₁⟩ := completes_bind.1 h
  obtain ⟨_, st₂, c₂, hstep₂, hrest₂⟩ := completes_bind.1 hrest₁
  obtain ⟨_, st₃, c₃, hstep₃, hrest₃⟩ := completes_bind.1 hrest₂
  obtain ⟨_, st₄, c₄, hstep₄, hrest₄⟩ := completes_bind.1 hrest₃
  obtain ⟨_, st₅, c₅, hstep₅, hstep₆⟩ := completes_bind.1 hrest₄
  obtain ⟨hfirst, hfailed, hbroker, hdatabase, hfrontend⟩ :=
    completes_first hstep₁ hstep₂ hstep₃ hstep₄ hc hns
  have hfresh₄ (name : String) : st₄.children.contains Kind.cronJob.name name = false := by
    rw [hfirst.state]
    exact contains_first (hfresh ▸ rfl)
  obtain ⟨hbackups, hjobs⟩ :=
    completes_reconcileBackups hstep₅ hfirst.filed (hfirst.server ▸ hns) hfresh₄
  obtain ⟨hmonitoring, hmonitored⟩ := completes_reconcileMonitoring hstep₆ hbackups.filed
    (hbackups.server ▸ hfirst.server ▸ hns)
  have hserves : c₅.serves = c.serves := by
    rw [(writesOnly_reconcileBackups.completes hstep₅).2.2.serves,
      (writesOnly_reconcileFrontend.completes hstep₄).2.2.serves,
      (writesOnly_reconcileDatabase.completes hstep₃).2.2.serves,
      (writesOnly_removeLegacyKinds.completes hstep₂).2.2.serves,
      (writesOnly_reconcileBroker.completes hstep₁).2.2.serves]
  have hshelf : c'.shelf .cronJob = c₅.shelf .cronJob :=
    (writesOnly_reconcileMonitoring.completes hstep₆).2.2.shelf _ (by decide)
  -- The last two steps find the server unchanged, and disturb nothing that the others have settled.
  rw [hbackups.server, hserves] at hmonitoring
  rw [hbackups.server] at hmonitored
  have hlast := hbackups.trans hmonitoring fun child hchild =>
    (by decide : ∀ k ∈ backupKinds, k ∉ monitoringKinds) _ (kind_of_backup hchild)
  rw [hfirst.server] at hlast hjobs hmonitored
  have hall := hfirst.trans hlast fun child hchild =>
    (by decide : ∀ k ∈ brokerKinds ++ databaseKinds ++ frontendKinds,
      k ∉ backupKinds ++ monitoringKinds) _ (kind_of_first hchild)
  refine ⟨by simpa [wanted] using hall, hfailed, hmonitored, fun hnames hcomma hdistinct => ?_⟩
  refine ⟨fun hon => ?_, ?_, ?_, ?_, hmonitored⟩
  · exact (hbroker hon).mono (hlast.keeps_all (by decide))
  · exact hdatabase.mono (hlast.keeps_all (by decide))
  · exact (hfrontend hnames).mono (hlast.keeps_all (by decide))
  · exact (hjobs hcomma hdistinct).mono hshelf (hmonitoring.keeps _ (by decide))

/-- When no call fails, nothing that the legacy step would delete is left either. -/
theorem legacySettled_converge (h : Completes reliable P (converge settings) st c u st' c')
    (hc : c.Filed) (hns : st.server.metadata.ns = some ns) : LegacySettled c' ns st.server := by
  obtain ⟨_, st₁, c₁, hstep₁, hrest₁⟩ := completes_bind.1 h
  obtain ⟨_, st₂, c₂, hstep₂, hrest₂⟩ := completes_bind.1 hrest₁
  obtain ⟨hbroker, -⟩ := completes_reconcileBroker (hstep₁.mono flaky_of_reliable) hc hns
  have hsettled := settled_removeLegacyKinds hstep₂ hbroker.filed (hbroker.server ▸ hns)
  have hrest : WritesOnly (databaseKinds ++ frontendKinds ++ backupKinds ++ monitoringKinds) (do
      reconcileDatabase settings
      reconcileFrontend settings
      reconcileBackups settings
      reconcileMonitoring) := by
    refine (writesOnly_reconcileDatabase.mono (by decide)).bind fun _ => ?_
    refine (writesOnly_reconcileFrontend.mono (by decide)).bind fun _ => ?_
    refine (writesOnly_reconcileBackups.mono (by decide)).bind fun _ => ?_
    exact writesOnly_reconcileMonitoring.mono (by decide)
  obtain ⟨-, -, hsame⟩ := hrest.completes (hrest₂.mono flaky_of_reliable)
  rw [hbroker.server] at hsettled
  refine hsettled.of_shelf hsame.serves fun k hk => hsame.shelf k ?_
  revert k
  decide

/-! ## What is looked at -/

theorem quiet_converge (hnames : settings.upsContainerName ≠ settings.oauthProxyContainerName)
    (hc : c.Filed) (hns : server.metadata.ns = some ns) (h : Settled settings c ns server)
    (hlegacy : LegacySettled c ns server) :
    Quiet c server (wanted server c.serves) (childrenReady c ns server) (converge settings) () := by
  have hquiet : Quiet c server
      (Broker.wanted server ++ ([] ++ (Database.wanted server ++ (Frontend.wanted server ++
        (Backup.wanted server ++ Monitoring.wanted server c.serves)))))
      (true && (true && (databaseReady c ns server && (frontendReady c ns server &&
        (true && true)))))
      (converge settings) () := by
    refine (quiet_reconcileBroker hc hns h.broker).bind ?_
    refine (quiet_removeLegacyKinds hns hlegacy).bind ?_
    refine (quiet_reconcileDatabase hc hns h.database).bind ?_
    refine (quiet_reconcileFrontend hnames hc hns h.frontend).bind ?_
    refine (quiet_reconcileBackups hc hns h.backups).bind ?_
    exact quiet_reconcileMonitoring hc hns h.monitoring
  unfold wanted childrenReady
  simpa only [List.nil_append, List.append_assoc, Bool.true_and, Bool.and_true] using hquiet

end PushOperator.Pass
