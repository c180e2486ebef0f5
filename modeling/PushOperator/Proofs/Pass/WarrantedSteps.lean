import PushOperator.Proofs.Pass.Warrants

/-!
# Every write of a pass is warranted

The steps of a pass one by one, then the parts that write the status, and with them a whole pass.
-/

namespace PushOperator

open Child

variable {k : Kind} {settings : Settings} {ns name : String} {server : Server} {t : Trace}
  {known : List Entry}

namespace Pass

/-! ## The steps -/

theorem warrants_reconcileBroker :
    Warrants settings ns name server known reconcileBroker := by
  refine warrants_server_bind ?_
  split
  · exact warrants_pure ()
  refine (warrants_ensure (k := .addressSpace) fun _ =>
    Task.warrants_build fun _ _ => trivial).bind fun space => ?_
  split
  · exact warrants_stop (by decide)
  · refine (warrants_ensure (k := .messagingUser) fun _ => Task.warrants_secret.bind fun _ _ =>
      Task.warrants_build fun _ _ => trivial).bind fun user => ?_
    split
    · exact warrants_fail
    · refine warrants_server_bind ?_
      refine (warrants_ensure (k := .secret) fun _ =>
        Task.warrants_build fun _ _ => trivial).bind fun _ => ?_
      refine (warrants_mapM fun entry _ => ?_).bind fun ready => ?_
      · exact (warrants_ensure (k := .address) fun _ =>
          Task.warrants_build fun _ _ => trivial).bind fun _ => warrants_pure _
      · split
        · exact warrants_stop (by decide)
        · exact warrants_pure ()

theorem warrants_removeLegacy (hk : k ∈ deletedKinds) :
    Warrants settings ns name server known (removeLegacy k) := by
  refine warrants_read_bind rfl fun served => ?_
  split
  · exact warrants_pure ()
  refine warrants_server_bind (warrants_build_bind fun ns' _ => ?_)
  have hlist : Task.Warrants settings ns name server (.call (.probe k.apiVersion) (.ok served) ::
      known) (fun _ => True) (Task.call (.list k ns' ("app=" ++ server.anyName))).attempt := by
    intro t _ hclear _
    refine ⟨warranted_read hclear rfl, fun answer => ?_⟩
    refine ⟨List.subset_append_left t _, ?_, fun _ _ => trivial⟩
    rw [corrected_concat]
    exact not_or.2 ⟨hclear, id⟩
  refine warrants_task_bind hlist ?_
  rintro (error | objects) -
  · dsimp only
    split
    · exact warrants_pure ()
    · exact warrants_fail
  · refine warrants_forM fun object _ => ?_
    refine warrants_task_bind (Task.warrants_call (.delete k object)
      (fun _ => .delete object hk) fun _ => id) fun _ _ => ?_
    exact warrants_report

theorem warrants_removeLegacyKinds :
    Warrants settings ns name server known removeLegacyKinds :=
  (warrants_removeLegacy (by decide)).bind fun _ => warrants_removeLegacy (by decide)

theorem warrants_reconcileClaim (hown : server.spec.externalDB = false) :
    Warrants settings ns name server known
      (reconcileClaim settings (childName server postgresql)) := by
  refine warrants_ensure_bind (fun _ => Task.warrants_build fun _ h => h)
    (fun _ _ => warrants_pure ()) fun found ns' hns => ?_
  refine warrants_server_bind (warrants_build_bind fun desired hdesired => ?_)
  refine warrants_lastCorrection (by decide) hns List.mem_cons_self ?_
  exact fun o => .storage hown hdesired

theorem warrants_reconcileCredentials :
    Warrants settings ns name server known reconcileCredentials := by
  refine warrants_server_bind ?_
  split
  · exact warrants_pure ()
  · refine (warrants_ensure (k := .secret) fun _ => ?_).bind fun _ => warrants_pure ()
    split
    · exact Task.warrants_build fun _ _ => trivial
    · exact Task.warrants_secret.bind fun _ _ => Task.warrants_build fun _ _ => trivial

theorem warrants_noteDeployment {observed : Option Deployment} :
    Warrants settings ns name server known (do
      noteReady (← (Deployment.isReady observed : Task Bool))) :=
  warrants_build_bind fun _ _ => warrants_noteReady

theorem warrants_reconcileDatabaseDeployment (hown : server.spec.externalDB = false) :
    Warrants settings ns name server known
      (reconcileDatabaseDeployment settings (childName server postgresql)) := by
  refine warrants_ensure_bind (fun _ => Task.warrants_build fun _ h => .inl ⟨hown, h⟩)
    (fun _ _ => warrants_noteDeployment) fun found ns' hns => ?_
  refine warrants_server_bind (warrants_build_bind fun desired hdesired => ?_)
  refine warrants_correction (by decide) hns List.mem_cons_self ?_ ?_
  · exact fun o hdrift => .database hown hdesired (.inl hdrift)
  refine warrants_correction (by decide) hns List.mem_cons_self ?_ warrants_noteDeployment
  exact fun o hdrift => .database hown hdesired (.inr hdrift)

theorem warrants_reconcileDatabase :
    Warrants settings ns name server known (reconcileDatabase settings) := by
  refine warrants_server_bind (warrants_server_bind ?_)
  dsimp only
  split
  · next hexternal =>
    have hown : server.spec.externalDB = false := by simpa using hexternal
    refine (warrants_reconcileClaim hown).bind fun _ => ?_
    refine warrants_reconcileCredentials.bind fun _ => ?_
    refine (warrants_reconcileDatabaseDeployment hown).bind fun _ => ?_
    exact (warrants_ensure (k := .service) fun _ =>
      Task.warrants_build fun _ _ => trivial).bind fun _ => warrants_pure ()
  · exact warrants_reconcileCredentials.bind fun _ => warrants_pure ()

theorem warrants_reconcileServerDeployment :
    Warrants settings ns name server known
      (reconcileServerDeployment settings server.anyName) := by
  refine warrants_ensure_bind ?_ (fun _ _ => warrants_noteDeployment) fun found ns' hns => ?_
  · exact fun _ => Task.warrants_secret.bind fun cookieSecret _ =>
      Task.warrants_build fun _ h => .inr ⟨cookieSecret, h⟩
  refine warrants_server_bind (warrants_build_bind fun desired hdesired => ?_)
  refine warrants_correction (by decide) hns List.mem_cons_self ?_ ?_
  · exact fun o hdrift => .frontend hdesired (.inl hdrift)
  refine warrants_correction (by decide) hns List.mem_cons_self ?_ ?_
  · exact fun o hdrift => .frontend hdesired (.inr (.inl hdrift))
  refine warrants_correction (by decide) hns List.mem_cons_self ?_ warrants_noteDeployment
  exact fun o hdrift => .frontend hdesired (.inr (.inr hdrift))

theorem warrants_reconcileFrontend :
    Warrants settings ns name server known (reconcileFrontend settings) := by
  refine warrants_server_bind (warrants_server_bind ?_)
  refine (warrants_ensure (k := .serviceAccount) fun _ =>
    Task.warrants_build fun _ _ => trivial).bind fun _ => ?_
  refine (warrants_ensure (k := .service) fun _ =>
    Task.warrants_build fun _ _ => trivial).bind fun _ => warrants_server_bind ?_
  refine (warrants_ensure (k := .service) fun _ =>
    Task.warrants_build fun _ _ => trivial).bind fun _ => ?_
  refine (warrants_ensure (k := .route) fun _ =>
    Task.warrants_build fun _ _ => trivial).bind fun route => ?_
  exact warrants_noteReady.bind fun _ => warrants_reconcileServerDeployment

/-- A job that is replaced was listed before. -/
theorem warrants_reconcileBackup {ns' selector : String} {existing : List CronJob}
    {desired : CronJob} (hplaced : Cluster.Placed ns' (Cluster.nameOf desired) desired)
    (hlisted : .call (.list .cronJob ns' selector) (.ok existing) ∈ known) :
    Warrants settings ns name server known (reconcileBackup existing desired) := by
  refine warrants_build_bind fun name' _ => ?_
  split
  · next found hfound =>
    split
    · have hjob : Warrant settings server known (.update .cronJob (replacement found desired)) :=
        .job hlisted (List.mem_of_find?_eq_some hfound) hplaced
      refine warrants_task_bind (Task.warrants_call (.update .cronJob _) (fun _ => hjob) ?_)
        fun _ _ => warrants_record
      rintro (error | updated) hcorrects
      · exact hcorrects
      · exact absurd hcorrects.1 (by decide)
    · exact warrants_record
  · refine warrants_server_bind ?_
    refine warrants_task_bind (Task.warrants_createOwned trivial) fun _ _ => ?_
    exact warrants_report.bind fun _ => warrants_record

theorem warrants_removeBackup (desired : List CronJob) (found : CronJob) :
    Warrants settings ns name server known (removeBackup desired found) := by
  unfold removeBackup
  split
  · exact warrants_pure ()
  · refine warrants_task_bind (Task.warrants_call (.delete .cronJob found)
      (fun _ => .delete found (by decide)) fun _ => id) fun _ _ => ?_
    exact warrants_forget.bind fun _ => warrants_report

theorem warrants_reconcileBackups :
    Warrants settings ns name server known (reconcileBackups settings) := by
  refine warrants_server_bind (warrants_build_bind fun ns' hns => ?_)
  refine warrants_build_bind fun desired hdesired => ?_
  have hplaced := placed_cronJobs hdesired (ObjectMeta.requireNs_eq_ok.1 hns)
  have hjobs {known : List Entry} : Warrants settings ns name server known (do
      let existing ← Task.call (.list .cronJob ns' (selector server backup))
      desired.forM (reconcileBackup existing)
      existing.forM (removeBackup desired)) := by
    refine warrants_read_bind rfl fun existing => ?_
    refine (warrants_forM fun job hjob => ?_).bind fun _ => ?_
    · exact warrants_reconcileBackup (hplaced job hjob) List.mem_cons_self
    · exact warrants_forM fun found _ => warrants_removeBackup desired found
  split
  · refine warrants_read_bind rfl fun account => ?_
    split
    · exact hjobs
    · exact (warrants_stop (by decide)).bind fun _ => hjobs
  · exact hjobs

theorem warrants_reconcileSpec {build : Server → Except Error (Object k)} (hk : k ∈ specKinds)
    (hbuilds : ∀ o, build server = .ok o → Builds settings server k o) :
    Warrants settings ns name server known (reconcileSpec build) := by
  refine warrants_server_bind (warrants_build_bind fun desired hdesired => ?_)
  exact warrants_task_bind (Task.warrants_createOrUpdate hk (hbuilds desired hdesired))
    fun ensured _ => warrants_track ensured

theorem warrants_reconcileMonitoring :
    Warrants settings ns name server known reconcileMonitoring := by
  have hdashboard {known : List Entry} : Warrants settings ns name server known (do
      if ← Task.call (.probe Kind.grafanaDashboard.apiVersion) then
        reconcileSpec Monitoring.grafanaDashboard) := by
    refine warrants_read_bind rfl fun served => ?_
    split
    · exact warrants_reconcileSpec (by decide) fun _ _ => trivial
    · exact warrants_pure ()
  have hmonitor {known : List Entry} :
      Warrants settings ns name server known (reconcileSpec Monitoring.serviceMonitor) :=
    warrants_reconcileSpec (by decide) fun _ _ => trivial
  have hrule {known : List Entry} :
      Warrants settings ns name server known (reconcileSpec Monitoring.prometheusRule) :=
    warrants_reconcileSpec (by decide) fun _ _ => trivial
  refine warrants_read_bind rfl fun served => ?_
  split
  · exact hmonitor.bind fun _ => hrule.bind fun _ => hdashboard
  · exact hdashboard

/-- All steps of a pass. -/
theorem warrants_converge : Warrants settings ns name server known (converge settings) :=
  warrants_reconcileBroker.bind fun _ => warrants_removeLegacyKinds.bind fun _ =>
    warrants_reconcileDatabase.bind fun _ => warrants_reconcileFrontend.bind fun _ =>
      warrants_reconcileBackups.bind fun _ => warrants_reconcileMonitoring

theorem warrants_deferToActive : Warrants settings ns name server known deferToActive := by
  refine warrants_server_bind ?_
  split
  · exact warrants_pure ()
  refine warrants_build_bind fun ns' _ => warrants_read_bind rfl fun others => ?_
  split
  · exact warrants_stop (by decide)
  · exact warrants_pure ()

/-! ## Whole passes -/

/-- Where a part of a pass ends that may have written the status, the pass knows the server, and a
correction was accepted exactly when it halts for a second. -/
structure Accounted {α : Type} (ns name : String) (p : Except Halt α × PassState) (t : Trace) :
    Prop where
  fetched : Fetched ns name t p.2.server
  corrected : Corrected t ↔ p.1 = .error (.early (.requeue 1))

/-- A write of the status is warranted by what is known of the server. -/
theorem grounded_persist {st : PassState} (hclear : ¬Corrected t)
    (hfetched : Fetched ns name t st.server) :
    (persist.exec st).Grounded (Warranted settings ns name) (fun p t' =>
      Accounted ns name p t' ∧ ¬Corrected t') t := by
  have hobserved : Fetched ns name t st.server.observe := hfetched.withStatus _
  rw [exec_persist]
  split
  · exact ⟨⟨hobserved, iff_of_false hclear (by simp)⟩, hclear⟩
  refine ⟨⟨hclear, fun _ => ⟨st.server, hfetched, .status _⟩⟩, fun answer => ?_⟩
  have hsub : t ⊆ t ++ [.call (.updateStatus .unifiedPushServer st.server.observe) answer] :=
    List.subset_append_left t _
  have hclear' :
      ¬Corrected (t ++ [.call (.updateStatus .unifiedPushServer st.server.observe) answer]) := by
    rw [corrected_concat]
    exact not_or.2 ⟨hclear, id⟩
  rcases answer with error | updated
  · exact ⟨⟨hfetched.mono hsub, iff_of_false hclear' (by simp)⟩, hclear'⟩
  · dsimp only
    split
    · exact ⟨⟨.written (hobserved.mono hsub) (by simp), iff_of_false hclear' (by simp)⟩, hclear'⟩
    · exact ⟨⟨hfetched.mono hsub, iff_of_false hclear' (by simp)⟩, hclear'⟩

/-- A part of a pass that may write the status. -/
def Carries {α : Type} (settings : Settings) (ns name : String) (x : Pass α) : Prop :=
  ∀ st t, ¬Corrected t → Fetched ns name t st.server →
    (x.exec st).Grounded (Warranted settings ns name) (Accounted ns name) t

theorem Carries.bind {α β : Type} {x : Pass α} {f : α → Pass β} (hx : Carries settings ns name x)
    (hf : ∀ a, Carries settings ns name (f a)) : Carries settings ns name (x >>= f) := by
  intro st t hclear hfetched
  rw [exec_bind]
  refine Interaction.grounded_bind (hx st t hclear hfetched) ?_
  rintro ⟨halt | a, st₁⟩ t₁ ⟨hfetched₁, hcorrected⟩
  · exact ⟨hfetched₁, by simpa using hcorrected⟩
  · exact hf a st₁ t₁ (mt hcorrected.1 (by simp)) hfetched₁

/-- A step leaves the server as the pass knows it. -/
theorem carries_of_warrants {α : Type} {x : Pass α}
    (h : ∀ server, Warrants settings ns name server [] x) : Carries settings ns name x := by
  intro st t hclear hfetched
  refine (h st.server st t rfl (List.nil_subset t) hclear hfetched).mono ?_
  rintro p t' ⟨hserver, hsub, hcorrected⟩
  exact ⟨hserver ▸ hfetched.mono hsub, hcorrected⟩

theorem carries_start : Carries settings ns name start := by
  intro st t hclear hfetched
  rw [exec_start]
  split
  · next hnew =>
    have hstart : Fetched ns name t (Server.start st.server) := by
      unfold Server.start
      rw [if_pos hnew]
      exact hfetched.withStatus _
    have hpersist : (persist.exec { st with server := Server.start st.server }).Grounded
        (Warranted settings ns name) _ t := grounded_persist hclear hstart
    exact hpersist.mono fun _ _ h => h.1
  · exact ⟨hfetched, iff_of_false hclear (by simp)⟩

theorem carries_succeed : Carries settings ns name succeed := by
  intro st t hclear hfetched
  have hsucceed : Fetched ns name t (Server.succeed st.server st.ready st.children) :=
    hfetched.withStatus _
  have hpersist : (persist.exec { st with
      server := Server.succeed st.server st.ready st.children, children := ∅ }).Grounded
        (Warranted settings ns name) _ t := grounded_persist hclear hsucceed
  exact hpersist.mono fun _ _ h => h.1

/-- A pass that has failed has corrected nothing, and all that it may still write is its status. -/
theorem grounded_conclude {error : Error} {st : PassState} (hclear : ¬Corrected t)
    (hfetched : Fetched ns name t st.server) :
    (conclude error st).Grounded (Warranted settings ns name)
      (fun action t' => action = .requeue 5 ∧ ¬Corrected t') t := by
  have hclear' (event : Event) :
      ¬Corrected (t ++ [.event (Server.fail st.server error) event]) := by
    rw [corrected_concat]
    exact not_or.2 ⟨hclear, id⟩
  have hfail (event : Event) : Fetched ns name
      (t ++ [.event (Server.fail st.server error) event]) (Server.fail st.server error) :=
    (hfetched.withStatus _).mono (List.subset_append_left t _)
  refine Interaction.grounded_bind (grounded_persist (hclear' _) (hfail _)) ?_
  rintro p t' ⟨-, hdone⟩
  exact ⟨rfl, hdone⟩

/-- The body of a pass that comes to its end asks for thirty seconds. -/
theorem grounded_body {st : PassState} (hclear : ¬Corrected t)
    (hfetched : Fetched ns name t st.server) :
    ((body settings).exec st).Grounded (Warranted settings ns name)
      (fun p t' => Accounted ns name p t' ∧ ∀ action, p.1 = .ok action → action = .requeue 30)
      t := by
  have hbody : body settings = (do
      deferToActive
      start
      converge settings
      succeed) >>= fun _ => pure (.requeue 30) := by
    simp only [body, bind_assoc]
  rw [hbody, exec_bind]
  have hparts : Carries settings ns name (do
      deferToActive
      start
      converge settings
      succeed) :=
    (carries_of_warrants fun _ => warrants_deferToActive).bind fun _ =>
      carries_start.bind fun _ => (carries_of_warrants fun _ => warrants_converge).bind fun _ =>
        carries_succeed
  refine Interaction.grounded_bind (hparts st t hclear hfetched) ?_
  rintro ⟨halt | u, st'⟩ t' ⟨hfetched', hcorrected⟩
  · exact ⟨⟨hfetched', by simpa using hcorrected⟩, (by simp)⟩
  · refine ⟨⟨hfetched', iff_of_false (mt hcorrected.1 (by simp)) (by simp)⟩, ?_⟩
    intro action h
    exact (Except.ok.inj h).symm

end Pass

/-- Every request of a pass is warranted, and it asks to be run again after a second exactly when a
correction was accepted. -/
theorem grounded_reconcile : (reconcile settings ns name).run.Grounded (Warranted settings ns name)
    (fun r t => Corrected t ↔ r = .ok (.requeue 1)) [] := by
  have hend {action : Action} {t : Trace} (hclear : ¬Corrected t) (h : action ≠ .requeue 1) :
      Corrected t ↔ (.ok action : Except Error Action) = .ok (.requeue 1) :=
    iff_of_false hclear fun heq => h (Except.ok.inj heq)
  cases hwatched : settings.watches ns with
  | false =>
    rw [run_reconcile_of_unwatched hwatched]
    exact hend not_corrected_nil (by decide)
  | true =>
    rw [run_reconcile hwatched]
    refine ⟨warranted_read not_corrected_nil rfl, fun answer => ?_⟩
    have hclear : ¬Corrected ([] ++ [.call (.get .unifiedPushServer ns name) answer]) := by
      rw [corrected_concat]
      exact not_or.2 ⟨not_corrected_nil, not_corrects_of_read rfl⟩
    rcases answer with error | _ | server
    · exact iff_of_false hclear (by simp)
    · exact hend hclear (by decide)
    have hfetched : Fetched ns name
        ([] ++ [.call (.get .unifiedPushServer ns name) (.ok (some server))]) server :=
      .get (by simp)
    dsimp only
    rw [Pass.run_eq, Interaction.bind_assoc]
    refine Interaction.grounded_bind (Pass.grounded_body hclear hfetched) ?_
    rintro ⟨(error | action) | action, st⟩ t ⟨⟨hfetched', hcorrected⟩, hlast⟩
    · have hclear' : ¬Corrected t := mt hcorrected.1 (by simp)
      refine Interaction.grounded_bind (Pass.grounded_conclude hclear' hfetched') ?_
      rintro action t' ⟨rfl, hclear''⟩
      exact hend hclear'' (by decide)
    · simpa [Pass.finish, Interaction.bind, Interaction.Grounded] using hcorrected
    · obtain rfl := hlast action rfl
      exact hend (mt hcorrected.1 (by simp)) (by decide)

/-- What steps of a pass lead to a call, they warrant it. -/
theorem warranted_of_steps {σ : Type} {w : World σ} {s s' : σ} {r : Request}
    {next : Except Error r.Reply → Interaction (Except Error Action)}
    (h : Steps w (reconcile settings ns name).run s t (.call r next) s') :
    Warranted settings ns name t r :=
  (grounded_reconcile.steps h).1

end PushOperator
