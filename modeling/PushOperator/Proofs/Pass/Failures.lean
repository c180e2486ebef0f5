import PushOperator.Proofs.Pass.Converge
import PushOperator.Proofs.Pass.Heeds

/-!
# No step passes over a failure

Each step of a pass fails as soon as there is an answer in its way. What is left to see in each of
them is what happens to a child that can not be built, or that is there and can not be gone on with.
-/

namespace PushOperator.Pass

open Child

variable {settings : Settings} {server : Server} {refusal : Error → Prop} {name : String}

/-! ## The broker -/

theorem heeds_reconcileBroker : Heeds settings server refusal reconcileBroker := by
  refine heeds_server_bind ?_
  split
  · exact heeds_pure ()
  have hspace : Explains (Broker.addressSpace server) := explains_namedMeta_bind
  refine (heeds_ensure (k := .addressSpace) (fun _ _ h => h)
    (Task.heeds_build hspace)).bind fun space => ?_
  split
  · exact heeds_stop
  · next host _ =>
    refine heeds_ensure_bind ?_ ?_ ?_ fun user => ?_
    · refine Task.heeds_secret.bind fun password => Task.heeds_build ?_
      exact (explains_namedMeta_bind : Explains (Broker.messagingUser server password))
    · exact fun error h => h.elim
    · rintro found error ⟨-, hpassword, rfl⟩
      rw [Ensured.object, hpassword]
      exact fun _ _ => rfl
    · split
      · exact heeds_fail (.inl (append_ne_empty (by decide) _))
      · next password _ =>
        refine heeds_server_bind ?_
        have hsecret : Explains (Broker.secret server password host) := explains_namedMeta_bind
        refine (heeds_ensure ?_ (Task.heeds_build hsecret)).bind fun _ => ?_
        · -- The secret of the broker is not the one of the database.
          rintro (_ | found) error h
          · exact absurd (childName_inj.1 h.1) (by decide)
          · exact h
        refine (heeds_mapM fun entry hentry => ?_).bind fun ready => ?_
        · refine (heeds_ensure (k := .address) (fun _ _ h => h) ?_).bind fun _ => heeds_pure _
          exact Task.heeds_build (explains_catalogue hentry server)
        · split
          · exact heeds_stop
          · exact heeds_pure ()

/-! ## Legacy objects -/

theorem exec_attempt_bind {β : Type} (r : Request) (f : Except Error r.Reply → Pass β)
    (st : PassState) : ((liftM (Task.call r).attempt : Pass _) >>= f).exec st =
      .call r fun answer => (f answer).exec st :=
  rfl

/-- The step passes over one error only: that there is no such kind. -/
theorem heeds_removeLegacy {k : Kind} (hk : k ∈ legacyKinds) :
    Heeds settings server refusal (removeLegacy k) := by
  refine (heeds_liftM (Task.heeds_call (.probe k.apiVersion) fun _ _ h => h)).bind fun served => ?_
  split
  · exact heeds_pure ()
  refine heeds_server_bind ((heeds_build server.metadata.explains_requireNs).bind fun ns => ?_)
  rintro st hserver hdistinct
  rw [exec_attempt_bind]
  rintro (error | objects) hanswer
  · dsimp only
    split
    · next hnotFound =>
      refine ⟨heeds_pure () st hserver hdistinct, ?_⟩
      rintro _ ⟨htolerates, -⟩
      exact absurd ⟨hk, hnotFound⟩ htolerates
    · refine ⟨heeds_fail (.inr (hanswer error rfl)) st hserver hdistinct, ?_⟩
      rintro _ ⟨-, rfl⟩
      rfl
  · refine ⟨heeds_forM (fun object _ => ?_) st hserver hdistinct, fun error h => h.elim⟩
    refine (heeds_liftM (Task.heeds_call (.delete k object) fun _ _ h => h)).bind fun _ => ?_
    exact heeds_report (by decide)

theorem heeds_removeLegacyKinds : Heeds settings server refusal removeLegacyKinds :=
  (heeds_removeLegacy (by decide)).bind fun _ => heeds_removeLegacy (by decide)

/-! ## The database -/

theorem heeds_reconcileClaim :
    Heeds settings server refusal (reconcileClaim settings (childName server postgresql)) := by
  refine heeds_ensure_bind (Task.heeds_build (explains_claim server)) ?_ ?_ fun claim => ?_
  · rintro error ⟨-, hclaim⟩
    exact hclaim
  · rintro found error ⟨-, hclaim⟩
    exact stops_server_bind (stops_build_bind hclaim)
  · split
    · exact heeds_pure ()
    · refine heeds_server_bind ((heeds_build (explains_claim server)).bind fun desired => ?_)
      refine (heeds_liftM (Task.heeds_applyCorrection _)).bind fun _ => ?_
      exact heeds_stopCorrected

/-- Whether the credentials can be built does not depend on the password. -/
theorem error_databaseSecret {password : String} {error : Error}
    (h : Database.secret server password = .error error) (password' : String) :
    Database.secret server password' = .error error := by
  refine error_bind_congr h fun ns hns => ?_
  cases hexternal : server.spec.externalDB with
  | true =>
    rw [hexternal] at hns
    exact hns
  | false =>
    rw [hexternal] at hns
    refine error_bind_congr (x := objectMeta server postgresql) hns fun m hm => ?_
    cases hm

theorem heeds_reconcileCredentials : Heeds settings server refusal reconcileCredentials := by
  refine heeds_server_bind ?_
  split
  · exact heeds_pure ()
  · refine heeds_ensure_bind ?_ ?_ (fun _ _ h => h.elim) fun _ => heeds_pure ()
    · split
      · exact (Task.heeds_pure "").bind fun password =>
          Task.heeds_build (explains_databaseSecret server password)
      · exact Task.heeds_secret.bind fun password =>
          Task.heeds_build (explains_databaseSecret server password)
    · rintro error ⟨-, hsecret⟩
      split
      · exact hsecret
      · exact fun text => error_databaseSecret hsecret text

theorem heeds_reconcileDatabaseDeployment : Heeds settings server refusal
    (reconcileDatabaseDeployment settings (childName server postgresql)) := by
  have hbuild : Task.Heeds settings server refusal (liftM (Database.deployment server settings)) :=
    Task.heeds_build (explains_databaseDeployment server)
  refine heeds_ensure_bind hbuild ?_ ?_ fun deployment => ?_
  · rintro error (⟨-, hdefect⟩ | ⟨hname, -⟩)
    · exact hdefect
    · exact absurd hname (childName_ne_anyName server _)
  · rintro found error (⟨-, hdefect⟩ | ⟨hname, -⟩)
    · refine stops_server_bind ?_
      rcases hdefect with hdesired | ⟨desired, hdesired, hresources, himages, hfailed⟩
      · exact stops_build_bind hdesired
      · rw [hdesired]
        refine stops_correction hresources (stops_correction (himages _ (by simp)) ?_)
        exact stops_build_bind hfailed
    · exact absurd hname (childName_ne_anyName server _)
  · have hready (observed : Option Deployment) : Heeds settings server refusal (do
        noteReady (← (Deployment.isReady observed : Task Bool))) :=
      (heeds_build (Deployment.explains_isReady observed)).bind fun _ => heeds_noteReady
    split
    · exact hready _
    · refine heeds_server_bind ?_
      refine (heeds_build (explains_databaseDeployment server)).bind fun desired => ?_
      refine (heeds_liftM (Task.heeds_applyCorrection _)).bind fun _ => ?_
      refine heeds_stopCorrected.bind fun _ => ?_
      refine (heeds_liftM (Task.heeds_applyCorrection _)).bind fun _ => ?_
      exact heeds_stopCorrected.bind fun _ => hready _

theorem heeds_reconcileDatabase :
    Heeds settings server refusal (reconcileDatabase settings) := by
  refine heeds_server_bind (heeds_server_bind ?_)
  dsimp only
  split
  · refine heeds_reconcileClaim.bind fun _ => heeds_reconcileCredentials.bind fun _ => ?_
    refine heeds_reconcileDatabaseDeployment.bind fun _ => ?_
    have hservice : Explains (Database.service server) := explains_namedMeta_bind
    refine (heeds_ensure (k := .service) (fun _ _ h => h) (Task.heeds_build hservice)).bind ?_
    exact fun _ => heeds_pure ()
  · exact heeds_reconcileCredentials.bind fun _ => heeds_pure ()

/-! ## The server and its proxy -/

/-- Whether the deployment can be built does not depend on the cookie secret. -/
theorem error_serverDeployment {cookieSecret : String} {error : Error}
    (h : Frontend.deployment server settings cookieSecret = .error error) (cookieSecret' : String) :
    Frontend.deployment server settings cookieSecret' = .error error := by
  refine error_bind_congr h fun ups hups => ?_
  refine error_bind_congr hups fun proxy hproxy => ?_
  refine error_bind_congr hproxy fun m hm => ?_
  cases hm

theorem heeds_reconcileServerDeployment : Heeds settings server refusal
    (reconcileServerDeployment settings server.anyName) := by
  refine heeds_ensure_bind ?_ ?_ ?_ fun deployment => ?_
  · exact Task.heeds_secret.bind fun cookieSecret =>
      Task.heeds_build (explains_serverDeployment server cookieSecret)
  · rintro error (⟨hname, -⟩ | ⟨-, hdefect⟩)
    · exact absurd hname.symm (childName_ne_anyName server _)
    · exact fun text => error_serverDeployment hdefect text
  · rintro found error (⟨hname, -⟩ | ⟨-, hdefect⟩)
    · exact absurd hname.symm (childName_ne_anyName server _)
    · refine stops_server_bind ?_
      rcases hdefect with hdesired | ⟨desired, hdesired, hresources, himages, hfailed⟩
      · exact stops_build_bind hdesired
      · rw [hdesired]
        refine stops_correction hresources (stops_correction (himages _ (by simp)) ?_)
        exact stops_correction (himages _ (by simp)) (stops_build_bind hfailed)
  · have hready (observed : Option Deployment) : Heeds settings server refusal (do
        noteReady (← (Deployment.isReady observed : Task Bool))) :=
      (heeds_build (Deployment.explains_isReady observed)).bind fun _ => heeds_noteReady
    split
    · exact hready _
    · refine heeds_server_bind ?_
      refine (heeds_build (explains_serverDeployment server "")).bind fun desired => ?_
      refine (heeds_liftM (Task.heeds_applyCorrection _)).bind fun _ => ?_
      refine heeds_stopCorrected.bind fun _ => ?_
      refine (heeds_liftM (Task.heeds_applyCorrection _)).bind fun _ => ?_
      refine heeds_stopCorrected.bind fun _ => ?_
      refine (heeds_liftM (Task.heeds_applyCorrection _)).bind fun _ => ?_
      exact heeds_stopCorrected.bind fun _ => hready _

theorem heeds_reconcileFrontend : Heeds settings server refusal (reconcileFrontend settings) := by
  refine heeds_server_bind (heeds_server_bind ?_)
  have haccount : Explains (Frontend.serviceAccount server) := explains_namedMeta_bind
  have hproxy : Explains (Frontend.proxyService server) := explains_namedMeta_bind
  have hservice : Explains (Frontend.serverService server) := explains_namedMeta_bind
  have hroute : Explains (Frontend.proxyRoute server) := explains_namedMeta_bind
  refine (heeds_ensure (k := .serviceAccount) (fun _ _ h => h)
    (Task.heeds_build haccount)).bind fun _ => ?_
  refine (heeds_ensure (k := .service) (fun _ _ h => h)
    (Task.heeds_build hproxy)).bind fun _ => heeds_server_bind ?_
  refine (heeds_ensure (k := .service) (fun _ _ h => h)
    (Task.heeds_build hservice)).bind fun _ => ?_
  refine (heeds_ensure (k := .route) (fun _ _ h => h)
    (Task.heeds_build hroute)).bind fun route => ?_
  exact heeds_noteReady.bind fun _ => heeds_reconcileServerDeployment

/-! ## Backups and monitoring -/

theorem heeds_reconcileBackup (existing : List CronJob) (desired : CronJob) :
    Heeds settings server refusal (reconcileBackup existing desired) := by
  refine (heeds_build desired.metadata.explains_requireName).bind fun name => ?_
  split
  · split
    · refine (heeds_liftM (Task.heeds_call (.update .cronJob _) fun _ _ h => h)).bind fun _ => ?_
      exact heeds_record
    · exact heeds_record
  · refine heeds_server_bind ?_
    refine (heeds_liftM (Task.heeds_createOwned server desired)).bind fun _ => ?_
    exact (heeds_report (by decide)).bind fun _ => heeds_record

theorem heeds_removeBackup (desired : List CronJob) (found : CronJob) :
    Heeds settings server refusal (removeBackup desired found) := by
  unfold removeBackup
  split
  · exact heeds_pure ()
  · refine (heeds_liftM (Task.heeds_call (.delete .cronJob found) fun _ _ h => h)).bind fun _ => ?_
    exact heeds_forget.bind fun _ => heeds_report (by decide)

theorem heeds_reconcileBackups : Heeds settings server refusal (reconcileBackups settings) := by
  refine heeds_server_bind ((heeds_build server.metadata.explains_requireNs).bind fun ns => ?_)
  refine (heeds_build (explains_cronJobs server)).bind fun desired => ?_
  have hjobs : Heeds settings server refusal (do
      let existing ← Task.call (.list .cronJob ns (selector server backup))
      desired.forM (reconcileBackup existing)
      existing.forM (removeBackup desired)) := by
    refine (heeds_liftM (Task.heeds_call (.list .cronJob ns _) fun _ _ h => h)).bind ?_
    intro existing
    refine (heeds_forM fun job _ => heeds_reconcileBackup existing job).bind fun _ => ?_
    exact heeds_forM fun found _ => heeds_removeBackup desired found
  split
  · refine (heeds_liftM (Task.heeds_call (.get .serviceAccount ns _) fun _ _ h => h.2)).bind ?_
    intro account
    split
    · exact hjobs
    · exact heeds_stop.bind fun _ => hjobs
  · exact hjobs

theorem heeds_reconcileSpec {k : Kind} {build : Server → Except Error (Object k)}
    (hk : ∀ name found error, ¬childDefect settings server k name found error)
    (hbuild : Explains (build server)) :
    Heeds settings server refusal (reconcileSpec build) := by
  refine heeds_server_bind ((heeds_build hbuild).bind fun desired => ?_)
  exact (heeds_liftM (Task.heeds_createOrUpdate hk)).bind fun ensured => heeds_track ensured

theorem heeds_reconcileMonitoring : Heeds settings server refusal reconcileMonitoring := by
  have hmonitor : Heeds settings server refusal (reconcileSpec Monitoring.serviceMonitor) :=
    heeds_reconcileSpec (fun _ _ _ h => h) explains_namedMeta_bind
  have hrule : Heeds settings server refusal (reconcileSpec Monitoring.prometheusRule) :=
    heeds_reconcileSpec (fun _ _ _ h => h) explains_namedMeta_bind
  have hdashboard : Heeds settings server refusal (do
      if ← Task.call (.probe Kind.grafanaDashboard.apiVersion) then
        reconcileSpec Monitoring.grafanaDashboard) := by
    refine (heeds_liftM (Task.heeds_call (.probe _) fun _ _ h => h)).bind fun served => ?_
    split
    · exact heeds_reconcileSpec (fun _ _ _ h => h) explains_namedMeta_bind
    · exact heeds_pure ()
  refine (heeds_liftM (Task.heeds_call (.probe _) fun _ _ h => h)).bind fun served => ?_
  split
  · exact hmonitor.bind fun _ => hrule.bind fun _ => hdashboard
  · exact hdashboard

/-- All steps of a pass. -/
theorem heeds_converge : Heeds settings server refusal (converge settings) :=
  heeds_reconcileBroker.bind fun _ => heeds_removeLegacyKinds.bind fun _ =>
    heeds_reconcileDatabase.bind fun _ => heeds_reconcileFrontend.bind fun _ =>
      heeds_reconcileBackups.bind fun _ => heeds_reconcileMonitoring

end PushOperator.Pass
