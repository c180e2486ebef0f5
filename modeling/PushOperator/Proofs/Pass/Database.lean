import PushOperator.Pass.Database
import PushOperator.Proofs.Child.Wanted
import PushOperator.Proofs.Drift
import PushOperator.Proofs.Pass.Ensure

/-!
# The database step completes

Unless the server brings its own database, a database step that completes has left the claim with
the wanted storage and the deployment with the wanted resources and image. On what it leaves behind
it is quiet.
-/

namespace PushOperator

/-- Whether a deployment can be seen to be ready. -/
def Deployment.seemsReady (deployment : Option Deployment) : Bool :=
  match Deployment.isReady deployment with
  | .ok ready => ready
  | .error _ => false

/-- A deployment without status is not in the middle of anything. -/
theorem Deployment.isReady_of_status_none {deployment : Deployment} (h : deployment.status = none) :
    Deployment.isReady (some deployment) = .ok true := by
  obtain ⟨metadata, spec, status⟩ := deployment
  obtain rfl : status = none := h
  rfl

namespace Pass

open Child Cluster

variable {P : Entry → Prop} {c c' : Cluster} {ns name : String} {server : Server}
  {st st' : PassState} {settings : Settings} {u : Unit}

/-- The kinds that the database step writes. -/
def databaseKinds : List Kind := [.persistentVolumeClaim, .secret, .deployment, .service]

theorem kind_of_database {child : Kind × String} (h : child ∈ Database.wanted server) :
    child.1 ∈ databaseKinds := by
  unfold Database.wanted at h
  dsimp only at h
  split at h
  · split at h
    · cases h
    · obtain rfl := List.mem_singleton.1 h
      simp [databaseKinds]
  · simp only [List.mem_cons, List.not_mem_nil, or_false] at h
    rcases h with rfl | rfl | rfl | rfl <;> simp [databaseKinds]

/-- The deployment of the database is another one than that of the server. -/
theorem anyName_not_mem_database : (.deployment, server.anyName) ∉ Database.wanted server := by
  have hne := Ne.symm (childName_ne_anyName server postgresql)
  unfold Database.wanted
  dsimp only
  split
  · split <;> simp
  · simp [hne]

/-- A deployment is there, has not failed, and its containers match those of the wanted one. -/
def DeploymentSettled (c : Cluster) (ns name : String) (wanted : Except Error Deployment) : Prop :=
  ∃ found desired, c.get? .deployment ns name = some found ∧ wanted = .ok desired ∧
    Deployment.Matches found desired ∧ ∃ ready, Deployment.isReady (some found) = .ok ready

/-- A claim is there and asks for the storage of the wanted one. -/
def ClaimSettled (c : Cluster) (ns name : String) (wanted : Except Error Claim) : Prop :=
  ∃ found desired, c.get? .persistentVolumeClaim ns name = some found ∧ wanted = .ok desired ∧
    Claim.storage? found = Claim.storage? desired

/-- What the database step leaves behind. -/
structure DatabaseSettled (settings : Settings) (c : Cluster) (ns : String) (server : Server) :
    Prop where
  claim : server.spec.externalDB = false →
    ClaimSettled c ns (childName server postgresql) (Database.claim server settings)
  secret : (server.spec.externalDB && Database.namesSecret server) = false →
    ∃ secret, c.get? .secret ns (Database.secretName server) = some secret
  deployment : server.spec.externalDB = false →
    DeploymentSettled c ns (childName server postgresql) (Database.deployment server settings)
  service : server.spec.externalDB = false →
    ∃ service, c.get? .service ns (childName server postgresql) = some service

theorem DeploymentSettled.mono {wanted : Except Error Deployment}
    (h : DeploymentSettled c ns name wanted) (hkeeps : Keeps .deployment c c') :
    DeploymentSettled c' ns name wanted := by
  obtain ⟨found, desired, hfound, hrest⟩ := h
  exact ⟨found, desired, hkeeps _ _ _ hfound, hrest⟩

theorem ClaimSettled.mono {wanted : Except Error Claim}
    (h : ClaimSettled c ns name wanted) (hkeeps : Keeps .persistentVolumeClaim c c') :
    ClaimSettled c' ns name wanted := by
  obtain ⟨found, desired, hfound, hrest⟩ := h
  exact ⟨found, desired, hkeeps _ _ _ hfound, hrest⟩

theorem DatabaseSettled.mono (h : DatabaseSettled settings c ns server)
    (hkeeps : ∀ k ∈ databaseKinds, Keeps k c c') : DatabaseSettled settings c' ns server where
  claim hown := (h.claim hown).mono (hkeeps _ (by decide))
  secret hneeded := (hkeeps _ (by decide)).exists_get? (h.secret hneeded)
  deployment hown := (h.deployment hown).mono (hkeeps _ (by decide))
  service hown := (hkeeps _ (by decide)).exists_get? (h.service hown)

/-! ## What is written -/

theorem writesOnly_reconcileClaim {kinds : List Kind} (hk : .persistentVolumeClaim ∈ kinds) :
    WritesOnly kinds (reconcileClaim settings name) := by
  refine (writesOnly_ensure hk fun server => Task.obeys_build).bind fun claim => ?_
  split
  · exact writesOnly_pure
  · refine writesOnly_server.bind fun server => writesOnly_build.bind fun desired => ?_
    refine (writesOnly_liftM (Task.obeys_applyCorrection hk)).bind fun did => ?_
    exact writesOnly_stopCorrected

theorem writesOnly_reconcileCredentials : WritesOnly databaseKinds reconcileCredentials := by
  refine writesOnly_server.bind fun server => ?_
  split
  · exact writesOnly_pure
  · refine (writesOnly_ensure (by decide) fun server => ?_).bind fun _ => writesOnly_pure
    split
    · have hempty : Task.Obeys (writesOnly databaseKinds) (fun _ => True) (pure "" : Task String) :=
        Task.obeys_pure trivial
      exact Task.obeys_bind hempty fun _ _ => Task.obeys_build
    · exact Task.obeys_bind Task.obeys_secret fun _ _ => Task.obeys_build

theorem writesOnly_reconcileDatabaseDeployment {kinds : List Kind} (hk : .deployment ∈ kinds) :
    WritesOnly kinds (reconcileDatabaseDeployment settings name) := by
  refine (writesOnly_ensure hk fun server => Task.obeys_build).bind fun deployment => ?_
  split
  · exact writesOnly_build.bind fun _ => writesOnly_noteReady
  · refine writesOnly_server.bind fun server => writesOnly_build.bind fun desired => ?_
    refine (writesOnly_liftM (Task.obeys_applyCorrection hk)).bind fun _ => ?_
    refine writesOnly_stopCorrected.bind fun _ => ?_
    refine (writesOnly_liftM (Task.obeys_applyCorrection hk)).bind fun _ => ?_
    refine writesOnly_stopCorrected.bind fun _ => ?_
    exact writesOnly_build.bind fun _ => writesOnly_noteReady

theorem writesOnly_reconcileDatabase : WritesOnly databaseKinds (reconcileDatabase settings) := by
  refine writesOnly_server.bind fun server => writesOnly_server.bind fun server' => ?_
  split
  · refine (writesOnly_reconcileClaim (by decide)).bind fun _ => ?_
    refine writesOnly_reconcileCredentials.bind fun _ => ?_
    refine (writesOnly_reconcileDatabaseDeployment (by decide)).bind fun _ => ?_
    refine (writesOnly_ensure (by decide) fun server => Task.obeys_build).bind fun _ => ?_
    exact writesOnly_pure
  · exact writesOnly_reconcileCredentials.bind fun _ => writesOnly_pure

/-! ## What is left behind -/

theorem completes_reconcileClaim
    (h : Completes flaky P (reconcileClaim settings name) st c u st' c') (hc : c.Filed)
    (hns : st.server.metadata.ns = some ns)
    (hname : childName st.server postgresql = name) :
    Accounts ns [] [(.persistentVolumeClaim, name)] true st c st' c' ∧
      ClaimSettled c' ns name (Database.claim st.server settings) := by
  obtain ⟨claim, st₁, c₁, hensure, hrest⟩ := completes_bind.1 h
  obtain ⟨hclaim, -, hthere, hcreated⟩ := hensure.ensure hc hns (Task.makes_ofExcept fun o ho =>
    ⟨hname ▸ (places_claim settings).placed hns ho, ho⟩)
  cases claim with
  | created live =>
    obtain ⟨-, rfl, rfl⟩ := completes_pure.1 hrest
    obtain ⟨built, hbuilt, hspec, -⟩ := hcreated live rfl
    exact ⟨hclaim, live, built, hthere, hbuilt, Claim.storage?_of_spec hspec⟩
  | found live =>
    have hrest₁ := completes_server_bind.1 hrest
    obtain ⟨desired, hdesired, hrest₂⟩ := completes_build_bind.1 hrest₁
    obtain ⟨did, _, hcheck, hstop⟩ := completes_liftM_bind.1 hrest₂
    obtain ⟨hnone, rfl, rfl⟩ := completes_correction hcheck hstop
    rw [hclaim.server] at hdesired
    exact ⟨hclaim, live, desired, hthere, hdesired, Claim.storageDrift_eq_none.1 hnone⟩

/-- When the step makes a secret, it is one that the operator names. -/
theorem secretName_eq (h : (server.spec.externalDB && Database.namesSecret server) = false) :
    Database.secretName server = childName server postgresql := by
  unfold Database.secretName
  unfold Database.namesSecret at h
  cases hsecret : server.spec.databaseSecret with
  | none => rfl
  | some secret => simp_all

theorem completes_reconcileCredentials (h : Completes flaky P reconcileCredentials st c u st' c')
    (hc : c.Filed) (hns : st.server.metadata.ns = some ns) :
    Accounts ns []
      (if st.server.spec.externalDB && Database.namesSecret st.server then []
        else [(.secret, Database.secretName st.server)]) true st c st' c' := by
  have hrest := completes_server_bind.1 h
  split at hrest
  · next hnamed =>
    obtain ⟨-, rfl, rfl⟩ := completes_pure.1 hrest
    rw [if_pos hnamed]
    exact .refl _ hc
  · next hneeded =>
    rw [if_neg hneeded]
    obtain ⟨secret, st₁, c₁, hensure, hend⟩ := completes_bind.1 hrest
    obtain ⟨-, rfl, rfl⟩ := completes_pure.1 hend
    have hbuild (password : String) : Task.Makes (Placed ns (Database.secretName st.server))
        (liftM (Database.secret st.server password)) := by
      rw [secretName_eq (eq_false_of_ne_true hneeded)]
      exact Task.makes_of_places (places_databaseSecret password) rfl hns
    refine (hensure.ensure_exists hc hns ?_).1
    split
    · exact hbuild ""
    · exact Task.makes_secret hbuild

/-- A deployment counts as ready when it was there before and could be seen to be ready. One that
has failed would have ended the pass. -/
theorem accounts_noteDeployment {st₁ : PassState} {c₁ : Cluster} {observed : Option Deployment}
    (h : Accounts ns [] [(.deployment, name)] true st c st₁ c₁)
    (hobserved : observed = c.get? .deployment ns name)
    (hend : Completes flaky P (do noteReady (← (Deployment.isReady observed : Task Bool)))
      st₁ c₁ u st' c') :
    Accounts ns [] [(.deployment, name)] (Deployment.seemsReady (c.get? .deployment ns name))
      st c st' c' ∧ c' = c₁ ∧
      ∃ ready, Deployment.isReady (c.get? .deployment ns name) = .ok ready := by
  obtain ⟨ready, hready, hnote⟩ := completes_build_bind.1 hend
  obtain ⟨hnoted, rfl⟩ := accounts_noteReady h.filed hnote
  rw [← hobserved, Deployment.seemsReady, hready]
  exact ⟨h.trans hnoted (by simp), rfl, ready, rfl⟩

theorem completes_reconcileDatabaseDeployment
    (h : Completes flaky P (reconcileDatabaseDeployment settings name) st c u st' c')
    (hc : c.Filed) (hns : st.server.metadata.ns = some ns)
    (hname : childName st.server postgresql = name) :
    Accounts ns [] [(.deployment, name)] (Deployment.seemsReady (c.get? .deployment ns name))
      st c st' c' ∧
      (∃ ready, Deployment.isReady (c.get? .deployment ns name) = .ok ready) ∧
      DeploymentSettled c' ns name (Database.deployment st.server settings) := by
  obtain ⟨deployment, st₁, c₁, hensure, hrest⟩ := completes_bind.1 h
  obtain ⟨hdeployment, hobserved, hthere, hcreated⟩ :=
    hensure.ensure hc hns (Task.makes_ofExcept fun o ho =>
      ⟨hname ▸ (places_databaseDeployment settings).placed hns ho, ho⟩)
  cases deployment with
  | created live =>
    obtain ⟨hnoted, rfl, hready⟩ := accounts_noteDeployment hdeployment hobserved hrest
    obtain ⟨built, hbuilt, hspec, hstatus⟩ := hcreated live rfl
    refine ⟨hnoted, hready, live, built, hthere, hbuilt, ?_, true, ?_⟩
    · exact Deployment.matches_of_spec (nodup_databaseContainers hbuilt) hspec
    · exact Deployment.isReady_of_status_none (hstatus.trans (status_databaseDeployment hbuilt))
  | found live =>
    have hrest₁ := completes_server_bind.1 hrest
    obtain ⟨desired, hdesired, hrest₂⟩ := completes_build_bind.1 hrest₁
    obtain ⟨hresources, hrest₃⟩ := Completes.correction hrest₂
    obtain ⟨himage, hend⟩ := Completes.correction hrest₃
    obtain ⟨hnoted, rfl, hready⟩ := accounts_noteDeployment hdeployment hobserved hend
    rw [hdeployment.server] at hdesired
    have hmatches := (matches_databaseDeployment_iff hdesired).2 ⟨hresources, himage⟩
    refine ⟨hnoted, hready, live, desired, hthere, hdesired, hmatches, ?_⟩
    rwa [← hobserved] at hready

/-- Whether the database can be seen to be ready; one that is not the operator's always is. -/
def databaseReady (c : Cluster) (ns : String) (server : Server) : Bool :=
  server.spec.externalDB ||
    Deployment.seemsReady (c.get? .deployment ns (childName server postgresql))

theorem databaseReady_congr
    (h : c'.get? .deployment ns (childName server postgresql) =
      c.get? .deployment ns (childName server postgresql)) :
    databaseReady c' ns server = databaseReady c ns server := by
  unfold databaseReady
  rw [h]

theorem completes_reconcileDatabase
    (h : Completes flaky P (reconcileDatabase settings) st c u st' c')
    (hc : c.Filed) (hns : st.server.metadata.ns = some ns) :
    Accounts ns [] (Database.wanted st.server) (databaseReady c ns st.server) st c st' c' ∧
      (st.server.spec.externalDB = false →
        ∃ ready, Deployment.isReady (c.get? .deployment ns (childName st.server postgresql)) =
          .ok ready) ∧
      DatabaseSettled settings c' ns st.server := by
  have hrest := completes_server_bind.1 h
  have hrest' := completes_server_bind.1 hrest
  unfold Database.wanted databaseReady
  cases hexternal : st.server.spec.externalDB with
  | true =>
    rw [hexternal] at hrest'
    obtain ⟨_, st₁, c₁, hsecret, hend⟩ := completes_bind.1 hrest'
    obtain ⟨-, rfl, rfl⟩ := completes_pure.1 hend
    have hsecret' := completes_reconcileCredentials hsecret hc hns
    rw [hexternal, Bool.true_and] at hsecret'
    have hown : st.server.spec.externalDB ≠ false := by simp [hexternal]
    refine ⟨hsecret', by simp, fun h => absurd h hown, fun hneeded => ?_, fun h => absurd h hown,
      fun h => absurd h hown⟩
    rw [hexternal, Bool.true_and] at hneeded
    exact hsecret'.present (.secret, Database.secretName st.server) (by simp [hneeded])
  | false =>
    rw [hexternal] at hrest'
    obtain ⟨_, st₁, c₁, hclaim, hrest₁⟩ := completes_bind.1 hrest'
    obtain ⟨hclaim', hclaimed⟩ := completes_reconcileClaim hclaim hc hns rfl
    obtain ⟨_, st₂, c₂, hsecret, hrest₂⟩ := completes_bind.1 hrest₁
    have hsecret' :=
      completes_reconcileCredentials hsecret hclaim'.filed (hclaim'.server ▸ hns)
    rw [hclaim'.server, hexternal, Bool.false_and, if_neg Bool.false_ne_true] at hsecret'
    have hcredentials := hclaim'.trans hsecret' (by simp)
    obtain ⟨_, st₃, c₃, hdeployment, hrest₃⟩ := completes_bind.1 hrest₂
    obtain ⟨hdeployment', hready, hdeployed⟩ := completes_reconcileDatabaseDeployment hdeployment
      hcredentials.filed (hcredentials.server ▸ hns) (by rw [hcredentials.server])
    rw [hcredentials.get?_of_unseen (by simp) (by simp)] at hdeployment' hready
    rw [hcredentials.server] at hdeployed
    have hworkload := hcredentials.trans hdeployment' (by simp)
    obtain ⟨service, st₄, c₄, hservice, hend⟩ := completes_bind.1 hrest₃
    obtain ⟨-, rfl, rfl⟩ := completes_pure.1 hend
    obtain ⟨hservice', -, hserved⟩ := hservice.ensure_exists hworkload.filed
      (hworkload.server ▸ hns)
      (Task.makes_of_places places_databaseService hworkload.server hns)
    have hall := hworkload.trans hservice' (by simp)
    have hafter := (hsecret'.trans hdeployment' (by simp)).trans hservice' (by simp)
    refine ⟨by simpa using hall, fun _ => hready, fun _ => ?_, fun _ => ?_, fun _ => ?_,
      fun _ => ⟨_, hserved⟩⟩
    · exact hclaimed.mono (hafter.keeps _ (by simp))
    · exact hall.present (.secret, Database.secretName st.server) (by simp)
    · exact hdeployed.mono (hservice'.keeps _ (by simp))

/-! ## What is looked at -/

theorem quiet_reconcileClaim (hc : c.Filed) (hns : server.metadata.ns = some ns)
    (h : ClaimSettled c ns name (Database.claim server settings)) :
    Quiet c server [(.persistentVolumeClaim, name)] true (reconcileClaim settings name) () := by
  obtain ⟨found, desired, hfound, hdesired, hstorage⟩ := h
  refine (quiet_ensure hc hns hfound).bind_last ?_
  refine quiet_server.bind_first ((quiet_ofExcept hdesired).bind_first ?_)
  have hcheck :
      Task.Completes reliable Entry.IsRead (Task.ensureStorage found desired) c false c := by
    unfold Task.ensureStorage
    rw [Claim.storageDrift_eq_none.2 hstorage]
    exact Task.completes_pure.2 ⟨rfl, rfl⟩
  exact (quiet_liftM hcheck).bind_first (quiet_pure ())

theorem quiet_reconcileCredentials (hc : c.Filed) (hns : server.metadata.ns = some ns)
    (h : (server.spec.externalDB && Database.namesSecret server) = false →
      ∃ secret, c.get? .secret ns (Database.secretName server) = some secret) :
    Quiet c server
      (if server.spec.externalDB && Database.namesSecret server then []
        else [(.secret, Database.secretName server)])
      true reconcileCredentials () := by
  refine quiet_server.bind_first ?_
  split
  · exact quiet_pure ()
  · next hneeded =>
    obtain ⟨secret, hsecret⟩ := h (eq_false_of_ne_true hneeded)
    exact (quiet_ensure hc hns hsecret).bind (quiet_pure ())

theorem quiet_reconcileDatabaseDeployment (hc : c.Filed) (hns : server.metadata.ns = some ns)
    (h : DeploymentSettled c ns name (Database.deployment server settings)) :
    Quiet c server [(.deployment, name)] (Deployment.seemsReady (c.get? .deployment ns name))
      (reconcileDatabaseDeployment settings name) () := by
  obtain ⟨found, desired, hfound, hdesired, hmatches, ready, hready⟩ := h
  obtain ⟨hresources, himage⟩ := (matches_databaseDeployment_iff hdesired).1 hmatches
  rw [hfound, Deployment.seemsReady, hready]
  refine (quiet_ensure hc hns hfound).bind ?_
  refine quiet_server.bind_first ((quiet_ofExcept hdesired).bind_first ?_)
  refine quiet_correction hresources (quiet_correction himage ?_)
  exact (quiet_ofExcept hready).bind_first (quiet_noteReady ready)

theorem quiet_reconcileDatabase (hc : c.Filed) (hns : server.metadata.ns = some ns)
    (h : DatabaseSettled settings c ns server) :
    Quiet c server (Database.wanted server) (databaseReady c ns server)
      (reconcileDatabase settings) () := by
  have hcredentials := quiet_reconcileCredentials hc hns h.secret
  refine quiet_server.bind_first (quiet_server.bind_first ?_)
  unfold Database.wanted databaseReady
  cases hexternal : server.spec.externalDB with
  | true =>
    rw [hexternal] at hcredentials
    exact hcredentials.bind_last (quiet_pure ())
  | false =>
    rw [hexternal] at hcredentials
    obtain ⟨service, hservice⟩ := h.service hexternal
    refine (quiet_reconcileClaim hc hns (h.claim hexternal)).bind (hcredentials.bind ?_)
    refine (quiet_reconcileDatabaseDeployment hc hns (h.deployment hexternal)).bind_seen ?_
    exact (quiet_ensure hc hns hservice).bind (quiet_pure ())

end Pass

end PushOperator
