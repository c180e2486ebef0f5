import PushOperator.Pass.Frontend
import PushOperator.Proofs.Pass.Database

/-!
# The server step completes

A server step that completes has left the account, the services, the route and the deployment of the
server, the containers of the latter with the wanted resources and images. The cookie secret of the
proxy is not among the things that are compared. On what the step leaves behind it is quiet.
-/

namespace PushOperator.Pass

open Child Cluster

variable {P : Entry → Prop} {c c' : Cluster} {ns name : String} {server : Server}
  {st st' : PassState} {settings : Settings} {u : Unit}

/-- The kinds that the server step writes. -/
def frontendKinds : List Kind := [.serviceAccount, .service, .route, .deployment]

theorem kind_of_frontend {child : Kind × String} (h : child ∈ Frontend.wanted server) :
    child.1 ∈ frontendKinds := by
  simp only [Frontend.wanted, List.mem_cons, List.not_mem_nil, or_false] at h
  rcases h with rfl | rfl | rfl | rfl | rfl <;> simp [frontendKinds]

/-- What the server step leaves behind. -/
structure FrontendSettled (settings : Settings) (c : Cluster) (ns : String) (server : Server) :
    Prop where
  account : ∃ account, c.get? .serviceAccount ns server.anyName = some account
  proxyService : ∃ service, c.get? .service ns (childName server proxy) = some service
  serverService : ∃ service, c.get? .service ns (childName server unifiedpush) = some service
  route : ∃ route, c.get? .route ns (childName server proxy) = some route
  deployment : DeploymentSettled c ns server.anyName (Frontend.deployment server settings "")

theorem FrontendSettled.mono (h : FrontendSettled settings c ns server)
    (hkeeps : ∀ k ∈ frontendKinds, Keeps k c c') : FrontendSettled settings c' ns server where
  account := (hkeeps _ (by decide)).exists_get? h.account
  proxyService := (hkeeps _ (by decide)).exists_get? h.proxyService
  serverService := (hkeeps _ (by decide)).exists_get? h.serverService
  route := (hkeeps _ (by decide)).exists_get? h.route
  deployment := h.deployment.mono (hkeeps _ (by decide))

/-! ## What is written -/

theorem writesOnly_reconcileServerDeployment {name : String} :
    WritesOnly frontendKinds (reconcileServerDeployment settings name) := by
  refine (writesOnly_ensure (by decide) fun server => ?_).bind fun deployment => ?_
  · exact Task.obeys_bind Task.obeys_secret fun _ _ => Task.obeys_build
  split
  · exact writesOnly_build.bind fun _ => writesOnly_noteReady
  · refine writesOnly_server.bind fun server => writesOnly_build.bind fun desired => ?_
    refine (writesOnly_liftM (Task.obeys_applyCorrection (by decide))).bind fun _ => ?_
    refine writesOnly_stopCorrected.bind fun _ => ?_
    refine (writesOnly_liftM (Task.obeys_applyCorrection (by decide))).bind fun _ => ?_
    refine writesOnly_stopCorrected.bind fun _ => ?_
    refine (writesOnly_liftM (Task.obeys_applyCorrection (by decide))).bind fun _ => ?_
    refine writesOnly_stopCorrected.bind fun _ => ?_
    exact writesOnly_build.bind fun _ => writesOnly_noteReady

theorem writesOnly_reconcileFrontend : WritesOnly frontendKinds (reconcileFrontend settings) := by
  refine writesOnly_server.bind fun server => writesOnly_server.bind fun server' => ?_
  refine (writesOnly_ensure (by decide) fun server => Task.obeys_build).bind fun _ => ?_
  refine (writesOnly_ensure (by decide) fun server => Task.obeys_build).bind fun _ => ?_
  refine writesOnly_server.bind fun server => ?_
  refine (writesOnly_ensure (by decide) fun server => Task.obeys_build).bind fun _ => ?_
  refine (writesOnly_ensure (by decide) fun server => Task.obeys_build).bind fun route => ?_
  exact writesOnly_noteReady.bind fun _ => writesOnly_reconcileServerDeployment

/-! ## What is left behind -/

/-- A deployment that was just created matches the wanted one, whatever its cookie secret. -/
theorem matches_created (hnames : settings.upsContainerName ≠ settings.oauthProxyContainerName)
    {cookieSecret : String} {built created : Deployment}
    (hbuilt : Frontend.deployment server settings cookieSecret = .ok built)
    (hspec : created.spec = built.spec) (hstatus : created.status = built.status) :
    ∃ desired, Frontend.deployment server settings "" = .ok desired ∧
      Deployment.Matches created desired ∧ Deployment.isReady (some created) = .ok true := by
  obtain ⟨desired, hdesired, hmatches⟩ := matches_serverDeployment hnames hbuilt
  refine ⟨desired, hdesired, hmatches created hspec, ?_⟩
  exact Deployment.isReady_of_status_none (hstatus.trans (status_serverDeployment hbuilt))

theorem completes_reconcileServerDeployment
    (h : Completes flaky P (reconcileServerDeployment settings name) st c u st' c')
    (hc : c.Filed) (hns : st.server.metadata.ns = some ns) (hname : st.server.anyName = name) :
    Accounts ns [] [(.deployment, name)] (Deployment.seemsReady (c.get? .deployment ns name))
      st c st' c' ∧
      (∃ ready, Deployment.isReady (c.get? .deployment ns name) = .ok ready) ∧
      (settings.upsContainerName ≠ settings.oauthProxyContainerName →
        DeploymentSettled c' ns name (Frontend.deployment st.server settings "")) := by
  obtain ⟨deployment, st₁, c₁, hensure, hrest⟩ := completes_bind.1 h
  obtain ⟨hdeployment, hobserved, hthere, hcreated⟩ :=
    hensure.ensure hc hns (Task.makes_secret fun cookieSecret => Task.makes_ofExcept fun o ho => by
      have hplaced := (places_serverDeployment settings cookieSecret).placed hns ho
      exact ⟨hname ▸ hplaced, (⟨cookieSecret, ho⟩ : ∃ cookieSecret,
        Frontend.deployment st.server settings cookieSecret = .ok o)⟩)
  cases deployment with
  | created live =>
    obtain ⟨hnoted, rfl, hready⟩ := accounts_noteDeployment hdeployment hobserved hrest
    obtain ⟨built, ⟨cookieSecret, hbuilt⟩, hspec, hstatus⟩ := hcreated live rfl
    refine ⟨hnoted, hready, fun hnames => ?_⟩
    obtain ⟨desired, hdesired, hmatches, hready'⟩ := matches_created hnames hbuilt hspec hstatus
    exact ⟨live, desired, hthere, hdesired, hmatches, true, hready'⟩
  | found live =>
    have hrest₁ := completes_server_bind.1 hrest
    obtain ⟨desired, hdesired, hrest₂⟩ := completes_build_bind.1 hrest₁
    obtain ⟨hresources, hrest₃⟩ := Completes.correction hrest₂
    obtain ⟨hupsImage, hrest₄⟩ := Completes.correction hrest₃
    obtain ⟨hproxyImage, hend⟩ := Completes.correction hrest₄
    obtain ⟨hnoted, rfl, hready⟩ := accounts_noteDeployment hdeployment hobserved hend
    rw [hdeployment.server] at hdesired
    refine ⟨hnoted, hready, fun hnames => ⟨live, desired, hthere, hdesired, ?_, ?_⟩⟩
    · exact (matches_serverDeployment_iff hnames hdesired).2 ⟨hresources, hupsImage, hproxyImage⟩
    · rwa [← hobserved] at hready

/-- Whether the server can be seen to be ready: its route and its deployment. -/
def frontendReady (c : Cluster) (ns : String) (server : Server) : Bool :=
  Route.isReady (c.get? .route ns (childName server proxy)) &&
    Deployment.seemsReady (c.get? .deployment ns server.anyName)

theorem frontendReady_congr
    (hroute : c'.get? .route ns (childName server proxy) =
      c.get? .route ns (childName server proxy))
    (hdeployment : c'.get? .deployment ns server.anyName = c.get? .deployment ns server.anyName) :
    frontendReady c' ns server = frontendReady c ns server := by
  unfold frontendReady
  rw [hroute, hdeployment]

theorem completes_reconcileFrontend
    (h : Completes flaky P (reconcileFrontend settings) st c u st' c')
    (hc : c.Filed) (hns : st.server.metadata.ns = some ns) :
    Accounts ns [] (Frontend.wanted st.server) (frontendReady c ns st.server) st c st' c' ∧
      (∃ ready, Deployment.isReady (c.get? .deployment ns st.server.anyName) = .ok ready) ∧
      (settings.upsContainerName ≠ settings.oauthProxyContainerName →
        FrontendSettled settings c' ns st.server) := by
  have hrest := completes_server_bind.1 h
  have hrest' := completes_server_bind.1 hrest
  obtain ⟨account, st₁, c₁, hensure₁, hrest₁⟩ := completes_bind.1 hrest'
  obtain ⟨haccount, -⟩ := hensure₁.ensure_exists hc hns
    (Task.makes_of_places places_serviceAccount rfl hns)
  obtain ⟨service, st₂, c₂, hensure₂, hrest₂⟩ := completes_bind.1 hrest₁
  obtain ⟨hservice, -⟩ := hensure₂.ensure_exists haccount.filed (haccount.server ▸ hns)
    (Task.makes_of_places places_proxyService haccount.server hns)
  have hbefore₂ := haccount.trans hservice (by simp)
  have hrest₃ := completes_server_bind.1 hrest₂
  rw [hbefore₂.server] at hrest₃
  obtain ⟨service', st₃, c₃, hensure₃, hrest₄⟩ := completes_bind.1 hrest₃
  obtain ⟨hservice', -⟩ := hensure₃.ensure_exists hbefore₂.filed (hbefore₂.server ▸ hns)
    (Task.makes_of_places places_serverService hbefore₂.server hns)
  have hbefore₃ := hbefore₂.trans hservice' (by simp)
  obtain ⟨route, st₄, c₄, hensure₄, hrest₅⟩ := completes_bind.1 hrest₄
  obtain ⟨hroute, hobserved, -⟩ := hensure₄.ensure_exists hbefore₃.filed (hbefore₃.server ▸ hns)
    (Task.makes_of_places places_proxyRoute hbefore₃.server hns)
  obtain ⟨_, st₅, c₅, hnote, hdeployment⟩ := completes_bind.1 hrest₅
  -- Nothing before it has touched the route, so what is observed is what was there.
  rw [hobserved, hbefore₃.get?_of_unseen (by simp) (by simp)] at hnote
  obtain ⟨hnoted, rfl⟩ := accounts_noteReady hroute.filed hnote
  have hbefore₄ := (hbefore₃.trans hroute (by simp)).trans hnoted (by simp)
  obtain ⟨hdeployment', hready, hsettled⟩ := completes_reconcileServerDeployment hdeployment
    hbefore₄.filed (hbefore₄.server ▸ hns) (by rw [hbefore₄.server])
  rw [hbefore₄.get?_of_unseen (by simp) (by simp)] at hdeployment' hready
  rw [hbefore₄.server] at hsettled
  have hall := hbefore₄.trans hdeployment' (by simp)
  refine ⟨hall, hready, fun hnames => ⟨?_, ?_, ?_, ?_, hsettled hnames⟩⟩
  · exact hall.present (.serviceAccount, st.server.anyName) (by simp)
  · exact hall.present (.service, childName st.server proxy) (by simp)
  · exact hall.present (.service, childName st.server unifiedpush) (by simp)
  · exact hall.present (.route, childName st.server proxy) (by simp)

/-! ## What is looked at -/

theorem quiet_reconcileServerDeployment
    (hnames : settings.upsContainerName ≠ settings.oauthProxyContainerName) (hc : c.Filed)
    (hns : server.metadata.ns = some ns) {name : String}
    (h : DeploymentSettled c ns name (Frontend.deployment server settings "")) :
    Quiet c server [(.deployment, name)] (Deployment.seemsReady (c.get? .deployment ns name))
      (reconcileServerDeployment settings name) () := by
  obtain ⟨found, desired, hfound, hdesired, hmatches, ready, hready⟩ := h
  obtain ⟨hresources, hupsImage, hproxyImage⟩ :=
    (matches_serverDeployment_iff hnames hdesired).1 hmatches
  rw [hfound, Deployment.seemsReady, hready]
  refine (quiet_ensure hc hns hfound).bind ?_
  refine quiet_server.bind_first ((quiet_ofExcept hdesired).bind_first ?_)
  refine quiet_correction hresources (quiet_correction hupsImage (quiet_correction hproxyImage ?_))
  exact (quiet_ofExcept hready).bind_first (quiet_noteReady ready)

theorem quiet_reconcileFrontend
    (hnames : settings.upsContainerName ≠ settings.oauthProxyContainerName) (hc : c.Filed)
    (hns : server.metadata.ns = some ns) (h : FrontendSettled settings c ns server) :
    Quiet c server (Frontend.wanted server) (frontendReady c ns server)
      (reconcileFrontend settings) () := by
  obtain ⟨account, haccount⟩ := h.account
  obtain ⟨service, hservice⟩ := h.proxyService
  obtain ⟨service', hservice'⟩ := h.serverService
  obtain ⟨route, hroute⟩ := h.route
  have hdeployment := quiet_reconcileServerDeployment hnames hc hns h.deployment
  unfold frontendReady
  rw [hroute]
  refine quiet_server.bind_first (quiet_server.bind_first ?_)
  refine (quiet_ensure hc hns haccount).bind ((quiet_ensure hc hns hservice).bind ?_)
  refine quiet_server.bind_first ((quiet_ensure hc hns hservice').bind ?_)
  refine (quiet_ensure hc hns hroute).bind ?_
  exact (quiet_noteReady _).bind hdeployment

end PushOperator.Pass
