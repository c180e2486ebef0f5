import PushOperator.Proofs.Child.Pods

/-!
# Services and the pods behind them

Each service of a server is in front of exactly one of its deployments (`fronts_of_built`,
`eq_of_selects`), and of none of another server (`not_selects_of_app`).
-/

namespace PushOperator

/-- A selector that asks for labels only, all of which are there. -/
def LabelSelector.Matches (selector : LabelSelector) (labels : Dict String) : Prop :=
  selector.matchExpressions = none ∧
    ∃ wanted, selector.matchLabels = some wanted ∧ wanted.Within labels

/-- The ports of a service. -/
def Service.ports (service : Service) : List ServicePort :=
  (service.spec.bind (·.ports)).getD []

/-- The service reaches pods with these labels. -/
def Service.Selects (service : Service) (labels : Dict String) : Prop :=
  ∃ selector, service.spec.bind (·.selector) = some selector ∧ selector.Within labels

/-- The service reaches the pods of the deployment, which are the deployment's own, and each of its
ports leads to one that a container listens on. -/
structure Service.Fronts (service : Service) (deployment : Deployment) : Prop where
  selects : Service.Selects service (Deployment.template deployment).labels
  own : (Deployment.selector deployment).Matches (Deployment.template deployment).labels
  ports : ∀ port ∈ Service.ports service,
    ∃ container ∈ (Deployment.template deployment).pod.containers,
      ∃ listened ∈ container.ports.getD [], port.targetPort = some (.int listened.containerPort)

namespace Child

variable {p : Plan} {server : Server}

/-- A deployment knows its pods by two labels, of which the first names the server. -/
theorem marked_of_built {d : Deployment} (h : p.Builds .deployment d) : ∃ s,
    (Deployment.template d).labels = podMark p.server.anyName s ∧
      (Deployment.selector d).Matches (Deployment.template d).labels := by
  obtain ⟨e, hcalls, he⟩ := h
  cases hcalls with
  | databaseDeployment =>
    obtain ⟨hlabels, hwanted, hnone, -⟩ := databaseDeployment_ok he
    exact ⟨_, hlabels, hnone, _, hwanted, hlabels ▸ fun _ _ h => h⟩
  | serverDeployment =>
    obtain ⟨hlabels, hwanted, hnone, -⟩ := serverDeployment_ok he
    exact ⟨_, hlabels, hnone, _, hwanted, hlabels ▸ fun _ _ h => h⟩

/-- The pods of two deployments of a server bear different labels. -/
theorem eq_of_labels {d d' : Deployment} (h : p.Builds .deployment d)
    (h' : p.Builds .deployment d')
    (hlabels : (Deployment.template d).labels = (Deployment.template d').labels) : d = d' := by
  have hdiffer : podMark p.server.anyName (childName p.server postgresql) ≠
      podMark p.server.anyName "ups" := by
    intro heq
    have hsame := congrArg (·.get? "service") heq
    simp only [get?_podMark, if_true, Option.some.injEq] at hsame
    exact childName_ne_ups p.server hsame
  obtain ⟨e, hcalls, he⟩ := h
  obtain ⟨e', hcalls', he'⟩ := h'
  cases hcalls with
  | databaseDeployment =>
    cases hcalls' with
    | databaseDeployment => exact Except.ok.inj (he.symm.trans he')
    | serverDeployment =>
      rw [(databaseDeployment_ok he).1, (serverDeployment_ok he').1] at hlabels
      exact absurd hlabels hdiffer
  | serverDeployment =>
    cases hcalls' with
    | databaseDeployment =>
      rw [(serverDeployment_ok he).1, (databaseDeployment_ok he').1] at hlabels
      exact absurd hlabels.symm hdiffer
    | serverDeployment => exact Except.ok.inj (he.symm.trans he')

/-- The service in front of the database: what it selects, and where its port leads. -/
theorem databaseService_ok {service : Service} (h : Database.service server = .ok service) :
    service.metadata.labelsOrEmpty = podMark server.anyName (childName server postgresql) ∧
    service.spec.bind (·.selector) =
      some (podMark server.anyName (childName server postgresql)) ∧
    Service.ports service = [{
      name := some postgresql
      port := Database.port
      protocol := some "TCP"
      targetPort := some (.int Database.port) }] := by
  obtain ⟨m, hm, h⟩ := bind_eq_ok.1 h
  obtain ⟨ns, -, rfl⟩ := namedMeta_eq_ok.1 hm
  obtain rfl := pure_eq_ok.1 h
  exact ⟨rfl, rfl, rfl⟩

/-- A service in front of the server's pods. -/
def IsWeb (server : Server) (targetPort : Int32) (service : Service) : Prop :=
  service.spec = some (Frontend.webService server targetPort)

theorem proxyService_ok {service : Service} (h : Frontend.proxyService server = .ok service) :
    service.metadata.labelsOrEmpty = podMark server.anyName (childName server proxy) ∧
      IsWeb server Frontend.proxyPort service := by
  obtain ⟨m, hm, h⟩ := bind_eq_ok.1 h
  obtain ⟨ns, -, rfl⟩ := namedMeta_eq_ok.1 hm
  obtain rfl := pure_eq_ok.1 h
  exact ⟨rfl, rfl⟩

theorem serverService_ok {service : Service} (h : Frontend.serverService server = .ok service) :
    service.metadata.labelsOrEmpty =
      (podMark server.anyName (childName server unifiedpush)).insertAll
        [("mobile", "enabled"), ("internal", unifiedpush)] ∧
      IsWeb server Frontend.httpPort service := by
  obtain ⟨m, hm, h⟩ := bind_eq_ok.1 h
  obtain ⟨ns, -, rfl⟩ := namedMeta_eq_ok.1 hm
  obtain rfl := pure_eq_ok.1 h
  exact ⟨rfl, rfl⟩

/-- What is in front of the server's pods leads to a port that one of their containers listens on.
-/
theorem fronts_of_isWeb {settings : Settings} {cookieSecret : String} {targetPort : Int32}
    {d : Deployment} {service : Service}
    (hd : Frontend.deployment server settings cookieSecret = .ok d)
    (hport : targetPort = Frontend.proxyPort ∨ targetPort = Frontend.httpPort)
    (h : IsWeb server targetPort service) :
    service.spec.bind (·.selector) = some (Deployment.template d).labels ∧
      ∀ port ∈ Service.ports service, ∃ container ∈ (Deployment.template d).pod.containers,
        ∃ listened ∈ container.ports.getD [],
          port.targetPort = some (.int listened.containerPort) := by
  obtain ⟨hlabels, -, -, upsResources, proxyResources, hpod⟩ := serverDeployment_ok hd
  refine ⟨by rw [hlabels, h]; rfl, fun port hmem => ?_⟩
  rw [Service.ports, h] at hmem
  obtain rfl := List.mem_singleton.1 hmem
  rw [hpod]
  rcases hport with rfl | rfl
  · exact ⟨_, List.mem_cons_of_mem _ List.mem_cons_self, _, List.mem_singleton.2 rfl, rfl⟩
  · exact ⟨_, List.mem_cons_self, _, List.mem_singleton.2 rfl, rfl⟩

/-- Each service is in front of a deployment and asks for all of its labels. -/
theorem fronts_of_built (hp : p.Succeeds) {service : Service} (h : p.Builds .service service) :
    ∃ d : Deployment, p.Builds .deployment d ∧ Service.Fronts service d ∧
      service.spec.bind (·.selector) = some (Deployment.template d).labels := by
  obtain ⟨web, hweb⟩ := hp _ _ .serverDeployment
  have hweb' : p.Builds .deployment web := ⟨_, .serverDeployment, hweb⟩
  obtain ⟨-, -, hown⟩ := marked_of_built hweb'
  obtain ⟨e, hcalls, he⟩ := h
  cases hcalls with
  | databaseService hown =>
    obtain ⟨d, hd⟩ := hp _ _ (.databaseDeployment hown)
    have hd' : p.Builds .deployment d := ⟨_, .databaseDeployment hown, hd⟩
    obtain ⟨-, hselector, hports⟩ := databaseService_ok he
    obtain ⟨hlabels, -, -, resources, hpod⟩ := databaseDeployment_ok hd
    obtain ⟨-, -, hmatches⟩ := marked_of_built hd'
    rw [← hlabels] at hselector
    refine ⟨d, hd', ⟨⟨_, hselector, fun _ _ h => h⟩, hmatches, fun port hmem => ?_⟩, hselector⟩
    rw [hports] at hmem
    obtain rfl := List.mem_singleton.1 hmem
    rw [hpod]
    exact ⟨_, List.mem_cons_self, _, List.mem_singleton.2 rfl, rfl⟩
  | proxyService =>
    obtain ⟨hselector, hports⟩ := fronts_of_isWeb hweb (.inl rfl) (proxyService_ok he).2
    exact ⟨web, hweb', ⟨⟨_, hselector, fun _ _ h => h⟩, hown, hports⟩, hselector⟩
  | serverService =>
    obtain ⟨hselector, hports⟩ := fronts_of_isWeb hweb (.inr rfl) (serverService_ok he).2
    exact ⟨web, hweb', ⟨⟨_, hselector, fun _ _ h => h⟩, hown, hports⟩, hselector⟩

/-- A service that asks for all labels of one deployment reaches the pods of no other. -/
theorem eq_of_selects {service : Service} {d d' : Deployment} (h : p.Builds .deployment d)
    (h' : p.Builds .deployment d')
    (hselector : service.spec.bind (·.selector) = some (Deployment.template d).labels)
    (hselects : Service.Selects service (Deployment.template d').labels) : d' = d := by
  obtain ⟨selector, heq, hwithin⟩ := hselects
  obtain rfl := Option.some.inj (hselector.symm.trans heq)
  obtain ⟨s, hs, -⟩ := marked_of_built h
  obtain ⟨s', hs', -⟩ := marked_of_built h'
  refine eq_of_labels h' h ?_
  rw [hs, hs'] at hwithin ⊢
  rw [(podMark_within_podMark.1 hwithin).2]

/-- No service reaches pods that bear neither label or name another server. -/
theorem not_selects_of_app (hp : p.Succeeds) {service : Service} (h : p.Builds .service service)
    {labels : Dict String} (happ : labels.get? "app" ≠ some p.server.anyName) :
    ¬Service.Selects service labels := by
  rintro ⟨selector, heq, hwithin⟩
  obtain ⟨d, hd, -, hselector⟩ := fronts_of_built hp h
  obtain rfl := Option.some.inj (hselector.symm.trans heq)
  obtain ⟨s, hs, -⟩ := marked_of_built hd
  rw [hs] at hwithin
  exact happ (podMark_within.1 hwithin).1

end Child

end PushOperator
