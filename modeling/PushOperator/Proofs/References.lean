import PushOperator.Proofs.Child.Secrets
import PushOperator.Proofs.Child.Services
import PushOperator.Proofs.Pass.Run
import PushOperator.Proofs.Text.Quoted

/-!
# References between children

The children of a server refer to each other by name: pods to secrets, claims and accounts, an
account to a route, a route to a service, and services to pods by their labels. When all builders
that a pass calls succeed, each of these references leads to what was built for the same server
(`references_resolve`).
-/

namespace PushOperator

/-- The account sends users who log in on to the route of a name. -/
def ServiceAccount.RedirectsTo (account : ServiceAccount) (name : String) : Prop :=
  ∃ text value reference, (account.metadata.annotations.getD ∅).get?
      "serviceaccounts.openshift.io/oauth-redirectreference.ups" = some text ∧
    Json.parse? text = some value ∧ value.get? "reference" = some reference ∧
    reference.get? "kind" = some (.string Kind.route.name) ∧
    reference.get? "name" = some (.string name)

namespace Child

variable {p : Plan} {server : Server} {name key : String}

/-! ## The redirect -/

/-- What the redirect refers to. -/
def redirectReference (server : Server) : Json := .object [
  ("kind", .string "Route"),
  ("name", .string (childName server proxy))]

/-- The value that the redirect is the text of. -/
def redirectValue (server : Server) : Json := .object [
  ("apiVersion", .string "v1"),
  ("kind", .string "OAuthRedirectReference"),
  ("reference", redirectReference server)]

theorem redirect_eq (server : Server) :
    Frontend.redirect server = Json.compact (redirectValue server) := by
  have hname : ¬"name" < "kind" := by decide
  have hversion : "apiVersion" < "kind" := by decide
  have hkind : ¬"reference" < "kind" := by decide
  have hreference : ¬"reference" < "apiVersion" := by decide
  refine congrArg Json.compact ?_
  simp [redirectValue, redirectReference, Json.ofFields, Dict.ofList, Dict.insertAll, Dict.empty,
    Dict.insert, Dict.insertEntry, hname, hversion, hkind, hreference]

/-- The redirect is read back, whatever the server is called. -/
theorem document?_redirect (server : Server) :
    Json.document? (Frontend.redirect server) = some (redirectValue server) := by
  have htext (s : String) : Json.Reads (Json.compact (.string s)) [.text (some s)] :=
    Json.reads_quote s
  have hreference : Json.Reads (Json.compact (redirectReference server)) _ :=
    (Json.ReadFields.cons (htext _) (.cons (htext _) .nil)).object
  have hvalue : Json.Reads (Json.compact (redirectValue server)) _ :=
    (Json.ReadFields.cons (htext _) (.cons (htext _) (.cons hreference .nil))).object
  unfold Json.document?
  rw [redirect_eq, hvalue.tokens?_eq]
  rfl

theorem parse?_redirect (server : Server) :
    Json.parse? (Frontend.redirect server) = some (redirectValue server) := by
  have hname : ¬"name" < "kind" := by decide
  have hversion : ¬"kind" < "apiVersion" := by decide
  have hkind : ¬"reference" < "kind" := by decide
  have hreference : ¬"reference" < "apiVersion" := by decide
  unfold Json.parse?
  rw [document?_redirect]
  simp [redirectValue, redirectReference, Json.value?, Json.valueFields?, Json.ofFields,
    Dict.ofList, Dict.insertAll, Dict.empty, Dict.insert, Dict.insertEntry, hname, hversion, hkind,
    hreference]

theorem redirectsTo_of_built {account : ServiceAccount}
    (h : Frontend.serviceAccount server = .ok account) :
    ServiceAccount.RedirectsTo account (childName server proxy) := by
  obtain ⟨m, -, h⟩ := bind_eq_ok.1 h
  obtain rfl := pure_eq_ok.1 h
  refine ⟨Frontend.redirect server, redirectValue server, redirectReference server, ?_,
    parse?_redirect server, rfl, rfl, rfl⟩
  rfl

/-! ## What each kind refers to -/

namespace Plan

/-- What the pods of a deployment need is there: the keys of secrets, the claims behind the volumes,
and the volumes themselves. The credentials for a broker are asked for only with a broker. -/
structure Equips (p : Plan) (d : Deployment) : Prop where
  secrets : ∀ ref ∈ secretRefs d, p.Provides ref.name ref.key
  credentials : ∀ ref ∈ secretRefs d, ref.name = Broker.secretName p.server →
    p.server.spec.useMessageBroker = true ∨ NamedByUser p.server ref.name
  claims : ∀ volume ∈ (Deployment.template d).pod.volumes.getD [],
    ∃ (claim : Claim) (name : String), p.Builds .persistentVolumeClaim claim ∧
      claim.metadata.name = some name ∧
      volume.persistentVolumeClaim = some { claimName := name }
  mounts : ∀ container ∈ (Deployment.template d).pod.allContainers,
    ∀ mount ∈ container.volumeMounts.getD [],
      ∃ volume ∈ (Deployment.template d).pod.volumes.getD [], volume.name = mount.name

/-- The pods run as an account that was built, and their proxy is told so. -/
def RunsAsAccount (p : Plan) (d : Deployment) : Prop :=
  ∃ (account : ServiceAccount) (name : String), p.Builds .serviceAccount account ∧
    account.metadata.name = some name ∧
    (Deployment.template d).pod.serviceAccountName = some name ∧
    ∃ container ∈ (Deployment.template d).pod.containers,
      "--openshift-service-account=" ++ name ∈ container.args.getD []

/-- The job is told one secret to save, which has the whole connection to the database and is the
one that all pods read it from. -/
def SavesDatabase (p : Plan) (job : CronJob) : Prop :=
  ∃ container name, (CronJob.template job).pod.allContainers = [container] ∧
    (container.env.getD []).filter (·.name = "COMPONENT_SECRET_NAME") =
      [valueEnv "COMPONENT_SECRET_NAME" name] ∧
    (∀ key ∈ connectionKeys, p.Provides name key) ∧
    ∀ d : Deployment, p.Builds .deployment d → ∀ ref ∈ secretRefs d,
      ref.key ∈ connectionKeys → ref.name = name

/-- The service is in front of exactly one deployment. -/
def HasDeployment (p : Plan) (service : Service) : Prop :=
  ∃ d : Deployment, p.Builds .deployment d ∧ Service.Fronts service d ∧
    ∀ d' : Deployment, p.Builds .deployment d' →
      Service.Selects service (Deployment.template d').labels → d' = d

/-- The secret leads to a service that was built, and to one of its ports. -/
def LeadsToService (p : Plan) (secret : Secret) : Prop :=
  ∃ (service : Service) (name ns : String), p.Builds .service service ∧
    service.metadata.name = some name ∧ service.metadata.ns = some ns ∧
    Secret.value? secret Database.hostKey = some (name ++ "." ++ ns ++ ".svc") ∧
    ∃ port ∈ Service.ports service,
      Secret.value? secret Database.portKey = some (toString port.port.toInt)

/-- Exactly one service is monitored, and it has the ports for that. -/
def Watches (p : Plan) (monitor : ServiceMonitor) : Prop :=
  ∃ service : Service, p.Builds .service service ∧
    monitor.spec.selector.Matches service.metadata.labelsOrEmpty ∧
    (∀ endpoint ∈ monitor.spec.endpoints, ∃ port ∈ Service.ports service,
      port.name = some endpoint.port) ∧
    ∀ service' : Service, p.Builds .service service' →
      monitor.spec.selector.Matches service'.metadata.labelsOrEmpty → service' = service

/-- What was built are the wanted children, in one namespace. Every reference leads to what was
built for the same server, and no service reaches the pods of another one. -/
structure Resolves (p : Plan) : Prop where
  children : ∀ k name, (k, name) ∈ wanted p.server p.serves ↔
    ∃ o : Object k, p.Builds k o ∧ o.metadata.name = some name
  place : ∀ k (o : Object k), p.Builds k o → o.metadata.ns = p.server.metadata.ns
  deployments : ∀ d : Deployment, p.Builds .deployment d → p.Equips d
  server : ∀ d : Deployment, p.Builds .deployment d →
    d.metadata.name = some p.server.anyName → p.RunsAsAccount d
  jobs : ∀ job : CronJob, p.Builds .cronJob job → p.SavesDatabase job
  accounts : ∀ account : ServiceAccount, p.Builds .serviceAccount account →
    ∃ (route : Route) (name : String), p.Builds .route route ∧ route.metadata.name = some name ∧
      ServiceAccount.RedirectsTo account name
  routes : ∀ route : Route, p.Builds .route route → ∃ (service : Service) (name : String),
    p.Builds .service service ∧ Frontend.proxyService p.server = .ok service ∧
    service.metadata.name = some name ∧ route.spec.target = { kind := Kind.service.name, name }
  services : ∀ service : Service, p.Builds .service service → p.HasDeployment service
  foreign : ∀ q : Plan, q.server.anyName ≠ p.server.anyName →
    ∀ service : Service, p.Builds .service service →
      (∀ d : Deployment, q.Builds .deployment d →
        ¬Service.Selects service (Deployment.template d).labels) ∧
      ∀ job : CronJob, q.Builds .cronJob job →
        ¬Service.Selects service (CronJob.template job).labels
  connection : p.server.spec.externalDB = false → ∀ secret : Secret, p.Builds .secret secret →
    secret.metadata.name = some (Database.secretName p.server) → p.LeadsToService secret
  monitors : ∀ monitor : ServiceMonitor, p.Builds .serviceMonitor monitor → p.Watches monitor

end Plan

/-! ## Pods -/

/-- The secret that pods read the connection from is not the one with the credentials. -/
theorem not_credentials_of_connection {ref : SecretKeySelector}
    (hname : ref.name = Database.secretName p.server)
    (hbroker : ref.name = Broker.secretName p.server) : NamedByUser p.server ref.name := by
  rw [hname] at hbroker ⊢
  cases hneeded : p.server.spec.externalDB && Database.namesSecret p.server with
  | false =>
    rw [Pass.secretName_eq hneeded] at hbroker
    exact absurd (childName_inj.1 hbroker) (by decide)
  | true => exact namedByUser_of_unneeded hneeded

theorem equips_of_built (hp : p.Succeeds) {d : Deployment} (h : p.Builds .deployment d) :
    p.Equips d where
  secrets ref href := by
    cases refers_of_built h href with
    | connection hname hkey => exact hname ▸ provides_connection hp hkey
    | credentials hon hname hkey => exact hname ▸ provides_credentials hp hon hkey
  credentials ref href hbroker := by
    cases refers_of_built h href with
    | connection hname hkey => exact .inr (not_credentials_of_connection hname hbroker)
    | credentials hon => exact .inl hon
  claims volume hvolume := by
    obtain ⟨e, hcalls, he⟩ := h
    cases hcalls with
    | databaseDeployment hown =>
      obtain ⟨-, -, -, resources, hpod⟩ := databaseDeployment_ok he
      obtain ⟨claim, hclaim⟩ := hp _ _ (.claim hown)
      rw [hpod] at hvolume
      obtain rfl := List.mem_singleton.1 hvolume
      exact ⟨claim, _, ⟨_, .claim hown, hclaim⟩, (places_claim _ _ _ hclaim).2, rfl⟩
    | serverDeployment =>
      obtain ⟨-, -, -, upsResources, proxyResources, hpod⟩ := serverDeployment_ok he
      rw [hpod] at hvolume
      cases hvolume
  mounts container hcontainer mount hmount := by
    obtain ⟨e, hcalls, he⟩ := h
    cases hcalls with
    | databaseDeployment =>
      obtain ⟨-, -, -, resources, hpod⟩ := databaseDeployment_ok he
      rw [hpod] at hcontainer ⊢
      obtain rfl := List.mem_singleton.1 hcontainer
      obtain rfl := List.mem_singleton.1 hmount
      exact ⟨_, List.mem_singleton.2 rfl, rfl⟩
    | serverDeployment =>
      obtain ⟨-, -, -, upsResources, proxyResources, hpod⟩ := serverDeployment_ok he
      rw [hpod] at hcontainer
      have hnone : container.volumeMounts = none := by
        simp only [PodSpec.allContainers, Option.getD_some, List.cons_append, List.nil_append,
          List.mem_cons, List.not_mem_nil, or_false] at hcontainer
        rcases hcontainer with rfl | rfl | rfl <;> rfl
      rw [hnone] at hmount
      cases hmount

/-- The pods of the server run as its account. -/
theorem runsAsAccount_of_built (hp : p.Succeeds) {d : Deployment} (h : p.Builds .deployment d)
    (hname : d.metadata.name = some p.server.anyName) : p.RunsAsAccount d := by
  obtain ⟨account, haccount⟩ := hp _ _ .serviceAccount
  obtain ⟨e, hcalls, he⟩ := h
  cases hcalls with
  | databaseDeployment =>
    rw [(places_databaseDeployment _ _ _ he).2] at hname
    exact absurd (Option.some.inj hname) (childName_ne_anyName _ _)
  | serverDeployment =>
    obtain ⟨-, -, -, upsResources, proxyResources, hpod⟩ := serverDeployment_ok he
    refine ⟨account, p.server.anyName, ⟨_, .serviceAccount, haccount⟩,
      (places_serviceAccount _ _ haccount).2, ?_, ?_⟩
    · rw [hpod]
    · rw [hpod]
      exact ⟨_, List.mem_cons_of_mem _ List.mem_cons_self,
        List.mem_cons_of_mem _ List.mem_cons_self⟩

/-- The secret that a backup saves is the one that the pods read. -/
theorem savesDatabase_of_built (hp : p.Succeeds) {job : CronJob} (h : p.Builds .cronJob job) :
    p.SavesDatabase job := by
  obtain ⟨e, hcalls, he⟩ := h
  cases hcalls with
  | cronJob =>
    obtain ⟨-, ns, container, -, hcontainers, henv⟩ := cronJob_ok he
    refine ⟨container, Database.secretName p.server, hcontainers, ?_,
      fun key hkey => provides_connection hp hkey, ?_⟩
    · rw [henv, Option.getD_some, Backup.environment]
      split <;> rfl
    · intro d hd ref href hkey
      cases refers_of_built hd href with
      | connection hname => exact hname
      | credentials hon hname hkey' =>
        have hapart : ∀ key ∈ credentialKeys, key ∉ connectionKeys := by decide
        exact absurd hkey (hapart _ hkey')

/-! ## Services -/

theorem hasDeployment_of_built (hp : p.Succeeds) {service : Service}
    (h : p.Builds .service service) : p.HasDeployment service := by
  obtain ⟨d, hd, hfronts, hselector⟩ := fronts_of_built hp h
  exact ⟨d, hd, hfronts, fun d' hd' hselects => eq_of_selects hd hd' hselector hselects⟩

/-- The connection secret for the database of the operator: the host is the service in front of it,
and the port is that of the service. -/
theorem ownSecret_ok {password : String} {secret : Secret}
    (hown : server.spec.externalDB = false)
    (h : Database.secret server password = .ok secret) :
    ∃ ns, server.metadata.ns = some ns ∧
      Secret.value? secret Database.hostKey =
        some (childName server postgresql ++ "." ++ ns ++ ".svc") ∧
      Secret.value? secret Database.portKey = some (toString Database.port.toInt) := by
  obtain ⟨ns, hns, h⟩ := bind_eq_ok.1 h
  rw [hown] at h
  obtain ⟨entries, hentries, h⟩ := bind_eq_ok.1 h
  obtain ⟨m, -, h⟩ := bind_eq_ok.1 h
  obtain rfl := pure_eq_ok.1 h
  obtain rfl := pure_eq_ok.1 hentries
  refine ⟨ns, ObjectMeta.requireNs_eq_ok.1 hns, ?_, ?_⟩ <;>
    simp [Secret.value?, Database.ownEntries, Dict.ofList, Dict.insertAll, Dict.get?_insert,
      Database.hostKey, Database.portKey, Database.databaseKey, Database.usernameKey,
      Database.passwordKey, Database.superuserKey]

theorem leadsToService_of_built (hp : p.Succeeds) (hown : p.server.spec.externalDB = false)
    {secret : Secret} (h : p.Builds .secret secret)
    (hname : secret.metadata.name = some (Database.secretName p.server)) :
    p.LeadsToService secret := by
  have hneeded : (p.server.spec.externalDB && Database.namesSecret p.server) = false := by
    rw [hown, Bool.false_and]
  rw [Pass.secretName_eq hneeded] at hname
  obtain ⟨service, hservice⟩ := hp _ _ (.databaseService hown)
  obtain ⟨hplace, hserviceName⟩ := places_databaseService _ _ hservice
  obtain ⟨e, hcalls, he⟩ := h
  cases hcalls with
  | brokerSecret =>
    rw [(places_brokerSecret _ _ _ _ he).2] at hname
    exact absurd (childName_inj.1 (Option.some.inj hname)) (by decide)
  | databaseSecret =>
    obtain ⟨ns, hns, hhost, hport⟩ := ownSecret_ok hown he
    obtain ⟨-, -, hports⟩ := databaseService_ok hservice
    refine ⟨service, _, ns, ⟨_, .databaseService hown, hservice⟩, hserviceName,
      hplace.trans hns, hhost, ?_⟩
    rw [hports]
    exact ⟨_, List.mem_singleton.2 rfl, hport⟩

/-! ## Monitoring -/

theorem serviceMonitor_ok {monitor : ServiceMonitor}
    (h : Monitoring.serviceMonitor server = .ok monitor) : monitor.spec = {
      selector := {
        matchLabels := some (Dict.ofList [("service", childName server unifiedpush)]) }
      endpoints := [{ port := "web", path := Frontend.metricsPath }] } := by
  obtain ⟨m, -, h⟩ := bind_eq_ok.1 h
  obtain rfl := pure_eq_ok.1 h
  rfl

/-- A selector that asks for one label. -/
theorem matches_service_iff {labels : Dict String} :
    LabelSelector.Matches { matchLabels := some (Dict.ofList [("service", name)]) } labels ↔
      labels.get? "service" = some name := by
  have hget (key : String) : (Dict.ofList [("service", name)]).get? key =
      if key = "service" then some name else none := by
    show (Dict.empty.insert "service" name).get? key = _
    rw [Dict.get?_insert]
    rfl
  constructor
  · rintro ⟨-, wanted, heq, hwithin⟩
    obtain rfl := Option.some.inj heq
    exact hwithin _ _ (hget _)
  · refine fun h => ⟨rfl, _, rfl, fun key value hvalue => ?_⟩
    rw [hget] at hvalue
    split at hvalue
    · next heq => rw [heq, h, hvalue]
    · cases hvalue

/-- The services of a server bear their names as labels. -/
theorem service_of_built {service : Service} (h : p.Builds .service service) :
    service.metadata.labelsOrEmpty.get? "service" = service.metadata.name := by
  obtain ⟨e, hcalls, he⟩ := h
  cases hcalls with
  | databaseService =>
    rw [(databaseService_ok he).1, (places_databaseService _ _ he).2, get?_podMark]
    rfl
  | proxyService =>
    rw [(proxyService_ok he).1, (places_proxyService _ _ he).2, get?_podMark]
    rfl
  | serverService =>
    rw [(serverService_ok he).1, (places_serverService _ _ he).2]
    simp [Dict.insertAll, Dict.get?_insert, get?_podMark]

theorem watches_of_built (hp : p.Succeeds) {monitor : ServiceMonitor}
    (h : p.Builds .serviceMonitor monitor) : p.Watches monitor := by
  obtain ⟨service, hservice⟩ := hp _ _ .serverService
  have hbuilt : p.Builds .service service := ⟨_, .serverService, hservice⟩
  obtain ⟨e, hcalls, he⟩ := h
  cases hcalls with
  | serviceMonitor =>
    refine ⟨service, hbuilt, ?_, ?_, ?_⟩
    · rw [serviceMonitor_ok he, matches_service_iff, service_of_built hbuilt]
      exact (places_serverService _ _ hservice).2
    · rw [serviceMonitor_ok he]
      intro endpoint hendpoint
      obtain rfl := List.mem_singleton.1 hendpoint
      obtain ⟨-, hweb⟩ := serverService_ok hservice
      rw [Service.ports, hweb]
      exact ⟨_, List.mem_singleton.2 rfl, rfl⟩
    · intro service' hbuilt' hmatches
      rw [serviceMonitor_ok he, matches_service_iff, service_of_built hbuilt'] at hmatches
      obtain ⟨e', hcalls', he'⟩ := hbuilt'
      cases hcalls' with
      | databaseService =>
        rw [(places_databaseService _ _ he').2] at hmatches
        exact absurd (childName_inj.1 (Option.some.inj hmatches)) (by decide)
      | proxyService =>
        rw [(places_proxyService _ _ he').2] at hmatches
        exact absurd (childName_inj.1 (Option.some.inj hmatches)) (by decide)
      | serverService => exact Except.ok.inj (he'.symm.trans hservice)

end Child

open Child

/-! ## The main statement -/

/-- When all builders succeed that a pass calls for the spec of a server, every reference between
the children leads to what was built with it, and no service reaches the pods of another server.
That a server has a namespace follows from this success. -/
theorem references_resolve {p : Plan} (hp : p.Succeeds) : p.Resolves where
  children k name := by
    rw [mem_wanted_iff]
    refine ⟨exists_built hp, ?_⟩
    rintro ⟨o, ho, hname⟩
    obtain ⟨-, name', hname', hcalled⟩ := calledFor_of_built ho
    obtain rfl := Option.some.inj (hname.symm.trans hname')
    exact hcalled
  place k o h := (calledFor_of_built h).1
  deployments d h := equips_of_built hp h
  server d h hname := runsAsAccount_of_built hp h hname
  jobs job h := savesDatabase_of_built hp h
  accounts account h := by
    obtain ⟨route, hroute⟩ := hp _ _ .route
    obtain ⟨e, hcalls, he⟩ := h
    cases hcalls with
    | serviceAccount =>
      exact ⟨route, _, ⟨_, .route, hroute⟩, (places_proxyRoute _ _ hroute).2,
        redirectsTo_of_built he⟩
  routes route h := by
    obtain ⟨service, hservice⟩ := hp _ _ .proxyService
    obtain ⟨e, hcalls, he⟩ := h
    cases hcalls with
    | route =>
      obtain ⟨m, -, he⟩ := bind_eq_ok.1 he
      obtain rfl := pure_eq_ok.1 he
      exact ⟨service, _, ⟨_, .proxyService, hservice⟩, hservice,
        (places_proxyService _ _ hservice).2, rfl⟩
  services service h := hasDeployment_of_built hp h
  foreign q hne service h := by
    constructor
    · intro d hd
      obtain ⟨s, hlabels, -⟩ := marked_of_built hd
      refine not_selects_of_app hp h fun heq => hne ?_
      rw [hlabels, get?_podMark] at heq
      exact Option.some.inj heq
    · intro job hjob
      obtain ⟨e, hcalls, he⟩ := hjob
      cases hcalls with
      | cronJob =>
        refine not_selects_of_app hp h fun heq => ?_
        rw [(cronJob_ok he).1] at heq
        cases heq
  connection hown secret h hname := leadsToService_of_built hp hown h hname
  monitors monitor h := watches_of_built hp h

/-- A server with a database of its own, a broker and a backup. -/
def brokerPlan : Plan where
  server := { sampleServer "a" with
    spec := { (sampleServer "a").spec with useMessageBroker := true } }
  settings := {}
  serves _ := true
  databasePassword := "database"
  brokerPassword := "broker"
  brokerHost := "messaging.example"
  cookieSecret := "cookie"

theorem exists_ok_of_isSome {k : Kind} {e : Except Error (Object k)}
    (h : e.toOption.isSome = true) : ∃ o, e = .ok o := by
  cases e with
  | error => cases h
  | ok o => exact ⟨o, rfl⟩

theorem succeeds_brokerPlan : brokerPlan.Succeeds := by
  intro k e h
  refine exists_ok_of_isSome ?_
  cases h with
  | address _ hentry =>
    have hall : ∀ entry ∈ Broker.catalogue,
        (entry.2 brokerPlan.server).toOption.isSome = true := by decide +kernel
    exact hall _ hentry
  | cronJob hbackup =>
    have hall : ∀ backup ∈ brokerPlan.server.spec.backups,
        (Backup.cronJob brokerPlan.server brokerPlan.settings backup).toOption.isSome = true := by
      decide +kernel
    exact hall _ hbackup
  | _ => decide +kernel

/-- The pods of that server read the password for the broker from the secret that was built with it.
-/
theorem references_resolve_brokerPlan : brokerPlan.Succeeds ∧ brokerPlan.Resolves ∧
    ∃ (d : Deployment) (secret : Secret), brokerPlan.Builds .deployment d ∧
      (∃ ref ∈ secretRefs d, ref.name = "a-amq" ∧ ref.key = "artemis-password") ∧
      brokerPlan.Builds .secret secret ∧ secret.metadata.name = some "a-amq" ∧
      (Secret.value? secret "artemis-password").isSome = true := by
  have hresolves := references_resolve succeeds_brokerPlan
  refine ⟨succeeds_brokerPlan, hresolves, ?_⟩
  have hasks : (Frontend.deployment brokerPlan.server brokerPlan.settings
      brokerPlan.cookieSecret).toOption.any (fun d => (secretRefs d).any fun ref =>
        ref.name = "a-amq" ∧ ref.key = "artemis-password") = true := by
    decide +kernel
  obtain ⟨d, hd, hrefs⟩ := (Option.any_eq_true _ _).1 hasks
  obtain ⟨ref, hmem, href⟩ := List.any_eq_true.1 hrefs
  obtain ⟨hname, hkey⟩ := of_decide_eq_true href
  have hbuilt : brokerPlan.Builds .deployment d :=
    ⟨_, .serverDeployment, Rehearsal.eq_ok_of_toOption hd⟩
  rcases (hresolves.deployments d hbuilt).secrets ref hmem with
    ⟨secret, hsecret, hsecretName, hvalue⟩ | ⟨hexternal, -⟩
  · rw [hname] at hsecretName
    rw [hkey] at hvalue
    exact ⟨d, secret, hbuilt, ⟨ref, hmem, hname, hkey⟩, hsecret, hsecretName, hvalue⟩
  · cases hexternal

end PushOperator
