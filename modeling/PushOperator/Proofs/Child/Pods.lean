import PushOperator.Proofs.Child.Built

/-!
# Pods of the children

The pods that the deployments and the scheduled jobs of a server start: what they run, and the two
labels by which they are known.
-/

namespace PushOperator

/-- All entries of a dictionary are in another one. -/
def Dict.Within {β : Type} (d d' : Dict β) : Prop :=
  ∀ key value, d.get? key = some value → d'.get? key = some value

namespace PodTemplate

/-- The labels that the pods bear. -/
def labels (template : PodTemplate) : Dict String :=
  (template.metadata.bind (·.labels)).getD ∅

/-- What the pods run. -/
def pod (template : PodTemplate) : PodSpec := template.spec.getD {}

end PodTemplate

/-- All containers of a pod, those that run before the others included. -/
def PodSpec.allContainers (pod : PodSpec) : List Container :=
  pod.initContainers.getD [] ++ pod.containers

/-- The pods of a deployment. -/
def Deployment.template (deployment : Deployment) : PodTemplate :=
  (deployment.spec.map (·.template)).getD {}

/-- Which pods a deployment takes for its own. -/
def Deployment.selector (deployment : Deployment) : LabelSelector :=
  (deployment.spec.map (·.selector)).getD {}

/-- The pods of a scheduled job. -/
def CronJob.template (job : CronJob) : PodTemplate :=
  (job.spec.bind fun spec => spec.jobTemplate.spec.map (·.template)).getD {}

namespace Child

variable {server : Server} {settings : Settings} {a a' s s' key : String}

/-! ## Labels -/

/-- The labels by which services and deployments know pods. -/
def podMark (app service : String) : Dict String :=
  Dict.ofList [("app", app), ("service", service)]

theorem get?_podMark : (podMark a s).get? key =
    if key = "service" then some s else if key = "app" then some a else none := by
  show ((Dict.empty.insert "app" a).insert "service" s).get? key = _
  rw [Dict.get?_insert, Dict.get?_insert]
  rfl

theorem podMark_within {d : Dict String} :
    (podMark a s).Within d ↔ d.get? "app" = some a ∧ d.get? "service" = some s := by
  constructor
  · exact fun h => ⟨h _ _ (by simp [get?_podMark]), h _ _ (by simp [get?_podMark])⟩
  · rintro ⟨happ, hservice⟩ key value hvalue
    rw [get?_podMark] at hvalue
    split at hvalue
    · next heq => rw [heq, hservice, hvalue]
    · split at hvalue
      · next heq => rw [heq, happ, hvalue]
      · cases hvalue

theorem podMark_within_podMark : (podMark a s).Within (podMark a' s') ↔ a' = a ∧ s' = s := by
  rw [podMark_within]
  simp [get?_podMark]

/-- The pods of the server are not taken for those of a database. -/
theorem childName_ne_ups (server : Server) : childName server postgresql ≠ "ups" := by
  intro h
  have hlength := congrArg (fun text => text.toList.length) h
  simp [childName, postgresql] at hlength

/-! ## What is started -/

/-- The deployment of the database: how its pods are known, and what they run. -/
theorem databaseDeployment_ok {d : Deployment}
    (h : Database.deployment server settings = .ok d) :
    (Deployment.template d).labels = podMark server.anyName (childName server postgresql) ∧
    (Deployment.selector d).matchLabels =
      some (podMark server.anyName (childName server postgresql)) ∧
    (Deployment.selector d).matchExpressions = none ∧
    ∃ resources, (Deployment.template d).pod = {
      containers := [Database.container server settings resources]
      volumes := some [{
        name := childName server postgresql ++ "-data"
        persistentVolumeClaim := some { claimName := childName server postgresql } }]
      affinity := server.spec.affinity
      tolerations := tolerations server } := by
  obtain ⟨resources, -, h⟩ := bind_eq_ok.1 h
  obtain ⟨m, -, h⟩ := bind_eq_ok.1 h
  obtain rfl := pure_eq_ok.1 h
  exact ⟨rfl, rfl, rfl, resources, rfl⟩

/-- The deployment of the server. -/
theorem serverDeployment_ok {cookieSecret : String} {d : Deployment}
    (h : Frontend.deployment server settings cookieSecret = .ok d) :
    (Deployment.template d).labels = podMark server.anyName "ups" ∧
    (Deployment.selector d).matchLabels = some (podMark server.anyName "ups") ∧
    (Deployment.selector d).matchExpressions = none ∧
    ∃ upsResources proxyResources, (Deployment.template d).pod = {
      serviceAccountName := some server.anyName
      initContainers := some [Frontend.waitContainer server settings]
      containers := [
        Frontend.upsContainer server settings upsResources,
        Frontend.proxyContainer server settings proxyResources cookieSecret]
      affinity := server.spec.affinity
      tolerations := tolerations server } := by
  obtain ⟨upsResources, -, h⟩ := bind_eq_ok.1 h
  obtain ⟨proxyResources, -, h⟩ := bind_eq_ok.1 h
  obtain ⟨m, -, h⟩ := bind_eq_ok.1 h
  obtain rfl := pure_eq_ok.1 h
  exact ⟨rfl, rfl, rfl, upsResources, proxyResources, rfl⟩

/-- A scheduled job has one container, and its pods bear no labels. -/
theorem cronJob_ok {backup : Backup} {job : CronJob}
    (h : Backup.cronJob server settings backup = .ok job) :
    (CronJob.template job).labels = ∅ ∧ ∃ ns container, server.metadata.ns = some ns ∧
      (CronJob.template job).pod.allContainers = [container] ∧
      container.env = some (Backup.environment server backup ns) := by
  obtain ⟨ns, hns, h⟩ := bind_eq_ok.1 h
  obtain ⟨m, -, h⟩ := bind_eq_ok.1 h
  obtain rfl := pure_eq_ok.1 h
  exact ⟨rfl, ns, _, ObjectMeta.requireNs_eq_ok.1 hns, rfl, rfl⟩

end Child

end PushOperator
