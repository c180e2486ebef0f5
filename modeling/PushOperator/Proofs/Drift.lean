import Mathlib.Tactic.Common
import PushOperator.Drift
import PushOperator.Child.Frontend
import PushOperator.Proofs.Child.Place

/-!
# Children without drift

Drift checks that find nothing, in terms of the live and the wanted child: the claims ask for the
same storage, and the containers of the deployments have the same resources and images. A deployment
that was just built shows no drift, whatever cookie secret it carries.
-/

namespace PushOperator

/-! ## Claims -/

theorem Claim.storageDrift_eq_none {found desired : Claim} :
    storageDrift found desired = none ↔ storage? found = storage? desired := by
  unfold storageDrift
  constructor
  · intro h
    split at h
    · assumption
    · split at h <;> cases h
  · intro h
    rw [if_pos h]

theorem Claim.storage?_of_spec {found desired : Claim} (h : found.spec = desired.spec) :
    storage? found = storage? desired := by
  unfold storage?
  rw [h]

/-! ## Deployments -/

theorem findContainer_mem {containers : List Container} {name : String} {container : Container}
    (h : findContainer containers name = some container) :
    container ∈ containers ∧ container.name = name := by
  refine ⟨List.mem_of_find?_eq_some h, ?_⟩
  simpa using List.find?_some h

/-- Where names are distinct, each container is found under its name. -/
theorem findContainer_of_mem {containers : List Container} {container : Container}
    (hnames : (containers.map (·.name)).Nodup) (h : container ∈ containers) :
    findContainer containers container.name = some container := by
  induction containers with
  | nil => cases h
  | cons head rest ih =>
    obtain ⟨hhead, hrest⟩ := List.nodup_cons.1 hnames
    rcases List.mem_cons.1 h with rfl | h
    · simp [findContainer]
    · have hmem : container.name ∈ rest.map (·.name) := List.mem_map_of_mem h
      have hne : head.name ≠ container.name := by
        intro heq
        rw [← heq] at hmem
        exact hhead hmem
      rw [findContainer, List.find?_cons_of_neg (by simpa using hne)]
      exact ih hrest h

namespace Deployment

variable {found desired : Deployment}

/-- A live container that is there has the resources and the image of the wanted one of its name. -/
def Matches (found desired : Deployment) : Prop :=
  ∀ expected ∈ containers desired, ∀ live,
    findContainer (containers found) expected.name = some live →
      live.resources = expected.resources ∧ live.image = expected.image

theorem resourcesDrift_eq_none :
    resourcesDrift found desired = none ↔ ∀ expected ∈ containers desired, ∀ live,
      findContainer (containers found) expected.name = some live →
        live.resources = expected.resources := by
  simp only [resourcesDrift, Option.map_eq_none_iff, List.find?_eq_none]
  refine forall₂_congr fun expected _ => ?_
  unfold hasOtherResources
  cases findContainer (containers found) expected.name with
  | none => simp
  | some live => simp

theorem imageDrift_eq_none {name : String} :
    imageDrift found desired name = none ↔ ∀ expected live,
      findContainer (containers desired) name = some expected →
        findContainer (containers found) name = some live → live.image = expected.image := by
  unfold imageDrift
  cases findContainer (containers desired) name with
  | none => simp
  | some expected =>
    cases findContainer (containers found) name with
    | none => simp
    | some live => simp

/-- No check finds drift exactly when the containers match. -/
theorem matches_iff (hnames : ((containers desired).map (·.name)).Nodup) :
    Matches found desired ↔ resourcesDrift found desired = none ∧
      ∀ expected ∈ containers desired, imageDrift found desired expected.name = none := by
  rw [resourcesDrift_eq_none]
  constructor
  · intro h
    refine ⟨fun expected he live hlive => (h expected he live hlive).1, fun expected he => ?_⟩
    rw [imageDrift_eq_none]
    intro expected' live hexpected hlive
    rw [findContainer_of_mem hnames he] at hexpected
    exact Option.some.inj hexpected ▸ (h expected he live hlive).2
  · rintro ⟨hresources, himage⟩ expected he live hlive
    exact ⟨hresources expected he live hlive,
      imageDrift_eq_none.1 (himage expected he) expected live (findContainer_of_mem hnames he)
        hlive⟩

/-- What the operator looks after in a container. -/
def managed (container : Container) : String × Option ResourceRequirements × Option String :=
  (container.name, container.resources, container.image)

/-- A deployment matches another one whose containers are the same in what is looked after. -/
theorem matches_of_managed (hnames : ((containers desired).map (·.name)).Nodup)
    (h : (containers found).map managed = (containers desired).map managed) :
    Matches found desired := by
  intro expected he live hlive
  obtain ⟨hmem, hname⟩ := findContainer_mem hlive
  have hlive : managed live ∈ (containers desired).map managed := h ▸ List.mem_map_of_mem hmem
  obtain ⟨expected', he', hmanaged⟩ := List.mem_map.1 hlive
  obtain ⟨hname', hresources, himage⟩ : expected'.name = live.name ∧
      expected'.resources = live.resources ∧ expected'.image = live.image := by
    simpa [managed] using hmanaged
  have heq : expected' = expected := by
    have h₁ := findContainer_of_mem hnames he'
    rw [hname', hname, findContainer_of_mem hnames he] at h₁
    exact (Option.some.inj h₁).symm
  subst heq
  exact ⟨hresources.symm, himage.symm⟩

theorem containers_of_spec (h : found.spec = desired.spec) :
    containers found = containers desired := by
  unfold containers
  rw [h]

theorem matches_of_spec (hnames : ((containers desired).map (·.name)).Nodup)
    (h : found.spec = desired.spec) : Matches found desired :=
  matches_of_managed hnames (by rw [containers_of_spec h])

end Deployment

namespace Child

open Deployment

/-! ## The deployments that are built -/

variable {server : Server} {settings : Settings} {desired : Deployment}

theorem containers_databaseDeployment
    (h : Database.deployment server settings = .ok desired) : ∃ resources,
      containers desired = [Database.container server settings resources] := by
  obtain ⟨resources, -, h⟩ := bind_eq_ok.1 h
  obtain ⟨m, -, h⟩ := bind_eq_ok.1 h
  obtain rfl := pure_eq_ok.1 h
  exact ⟨resources, rfl⟩

theorem status_databaseDeployment (h : Database.deployment server settings = .ok desired) :
    desired.status = none := by
  obtain ⟨resources, -, h⟩ := bind_eq_ok.1 h
  obtain ⟨m, -, h⟩ := bind_eq_ok.1 h
  obtain rfl := pure_eq_ok.1 h
  rfl

theorem nodup_databaseContainers (h : Database.deployment server settings = .ok desired) :
    ((containers desired).map (·.name)).Nodup := by
  obtain ⟨resources, hcontainers⟩ := containers_databaseDeployment h
  simp [hcontainers]

/-- The checks of the database step find nothing exactly when the containers match. -/
theorem matches_databaseDeployment_iff {found : Deployment}
    (h : Database.deployment server settings = .ok desired) :
    Matches found desired ↔ resourcesDrift found desired = none ∧
      imageDrift found desired settings.postgresContainerName = none := by
  rw [matches_iff (nodup_databaseContainers h)]
  obtain ⟨resources, hcontainers⟩ := containers_databaseDeployment h
  rw [hcontainers, List.forall_mem_singleton]
  rfl

/-- The deployments of a server differ in their cookie secrets only. -/
theorem containers_serverDeployment {cookieSecret : String}
    (h : Frontend.deployment server settings cookieSecret = .ok desired) :
    ∃ upsResources proxyResources desired',
      containers desired = [Frontend.upsContainer server settings upsResources,
        Frontend.proxyContainer server settings proxyResources cookieSecret] ∧
      Frontend.deployment server settings "" = .ok desired' ∧
      containers desired' = [Frontend.upsContainer server settings upsResources,
        Frontend.proxyContainer server settings proxyResources ""] := by
  obtain ⟨upsResources, hups, h⟩ := bind_eq_ok.1 h
  obtain ⟨proxyResources, hproxy, h⟩ := bind_eq_ok.1 h
  obtain ⟨m, hm, h⟩ := bind_eq_ok.1 h
  obtain rfl := pure_eq_ok.1 h
  obtain ⟨desired', hdesired, hcontainers⟩ : ∃ desired',
      Frontend.deployment server settings "" = .ok desired' ∧
        containers desired' = [Frontend.upsContainer server settings upsResources,
          Frontend.proxyContainer server settings proxyResources ""] := by
    unfold Frontend.deployment
    rw [hups, hproxy, hm]
    exact ⟨_, rfl, rfl⟩
  exact ⟨upsResources, proxyResources, desired', rfl, hdesired, hcontainers⟩

theorem status_serverDeployment {cookieSecret : String}
    (h : Frontend.deployment server settings cookieSecret = .ok desired) :
    desired.status = none := by
  obtain ⟨upsResources, -, h⟩ := bind_eq_ok.1 h
  obtain ⟨proxyResources, -, h⟩ := bind_eq_ok.1 h
  obtain ⟨m, -, h⟩ := bind_eq_ok.1 h
  obtain rfl := pure_eq_ok.1 h
  rfl

section
variable (hnames : settings.upsContainerName ≠ settings.oauthProxyContainerName)
include hnames

theorem nodup_serverContainers {desired : Deployment} {cookieSecret : String}
    (h : Frontend.deployment server settings cookieSecret = .ok desired) :
    ((containers desired).map (·.name)).Nodup := by
  obtain ⟨upsResources, proxyResources, _, hcontainers, -, -⟩ := containers_serverDeployment h
  rw [hcontainers]
  simpa [Frontend.upsContainer, Frontend.proxyContainer] using hnames

/-- The checks of the server step find nothing exactly when the containers match. -/
theorem matches_serverDeployment_iff {found : Deployment}
    (h : Frontend.deployment server settings "" = .ok desired) :
    Matches found desired ↔ resourcesDrift found desired = none ∧
      imageDrift found desired settings.upsContainerName = none ∧
        imageDrift found desired settings.oauthProxyContainerName = none := by
  rw [matches_iff (nodup_serverContainers hnames h)]
  obtain ⟨upsResources, proxyResources, _, hcontainers, -, -⟩ := containers_serverDeployment h
  rw [hcontainers, List.forall_mem_cons, List.forall_mem_singleton]
  rfl

/-- A deployment that was built with one cookie secret matches one that was built with another. -/
theorem matches_serverDeployment {cookieSecret : String} {created : Deployment}
    (hcreated : Frontend.deployment server settings cookieSecret = .ok created) :
    ∃ desired, Frontend.deployment server settings "" = .ok desired ∧
      ∀ found : Deployment, found.spec = created.spec → Matches found desired := by
  obtain ⟨_, _, desired, hcontainers, hdesired, hcontainers'⟩ :=
    containers_serverDeployment hcreated
  refine ⟨desired, hdesired, fun found hspec => ?_⟩
  refine matches_of_managed (nodup_serverContainers hnames hdesired) ?_
  rw [containers_of_spec hspec, hcontainers, hcontainers']
  rfl

end

end Child

end PushOperator
