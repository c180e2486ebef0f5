import PushOperator.Proofs.Drift
import PushOperator.Proofs.Registry

/-!
# What corrections change

Each check that finds drift answers the live child with one field changed: the storage of a claim,
or the resources or the image of a single container. Here is what that child looks like, and where
else it is as it was.
-/

namespace PushOperator

/-! ## Claims -/

namespace Claim

/-- The resources that a claim asks for. -/
def requests (claim : Claim) : Dict String :=
  (((claim.spec.getD {}).resources.getD {}).requests).getD ∅

/-- All that a claim says but for its storage. A part that is not there says as much as an empty
one. -/
def withoutStorage (claim : Claim) : Claim :=
  let spec := claim.spec.getD {}
  let resources := spec.resources.getD {}
  { claim with spec := some {
      spec with resources := some {
        resources with requests := some (claim.requests.erase "storage") } } }

theorem withoutStorage_withStorage (claim : Claim) (size : String) :
    withoutStorage (withStorage claim size) = withoutStorage claim := by
  have hrequests : requests (withStorage claim size) = claim.requests.insert "storage" size := rfl
  unfold withoutStorage
  rw [hrequests, Dict.erase_insert]
  rfl

theorem storage?_withStorage (claim : Claim) (size : String) :
    storage? (withStorage claim size) = some size := by
  show Dict.get? (Dict.insert _ "storage" size) "storage" = some size
  rw [Dict.get?_insert, if_pos rfl]

theorem storageDrift_eq_some {found desired o : Claim} (h : storageDrift found desired = some o) :
    storage? found ≠ storage? desired ∧
      (o = found ∧ storage? desired = none ∨
        ∃ size, storage? desired = some size ∧ o = withStorage found size) := by
  unfold storageDrift at h
  split at h
  · cases h
  · next hother =>
    refine ⟨hother, ?_⟩
    split at h
    · next size hsize => exact .inr ⟨size, hsize, (Option.some.inj h).symm⟩
    · next hnone => exact .inl ⟨(Option.some.inj h).symm, hnone⟩

theorem metadata_of_storageDrift {found desired o : Claim}
    (h : storageDrift found desired = some o) : o.metadata = found.metadata := by
  obtain ⟨-, ⟨rfl, -⟩ | ⟨size, -, rfl⟩⟩ := storageDrift_eq_some h <;> rfl

end Claim

/-- The claim that is built asks for storage. -/
theorem Child.exists_storage_claim {server : Server} {settings : Settings} {desired : Claim}
    (h : Database.claim server settings = .ok desired) :
    ∃ size, Claim.storage? desired = some size := by
  obtain ⟨m, -, h⟩ := bind_eq_ok.1 h
  obtain ⟨size, -, h⟩ := bind_eq_ok.1 h
  obtain rfl := pure_eq_ok.1 h
  exact ⟨size, rfl⟩

/-! ## Containers -/

section

variable {f : Container → Container} {name name' : String} {containers : List Container}
  {live : Container}

/-- Only the container that is found under the name is changed. -/
theorem modifyContainer_of_find (h : findContainer containers name = some live) :
    ∃ before after, containers = before ++ live :: after ∧
      modifyContainer f name containers = before ++ f live :: after := by
  induction containers with
  | nil => cases h
  | cons head rest ih =>
    unfold findContainer at h
    rw [List.find?_cons] at h
    unfold modifyContainer
    split at h
    · next hname =>
      obtain rfl := Option.some.inj h
      exact ⟨[], rest, rfl, by simp [hname]⟩
    · next hname =>
      obtain ⟨before, after, rfl, hmodify⟩ := ih h
      exact ⟨head :: before, after, rfl, by simp [hname, hmodify]⟩

/-- What is found under a name after a change that leaves names alone. -/
theorem findContainer_modifyContainer (hf : ∀ c, (f c).name = c.name) :
    findContainer (modifyContainer f name containers) name' =
      if name' = name then (findContainer containers name).map f
      else findContainer containers name' := by
  unfold findContainer
  induction containers with
  | nil => simp [modifyContainer]
  | cons head rest ih =>
    unfold modifyContainer
    by_cases hhead : head.name = name
    · by_cases hname : name' = name
      · simp [hhead, hname, hf]
      · have hother : ¬name = name' := fun h => hname h.symm
        simp [hhead, hname, hf, hother]
    · by_cases hname : name' = name
      · subst hname
        simpa [hhead] using ih
      · by_cases hother : head.name = name'
        · simp [hother, hname]
        · simpa [hhead, hother, hname] using ih

end

/-! ## Deployments -/

namespace Deployment

variable {found desired o : Deployment} {name : String} {g : List Container → List Container}

/-- Where there is a container, the pod can be changed. -/
theorem containers_mapContainers {d : Deployment} (h : containers d ≠ []) :
    containers (mapContainers g d) = g (containers d) := by
  unfold containers at h ⊢
  unfold mapContainers
  cases hspec : d.spec with
  | none => simp [hspec] at h
  | some spec => cases hpod : spec.template.spec <;> simp_all

/-- All that matters is what becomes of the containers that are there. -/
theorem mapContainers_eq_const (g : List Container → List Container) (d : Deployment) :
    mapContainers g d = mapContainers (fun _ => g (containers d)) d := by
  unfold mapContainers containers
  cases hspec : d.spec with
  | none => rfl
  | some spec => cases hpod : spec.template.spec <;> simp [hpod]

/-- All that a deployment says but for its containers. -/
def withoutContainers (d : Deployment) : Deployment :=
  { d with spec := d.spec.map fun spec =>
      { spec with template := { spec.template with spec := spec.template.spec.map fun pod =>
          { pod with containers := [] } } } }

theorem withoutContainers_mapContainers (g : List Container → List Container) (d : Deployment) :
    withoutContainers (mapContainers g d) = withoutContainers d := by
  unfold withoutContainers mapContainers
  cases hspec : d.spec with
  | none => rfl
  | some spec => cases hpod : spec.template.spec <;> simp [hpod]

theorem resourcesDrift_eq_some (h : resourcesDrift found desired = some o) :
    ∃ expected ∈ containers desired, ∃ live,
      findContainer (containers found) expected.name = some live ∧
        live.resources ≠ expected.resources ∧
        o = mapContainers (modifyContainer
          (fun c => { c with resources := expected.resources }) expected.name) found := by
  obtain ⟨expected, hexpected, rfl⟩ := Option.map_eq_some_iff.1 h
  have hother := List.find?_some hexpected
  unfold hasOtherResources at hother
  split at hother
  · next live hlive =>
    exact ⟨expected, List.mem_of_find?_eq_some hexpected, live, hlive, by simpa using hother, rfl⟩
  · cases hother

theorem imageDrift_eq_some (h : imageDrift found desired name = some o) :
    ∃ expected live, findContainer (containers desired) name = some expected ∧
      findContainer (containers found) name = some live ∧ live.image ≠ expected.image ∧
      o = mapContainers (modifyContainer (fun c => { c with image := expected.image }) name)
        found := by
  unfold imageDrift at h
  obtain ⟨expected, hexpected, hrest⟩ := Option.bind_eq_some_iff.1 h
  obtain ⟨live, hlive, hend⟩ := Option.bind_eq_some_iff.1 hrest
  split at hend
  · cases hend
  · next hother => exact ⟨expected, live, hexpected, hlive, hother, (Option.some.inj hend).symm⟩

theorem metadata_of_resourcesDrift (h : resourcesDrift found desired = some o) :
    o.metadata = found.metadata := by
  obtain ⟨_, -, _, -, -, rfl⟩ := resourcesDrift_eq_some h
  rfl

theorem metadata_of_imageDrift (h : imageDrift found desired name = some o) :
    o.metadata = found.metadata := by
  obtain ⟨_, _, -, -, -, rfl⟩ := imageDrift_eq_some h
  rfl

end Deployment

end PushOperator
