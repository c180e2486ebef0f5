import Mathlib.Algebra.Order.BigOperators.Group.List
import Mathlib.Algebra.Order.Ring.Nat
import PushOperator.Proofs.Cluster.World
import PushOperator.Proofs.Corrections
import PushOperator.Proofs.Pass.Warrants

/-!
# How many fields have drifted

Of the children of a server there are seven fields that are put right one at a time: the storage of
the claim, and resources and image of three containers. Here they are counted. A child that is
created has none that has drifted, and a correction leaves one less.
-/

namespace PushOperator

open Cluster Child

variable {k : Kind} {settings : Settings} {server : Server} {name : String} {c : Cluster}

/-! ## Counting -/

/-- Whether a claim asks for other storage than the wanted one. -/
def Claim.drift (found desired : Claim) : Nat := if storage? found = storage? desired then 0 else 1

/-- How many of the resources and the image are other than those of the wanted container. -/
def Container.drift (live expected : Container) : Nat :=
  (if live.resources = expected.resources then 0 else 1) +
    if live.image = expected.image then 0 else 1

/-- How many fields of the containers that are there are other than wanted. -/
def Deployment.drift (found desired : Deployment) : Nat :=
  ((containers desired).map fun expected =>
    ((findContainer (containers found) expected.name).map (·.drift expected)).getD 0).sum

/-- The drift of a child that is there, when it is known what is wanted. -/
def driftOf (drift : Object k → Object k → Nat) : Except Error (Object k) → Option (Object k) → Nat
  | .ok desired, some found => drift found desired
  | _, _ => 0

namespace Cluster

variable (c : Cluster) (settings : Settings) (server : Server)

/-- The drift of the claim and of the deployment of a database. One that is not the operator's has
none. -/
def databaseDrift : Nat :=
  if server.spec.externalDB then 0
  else driftOf Claim.drift (Database.claim server settings)
      (c.get? .persistentVolumeClaim (nsOf server) (childName server postgresql)) +
    driftOf Deployment.drift (Database.deployment server settings)
      (c.get? .deployment (nsOf server) (childName server postgresql))

/-- The drift of the deployment of the server and its proxy. -/
def frontendDrift : Nat :=
  driftOf Deployment.drift (Frontend.deployment server settings "")
    (c.get? .deployment (nsOf server) server.anyName)

/-- How many fields of the children of a server have drifted. -/
def drift : Nat := c.databaseDrift settings server + c.frontendDrift settings server

/-- The children of a server that are put right field by field are as they were. -/
structure SameChildren (server : Server) (c c' : Cluster) : Prop where
  claim : c'.get? .persistentVolumeClaim (nsOf server) (childName server postgresql) =
    c.get? .persistentVolumeClaim (nsOf server) (childName server postgresql)
  database : c'.get? .deployment (nsOf server) (childName server postgresql) =
    c.get? .deployment (nsOf server) (childName server postgresql)
  frontend : c'.get? .deployment (nsOf server) server.anyName =
    c.get? .deployment (nsOf server) server.anyName

end Cluster

/-! ## How much drift there can be -/

theorem Container.drift_le_two (live expected : Container) : live.drift expected ≤ 2 := by
  unfold drift
  split <;> split <;> omega

theorem Deployment.drift_le (found desired : Deployment) :
    drift found desired ≤ (containers desired).length * 2 := by
  have hle : ∀ n ∈ (containers desired).map fun expected =>
      ((findContainer (containers found) expected.name).map (·.drift expected)).getD 0, n ≤ 2 := by
    intro n hn
    obtain ⟨expected, -, rfl⟩ := List.mem_map.1 hn
    cases findContainer (containers found) expected.name with
    | none => exact Nat.zero_le 2
    | some live => exact live.drift_le_two expected
  have hsum := List.sum_le_card_nsmul _ 2 hle
  rwa [List.length_map] at hsum

theorem driftOf_le {drift : Object k → Object k → Nat} {wanted : Except Error (Object k)}
    {live : Option (Object k)} {bound : Nat}
    (h : ∀ found desired, wanted = .ok desired → drift found desired ≤ bound) :
    driftOf drift wanted live ≤ bound := by
  unfold driftOf
  split
  · exact h _ _ rfl
  · exact Nat.zero_le bound

theorem drift_le_seven (c : Cluster) (settings : Settings) (server : Server) :
    c.drift settings server ≤ 7 := by
  have hdatabase : c.databaseDrift settings server ≤ 1 + 2 := by
    unfold databaseDrift
    split
    · exact Nat.zero_le _
    refine Nat.add_le_add (driftOf_le fun found desired _ => ?_)
      (driftOf_le fun found desired hdesired => ?_)
    · unfold Claim.drift
      split <;> omega
    · obtain ⟨_, hcontainers⟩ := containers_databaseDeployment hdesired
      have hle := Deployment.drift_le found desired
      rwa [hcontainers] at hle
  have hfrontend : c.frontendDrift settings server ≤ 4 := by
    refine driftOf_le fun found desired hdesired => ?_
    obtain ⟨_, _, _, hcontainers, -⟩ := containers_serverDeployment hdesired
    have hle := Deployment.drift_le found desired
    rwa [hcontainers] at hle
  exact Nat.add_le_add hdatabase hfrontend

/-! ## What has no drift -/

theorem Deployment.drift_eq_zero {found desired : Deployment} (h : Matches found desired) :
    drift found desired = 0 := by
  unfold drift
  refine List.sum_eq_zero fun n hn => ?_
  obtain ⟨expected, hexpected, rfl⟩ := List.mem_map.1 hn
  cases hlive : findContainer (containers found) expected.name with
  | none => rfl
  | some live =>
    obtain ⟨hresources, himage⟩ := h expected hexpected live hlive
    simp [Container.drift, hresources, himage]

theorem Claim.drift_eq_zero {found desired : Claim} (h : found.spec = desired.spec) :
    drift found desired = 0 := by
  unfold drift
  rw [if_pos (storage?_of_spec h)]

/-! ## Corrections -/

/-- A container with less drift in place of a live one. -/
theorem Deployment.drift_modify_lt {found desired : Deployment} {f : Container → Container}
    {expected live : Container} (hnames : ((containers desired).map (·.name)).Nodup)
    (hexpected : expected ∈ containers desired)
    (hlive : findContainer (containers found) expected.name = some live)
    (hf : ∀ container, (f container).name = container.name)
    (hless : (f live).drift expected < live.drift expected) :
    drift (mapContainers (modifyContainer f expected.name) found) desired <
      drift found desired := by
  have hsome : containers found ≠ [] := by
    intro hnil
    rw [hnil] at hlive
    cases hlive
  unfold drift
  rw [containers_mapContainers hsome]
  refine List.sum_lt_sum _ _ (fun other hother => ?_) ⟨expected, hexpected, ?_⟩
  · rw [findContainer_modifyContainer hf]
    split
    · next hname =>
      -- Names are distinct, so there is no other container of this name.
      have hsame : other = expected := by
        have h := findContainer_of_mem hnames hother
        rw [hname, findContainer_of_mem hnames hexpected] at h
        exact (Option.some.inj h).symm
      subst hsame
      rw [hlive]
      exact hless.le
    · exact Nat.le_refl _
  · rw [findContainer_modifyContainer hf, if_pos rfl, hlive]
    exact hless

theorem Deployment.drift_lt_of_resourcesDrift {found desired corrected : Deployment}
    (hnames : ((containers desired).map (·.name)).Nodup)
    (h : resourcesDrift found desired = some corrected) :
    drift corrected desired < drift found desired := by
  obtain ⟨expected, hexpected, live, hlive, hother, rfl⟩ := resourcesDrift_eq_some h
  refine drift_modify_lt hnames hexpected hlive (fun _ => rfl) ?_
  simp [Container.drift, hother]

theorem Deployment.drift_lt_of_imageDrift {found desired corrected : Deployment} {target : String}
    (hnames : ((containers desired).map (·.name)).Nodup)
    (h : imageDrift found desired target = some corrected) :
    drift corrected desired < drift found desired := by
  obtain ⟨expected, live, hexpected, hlive, hother, rfl⟩ := imageDrift_eq_some h
  obtain ⟨hmem, rfl⟩ := findContainer_mem hexpected
  refine drift_modify_lt hnames hmem hlive (fun _ => rfl) ?_
  simp [Container.drift, hother]

theorem Claim.drift_lt_of_storageDrift {found desired corrected : Claim} {size : String}
    (hsize : storage? desired = some size) (h : storageDrift found desired = some corrected) :
    drift corrected desired < drift found desired := by
  obtain ⟨hother, ⟨-, hnone⟩ | ⟨size', hsize', rfl⟩⟩ := storageDrift_eq_some h
  · rw [hsize] at hnone
    cases hnone
  · unfold drift
    rw [if_neg hother, if_pos ((storage?_withStorage found size').trans hsize'.symm)]
    exact Nat.zero_lt_one

/-! ## Clusters -/

theorem sameChildren_of_shelf {c' : Cluster} (h : ∀ k ∈ correctedKinds, c'.shelf k = c.shelf k) :
    SameChildren server c c' where
  claim := get?_of_shelf (h _ (by decide)) _ _
  database := get?_of_shelf (h _ (by decide)) _ _
  frontend := get?_of_shelf (h _ (by decide)) _ _

theorem Cluster.SameChildren.drift_eq {c' : Cluster} (h : SameChildren server c c')
    (settings : Settings) : c'.drift settings server = c.drift settings server := by
  unfold Cluster.drift databaseDrift frontendDrift
  rw [h.claim, h.database, h.frontend]

section

variable {drift : Object k → Object k → Nat} {wanted : Except Error (Object k)}
  {o found desired : Object k} {ns ns' name' : String}

/-- An object without drift adds none, wherever it is stored. -/
theorem driftOf_store_le (h : ∀ desired, wanted = .ok desired → ns' = ns → name' = name →
    drift (stamped (c.revision + 1) o) desired = 0) :
    driftOf drift wanted ((c.store ns' name' o).2.get? k ns name) ≤
      driftOf drift wanted (c.get? k ns name) := by
  rw [get?_store]
  split
  · next hplace =>
    cases wanted with
    | error error => exact Nat.zero_le _
    | ok desired =>
      have hzero : driftOf drift (.ok desired) (some (stamped (c.revision + 1) o)) = 0 :=
        h desired rfl hplace.1.symm hplace.2.symm
      rw [hzero]
      exact Nat.zero_le _
  · exact Nat.le_refl _

/-- An object with less drift in place of another one. -/
theorem driftOf_store_lt (hwanted : wanted = .ok desired) (hget : c.get? k ns name = some found)
    (hstamp : drift (stamped (c.revision + 1) o) desired = drift o desired)
    (hless : drift o desired < drift found desired) :
    driftOf drift wanted ((c.store ns name o).2.get? k ns name) <
      driftOf drift wanted (c.get? k ns name) := by
  rw [get?_store_self, hget, hwanted]
  rw [← hstamp] at hless
  exact hless

end

theorem databaseDrift_of_own (h : server.spec.externalDB = false) :
    c.databaseDrift settings server =
      driftOf Claim.drift (Database.claim server settings)
        (c.get? .persistentVolumeClaim (nsOf server) (childName server postgresql)) +
      driftOf Deployment.drift (Database.deployment server settings)
        (c.get? .deployment (nsOf server) (childName server postgresql)) := by
  unfold databaseDrift
  rw [h]
  rfl

section

variable (hnames : settings.upsContainerName ≠ settings.oauthProxyContainerName)
include hnames

/-- What is created has not drifted. -/
theorem drift_store_built {o : Object k} (reference : OwnerReference)
    (hbuilds : Pass.Builds settings server k o) :
    (c.store (nsOf o) (nameOf o) (o.withOwner reference)).2.drift settings server ≤
      c.drift settings server := by
  have hother (suffix : String) : childName server suffix ≠ server.anyName :=
    childName_ne_anyName server suffix
  cases k with
  | persistentVolumeClaim =>
    have hwanted : Database.claim server settings = .ok o := hbuilds
    refine Nat.add_le_add ?_ (le_of_eq ?_)
    · unfold databaseDrift
      split
      · exact Nat.le_refl 0
      refine Nat.add_le_add (driftOf_store_le fun desired hdesired _ _ => ?_) (le_of_eq ?_)
      · obtain rfl := Except.ok.inj (hwanted.symm.trans hdesired)
        exact Claim.drift_eq_zero rfl
      · rw [get?_of_shelf (shelf_store_of_ne c _ _ _ (by decide))]
    · unfold frontendDrift
      rw [get?_of_shelf (shelf_store_of_ne c _ _ _ (by decide))]
  | deployment =>
    -- The deployment is the one of the place, or it is in the other place.
    have hdatabase {desired : Deployment}
        (hdesired : Database.deployment server settings = .ok desired)
        (hname : nameOf o = childName server postgresql) : desired = o := by
      rcases hbuilds with ⟨-, hbuilt⟩ | ⟨cookieSecret, hbuilt⟩
      · exact Except.ok.inj (hdesired.symm.trans hbuilt)
      · have hplace := (places_serverDeployment settings cookieSecret server o hbuilt).2
        rw [nameOf, hplace] at hname
        exact absurd hname.symm (hother _)
    have hfrontend {desired : Deployment}
        (hdesired : Frontend.deployment server settings "" = .ok desired)
        (hname : nameOf o = server.anyName) :
        Deployment.Matches (stamped (c.revision + 1) (o.withOwner reference)) desired := by
      rcases hbuilds with ⟨-, hbuilt⟩ | ⟨cookieSecret, hbuilt⟩
      · have hplace := (places_databaseDeployment settings server o hbuilt).2
        rw [nameOf, hplace] at hname
        exact absurd hname (hother _)
      · obtain ⟨desired', hdesired', hmatches⟩ := matches_serverDeployment hnames hbuilt
        obtain rfl := Except.ok.inj (hdesired.symm.trans hdesired')
        exact hmatches _ rfl
    refine Nat.add_le_add ?_ (driftOf_store_le fun desired hdesired _ hname => ?_)
    · unfold databaseDrift
      split
      · exact Nat.le_refl 0
      refine Nat.add_le_add (le_of_eq ?_) (driftOf_store_le fun desired hdesired _ hname => ?_)
      · rw [get?_of_shelf (shelf_store_of_ne c _ _ _ (by decide))]
      · obtain rfl := hdatabase hdesired hname
        exact Deployment.drift_eq_zero
          (Deployment.matches_of_spec (nodup_databaseContainers hdesired) rfl)
    · exact Deployment.drift_eq_zero (hfrontend hdesired hname)
  | _ =>
    refine le_of_eq ((sameChildren_of_shelf fun k' hk' => ?_).drift_eq settings)
    refine shelf_store_of_ne c _ _ _ ?_
    rintro rfl
    exact absurd hk' (by decide)

/-- A correction leaves less. -/
theorem drift_store_corrected {found o : Object k}
    (hcorrects : Pass.Corrects settings server name found o)
    (hget : c.get? k (nsOf server) name = some found) :
    (c.store (nsOf server) name o).2.drift settings server < c.drift settings server := by
  have hother (suffix : String) : childName server suffix ≠ server.anyName :=
    childName_ne_anyName server suffix
  cases hcorrects with
  | storage hown hdesired hdrift =>
    refine Nat.add_lt_add_of_lt_of_le ?_ (le_of_eq ?_)
    · rw [databaseDrift_of_own hown, databaseDrift_of_own hown]
      obtain ⟨size, hsize⟩ := exists_storage_claim hdesired
      refine Nat.add_lt_add_of_lt_of_le (driftOf_store_lt hdesired hget rfl ?_) (le_of_eq ?_)
      · exact Claim.drift_lt_of_storageDrift hsize hdrift
      · rw [get?_of_shelf (shelf_store_of_ne c _ _ _ (by decide))]
    · unfold frontendDrift
      rw [get?_of_shelf (shelf_store_of_ne c _ _ _ (by decide))]
  | @database _ desired _ hown hdesired hdrift =>
    refine Nat.add_lt_add_of_lt_of_le ?_ (driftOf_store_le fun _ _ _ hname => ?_)
    · rw [databaseDrift_of_own hown, databaseDrift_of_own hown]
      refine Nat.add_lt_add_of_le_of_lt (le_of_eq ?_) (driftOf_store_lt hdesired hget rfl ?_)
      · rw [get?_of_shelf (shelf_store_of_ne c _ _ _ (by decide))]
      · have hdistinct := nodup_databaseContainers hdesired
        rcases hdrift with hdrift | hdrift
        · exact Deployment.drift_lt_of_resourcesDrift hdistinct hdrift
        · exact Deployment.drift_lt_of_imageDrift hdistinct hdrift
    · exact absurd hname (hother _)
  | @frontend _ desired _ hdesired hdrift =>
    refine Nat.add_lt_add_of_le_of_lt ?_ (driftOf_store_lt hdesired hget rfl ?_)
    · unfold databaseDrift
      split
      · exact Nat.le_refl 0
      refine Nat.add_le_add (le_of_eq ?_) (driftOf_store_le fun _ _ _ hname => ?_)
      · rw [get?_of_shelf (shelf_store_of_ne c _ _ _ (by decide))]
      · exact absurd hname.symm (hother _)
    · have hdistinct := nodup_serverContainers hnames hdesired
      rcases hdrift with hdrift | hdrift | hdrift
      · exact Deployment.drift_lt_of_resourcesDrift hdistinct hdrift
      · exact Deployment.drift_lt_of_imageDrift hdistinct hdrift
      · exact Deployment.drift_lt_of_imageDrift hdistinct hdrift

end

end PushOperator
