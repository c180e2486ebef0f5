import PushOperator.Proofs.Cluster.Versions
import PushOperator.Proofs.Corrections
import PushOperator.Proofs.Pass.WarrantedSteps

/-!
# What a pass replaces

A pass replaces nothing that it has not read: whatever it updates carries the version of an object
that it has seen, and a child that it puts right says where it is.
-/

namespace PushOperator

open Cluster

variable {k : Kind} {settings : Settings} {ns name name' : String} {server : Server} {t : Trace}
  {r : Request} {o : Object k}

/-- A request replaces an object, or its status, by another one. -/
inductive Request.Replaces : Request → {k : Kind} → Object k → Prop
  | update {k : Kind} (o : Object k) : Replaces (.update k o) o
  | updateStatus {k : Kind} (o : Object k) : Replaces (.updateStatus k o) o

theorem Request.Replaces.isWrite (h : r.Replaces o) : r.isWrite = true := by
  cases h <;> rfl

/-! ## What is replaced was read -/

/-- A correction changes nothing but the spec. -/
theorem Pass.Corrects.eq_withSpec {found : Object k}
    (h : Pass.Corrects settings server name' found o) : o = { found with spec := o.spec } := by
  have hresources {found o desired : Deployment}
      (hdrift : Deployment.resourcesDrift found desired = some o) :
      o = { found with spec := o.spec } := by
    obtain ⟨_, -, _, -, -, rfl⟩ := Deployment.resourcesDrift_eq_some hdrift
    rfl
  have himage {found o desired : Deployment} {container : String}
      (hdrift : Deployment.imageDrift found desired container = some o) :
      o = { found with spec := o.spec } := by
    obtain ⟨_, _, -, -, -, rfl⟩ := Deployment.imageDrift_eq_some hdrift
    rfl
  cases h with
  | storage _ _ hdrift =>
    obtain ⟨-, ⟨rfl, -⟩ | ⟨size, -, rfl⟩⟩ := Claim.storageDrift_eq_some hdrift
    · rfl
    · rfl
  | database _ _ hdrift => exact hdrift.elim hresources himage
  | frontend _ hdrift => exact hdrift.elim hresources (Or.rec himage himage)

theorem Pass.Corrects.metadata {found : Object k}
    (h : Pass.Corrects settings server name' found o) : o.metadata = found.metadata := by
  rw [h.eq_withSpec]

theorem mem_shown_of_get {found : Object k}
    (h : .call (.get k ns name) (.ok (some found)) ∈ t) : ⟨k, found⟩ ∈ shown t :=
  mem_shown_of_entry h List.mem_cons_self

/-- The server that a pass has in mind has the metadata of one that it has read. -/
theorem Fetched.exists_shown (h : Fetched ns name t server) :
    ∃ read : Server, ⟨.unifiedPushServer, read⟩ ∈ shown t ∧ server.metadata = read.metadata := by
  induction h with
  | get hget => exact ⟨_, mem_shown_of_get hget, rfl⟩
  | written _ hwritten => exact ⟨_, mem_shown_of_entry hwritten List.mem_cons_self, rfl⟩
  | withStatus _ _ ih => exact ih

/-- Whatever a pass replaces carries the version of something that it has read. -/
theorem Warranted.exists_shown (h : Warranted settings ns name t r) (hr : r.Replaces o) :
    ∃ read : Object k, ⟨k, read⟩ ∈ shown t ∧
      o.metadata.resourceVersion = read.metadata.resourceVersion := by
  obtain ⟨server, hfetched, hwarrant⟩ := h.2 hr.isWrite
  cases hr with
  | update o =>
    cases hwarrant with
    | correct _ hfound hcorrects => exact ⟨_, mem_shown_of_get hfound, by rw [hcorrects.metadata]⟩
    | spec _ _ hfound => exact ⟨_, mem_shown_of_get hfound, rfl⟩
    | job hlisted hmem _ =>
      refine ⟨_, mem_shown_of_entry hlisted (List.mem_map.2 ⟨_, hmem, rfl⟩), rfl⟩
  | updateStatus o =>
    cases hwarrant with
    | status status =>
      obtain ⟨read, hread, hmetadata⟩ := hfetched.exists_shown
      exact ⟨read, hread, congrArg ObjectMeta.resourceVersion hmetadata⟩

/-! ## Where it is -/

/-- The server that a pass has in mind is the one that it was run for. -/
theorem Fetched.inPlace (h : Fetched ns name t server) (ht : ∀ e ∈ t, e.InPlace) :
    nsOf server = ns ∧ nameOf server = name := by
  induction h with
  | get hget => exact ht _ hget
  | written _ hwritten ih =>
    obtain ⟨hns, hname⟩ := ht _ hwritten
    exact ⟨hns.trans ih.1, hname.trans ih.2⟩
  | withStatus _ _ ih => exact ih

/-- A text that counts as empty when it is missing, and is not empty. -/
theorem eq_some_of_getD {text : Option String} {value : String} (h : text.getD "" = value)
    (hvalue : value ≠ "") : text = some value := by
  cases text with
  | none => exact absurd h.symm hvalue
  | some text => exact congrArg some h

theorem Pass.Corrects.name_ne_empty {found : Object k}
    (h : Pass.Corrects settings server name' found o) (hserver : server.anyName ≠ "") :
    name' ≠ "" := by
  cases h with
  | storage | database => simp [Child.childName]
  | frontend => exact hserver

/-- A child that is put right says where it is. -/
theorem placed_of_correct (ht : ∀ e ∈ t, e.InPlace) (hns : ns ≠ "") (hname : name ≠ "")
    (h : Warranted settings ns name t (.update k o)) (hk : k ∈ correctedKinds) :
    Pass.placed o.metadata = .ok () := by
  obtain ⟨server, hfetched, hwarrant⟩ := h.2 rfl
  cases hwarrant with
  | @correct _ ns' name' found _ hserver hget hcorrects =>
    obtain ⟨hserverNs, hserverName⟩ := hfetched.inPlace ht
    obtain ⟨hfoundNs, hfoundName⟩ := ht _ hget
    obtain rfl : ns' = ns := by
      rw [nsOf, hserver] at hserverNs
      exact hserverNs
    have hany : server.anyName = name := by
      rw [Object.anyName, ObjectMeta.anyName, eq_some_of_getD hserverName hname]
      rfl
    have hplace : found.metadata.ns = some ns' := eq_some_of_getD hfoundNs hns
    have hnamed : found.metadata.name = some name' :=
      eq_some_of_getD hfoundName (hcorrects.name_ne_empty (hany ▸ hname))
    rw [hcorrects.metadata]
    exact Pass.placed_eq_ok ⟨_, hplace⟩ ⟨_, hnamed⟩
  | spec _ hspec => exact absurd hk (not_corrected_of_spec k hspec)
  | job => exact absurd hk (by decide)

/-! ## Clusters to try -/

theorem stamped_sampleCluster : sampleCluster.Stamped :=
  ((stamped_empty.store _).store _).store _

/-- The claim of a database, with more storage than is asked for by default. -/
def largeClaim : Claim where
  metadata := { name := some "a-postgresql", ns := some "push" }
  spec := some { resources := some { requests := some (Dict.ofList [("storage", "9Gi")]) } }
  status := none

/-- The same cluster where the claim of one of the servers has drifted. -/
def driftedCluster : Cluster := (sampleCluster.store "push" "a-postgresql" largeClaim).2

theorem stamped_driftedCluster : driftedCluster.Stamped := stamped_sampleCluster.store largeClaim

/-- A pass over that server puts the claim right. -/
theorem exists_run_driftedCluster : ∃ t c',
    Run reliable (reconcile {} "push" "a").run driftedCluster t (some (.ok (.requeue 1))) c' := by
  have hresult :
      (Rehearsal.run (reconcile {} "push" "a") { cluster := driftedCluster }).1.toOption =
        some (.requeue 1) := by
    decide +kernel
  exact Rehearsal.exists_run_of_unplanned rfl rfl hresult

end PushOperator
