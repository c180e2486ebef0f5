import PushOperator.Proofs.Pass.Replaces

/-!
# Writes touch only what the operator owns

What a pass updates is a child of which it owns some part, and it changes that part only. Of the
servers it changes nothing but the status. So no pass changes a credential: what is generated once
stays as it was first stored (`ownedChanges_of_operated`).
-/

namespace PushOperator

open Cluster

variable {k : Kind} {settings : Settings} {ns name : String} {t : Trace} {r : Request}
  {c c' c'' : Cluster} {o : Object k} {x : Interaction (Except Error Action)}

/-! ## What may change -/

/-- An object without its version. -/
def Object.unversioned (o : Object k) : Object k :=
  { o with metadata := { o.metadata with resourceVersion := none } }

/-- A container differs from another one in its resources or in its image, and in nothing else. -/
def Container.DiffersOnce (before after : Container) : Prop :=
  before.resources ≠ after.resources ∧ after = { before with resources := after.resources } ∨
    before.image ≠ after.image ∧ after = { before with image := after.image }

/-- What an update may change of a child, apart from the version. The children that are not
mentioned are never updated. -/
def OwnedChange : (k : Kind) → Object k → Object k → Prop
  | .persistentVolumeClaim, before, after => ∃ size,
      Claim.storage? after = some size ∧ Claim.storage? before ≠ some size ∧
        Object.unversioned (Claim.withoutStorage after) =
          Object.unversioned (Claim.withoutStorage before)
  | .deployment, before, after => ∃ first live corrected rest,
      Deployment.containers before = first ++ live :: rest ∧
        Deployment.containers after = first ++ corrected :: rest ∧ live.DiffersOnce corrected ∧
        Object.unversioned (Deployment.withoutContainers after) =
          Object.unversioned (Deployment.withoutContainers before)
  | .serviceMonitor, before, after | .prometheusRule, before, after
  | .grafanaDashboard, before, after =>
    ∃ spec, after.unversioned = Object.unversioned { before with spec }
  | .cronJob, before, after => nsOf after = nsOf before ∧ nameOf after = nameOf before ∧
      after.metadata.uid = before.metadata.uid ∧
      after.metadata.ownerReferences = before.metadata.ownerReferences ∧
      after.status = before.status
  | _, _, _ => False

/-- A stamp is nothing but a version for an object that has a uid. -/
theorem unversioned_stamped (n : Nat) (h : o.metadata.uid ≠ none) :
    (stamped n o).unversioned = o.unversioned := by
  obtain ⟨uid, huid⟩ := Option.ne_none_iff_exists'.1 h
  unfold stamped Object.unversioned
  simp [huid]

/-! ## Corrections -/

theorem Deployment.ownedChange_of_modify {found : Deployment} {f : Container → Container}
    {target : String} {live : Container}
    (hlive : findContainer (containers found) target = some live)
    (hdiffers : live.DiffersOnce (f live)) :
    OwnedChange .deployment found (mapContainers (modifyContainer f target) found) := by
  obtain ⟨first, rest, hcontainers, hmodified⟩ := modifyContainer_of_find hlive
  have hsome : containers found ≠ [] := by simp [hcontainers]
  refine ⟨first, live, f live, rest, hcontainers, ?_, hdiffers, ?_⟩
  · rw [containers_mapContainers hsome, hmodified]
  · rw [withoutContainers_mapContainers]

theorem Deployment.ownedChange_of_resourcesDrift {found desired corrected : Deployment}
    (h : resourcesDrift found desired = some corrected) :
    OwnedChange .deployment found corrected := by
  obtain ⟨expected, -, live, hlive, hother, rfl⟩ := resourcesDrift_eq_some h
  exact ownedChange_of_modify hlive (.inl ⟨hother, rfl⟩)

theorem Deployment.ownedChange_of_imageDrift {found desired corrected : Deployment}
    {target : String} (h : imageDrift found desired target = some corrected) :
    OwnedChange .deployment found corrected := by
  obtain ⟨expected, live, -, hlive, hother, rfl⟩ := imageDrift_eq_some h
  exact ownedChange_of_modify hlive (.inr ⟨hother, rfl⟩)

/-- A correction changes one field of the child. -/
theorem Pass.Corrects.ownedChange {server : Server} {found : Object k}
    (h : Corrects settings server name found o) : OwnedChange k found o := by
  cases h with
  | storage _ hdesired hdrift =>
    obtain ⟨hother, ⟨-, hnone⟩ | ⟨size, hsize, rfl⟩⟩ := Claim.storageDrift_eq_some hdrift
    · obtain ⟨size, hsize⟩ := Child.exists_storage_claim hdesired
      rw [hnone] at hsize
      cases hsize
    · refine ⟨size, Claim.storage?_withStorage _ size, hsize ▸ hother, ?_⟩
      rw [Claim.withoutStorage_withStorage]
  | database _ _ hdrift =>
    rcases hdrift with hdrift | hdrift
    · exact Deployment.ownedChange_of_resourcesDrift hdrift
    · exact Deployment.ownedChange_of_imageDrift hdrift
  | frontend _ hdrift =>
    rcases hdrift with hdrift | hdrift | hdrift
    · exact Deployment.ownedChange_of_resourcesDrift hdrift
    · exact Deployment.ownedChange_of_imageDrift hdrift
    · exact Deployment.ownedChange_of_imageDrift hdrift

theorem Pass.Corrects.mem_correctedKinds {server : Server} {found : Object k}
    (h : Corrects settings server name found o) : k ∈ correctedKinds := by
  cases h <;> decide

/-! ## Updates -/

/-- Whatever the version, the change is the same. -/
theorem OwnedChange.stamped {before after : Object k} (h : OwnedChange k before after) (n : Nat)
    (huid : after.metadata.uid ≠ none) : OwnedChange k before (stamped n after) := by
  cases k with
  | persistentVolumeClaim =>
    obtain ⟨size, hsize, hother, heq⟩ := h
    have hsame := unversioned_stamped (o := Claim.withoutStorage after) n huid
    exact ⟨size, hsize, hother, hsame.trans heq⟩
  | deployment =>
    obtain ⟨first, live, corrected, rest, hcontainers, hafter, hdiffers, heq⟩ := h
    have hsame := unversioned_stamped (o := Deployment.withoutContainers after) n huid
    exact ⟨first, live, corrected, rest, hcontainers, hafter, hdiffers, hsame.trans heq⟩
  | serviceMonitor | prometheusRule | grafanaDashboard =>
    obtain ⟨spec, heq⟩ := h
    exact ⟨spec, (unversioned_stamped n huid).trans heq⟩
  | cronJob =>
    obtain ⟨hns, hname, heq, hrest⟩ := h
    obtain ⟨uid, hsome⟩ := Option.ne_none_iff_exists'.1 huid
    refine ⟨hns, hname, ?_, hrest⟩
    rw [← heq, hsome]
    show some (after.metadata.uid.getD _) = some uid
    rw [hsome]
    rfl
  | _ => exact h.elim

/-- What the cluster makes of an update whose metadata is that of the stored object. -/
theorem merged_eq_withSpec {read : Object k} (h : o.metadata = read.metadata) :
    ({ o with metadata := { o.metadata with uid := read.metadata.uid }, status := read.status } :
      Object k) = { read with spec := o.spec } := by
  rw [h]

/-- What an update of an object that was seen comes to when it is accepted. -/
theorem ownedChange_of_shown {found after : Object k} (hc : c.Stamped) (hrecent : Recent t c)
    (hread : ⟨k, found⟩ ∈ shown t)
    (hversion : o.metadata.resourceVersion = found.metadata.resourceVersion)
    (hanswer : c.answer (.update k o) = (.ok after, c'))
    (hchange : c.get? k (nsOf o) (nameOf o) = some found → OwnedChange k found { o with
      metadata := { o.metadata with uid := found.metadata.uid }
      status := found.status }) :
    ∃ before, c.get? k (nsOf o) (nameOf o) = some before ∧
      c'.get? k (nsOf o) (nameOf o) = some after ∧ OwnedChange k before after := by
  obtain ⟨hstored, -, rfl, rfl⟩ := hrecent.of_replace_ok hread hversion hanswer
  have huid : found.metadata.uid ≠ none := hc.uid k _ _ found hstored
  exact ⟨found, hstored, get?_store_self c _ _ _, (hchange hstored).stamped _ huid⟩

/-- An update that is accepted changes what is owned of the object that was stored before. -/
theorem ownedChange_of_update {after : Object k} (hc : c.Stamped) (hrecent : Recent t c)
    (hwarranted : Warranted settings ns name t (.update k o))
    (hanswer : c.answer (.update k o) = (.ok after, c')) :
    ∃ before, c.get? k (nsOf o) (nameOf o) = some before ∧
      c'.get? k (nsOf o) (nameOf o) = some after ∧ OwnedChange k before after := by
  obtain ⟨server, -, hwarrant⟩ := hwarranted.2 rfl
  cases hwarrant with
  | correct _ hget hcorrects =>
    have hmetadata := hcorrects.metadata
    refine ownedChange_of_shown hc hrecent (mem_shown_of_get hget) (by rw [hmetadata]) hanswer ?_
    intro _
    rw [merged_eq_withSpec hmetadata, ← hcorrects.eq_withSpec]
    exact hcorrects.ownedChange
  | @spec _ _ _ found spec hk hget =>
    refine ownedChange_of_shown hc hrecent (mem_shown_of_get hget) rfl hanswer fun _ => ?_
    cases k with
    | serviceMonitor | prometheusRule | grafanaDashboard => exact ⟨spec, rfl⟩
    | _ => exact absurd hk (by decide)
  | @job _ _ existing found desired hlisted hmem _ =>
    have hread : ⟨.cronJob, found⟩ ∈ shown t :=
      mem_shown_of_entry hlisted (List.mem_map.2 ⟨found, hmem, rfl⟩)
    refine ownedChange_of_shown hc hrecent hread rfl hanswer fun hstored => ?_
    obtain ⟨hns, hname⟩ := hc.keyed _ _ _ found hstored
    exact ⟨hns.symm, hname.symm, rfl, rfl, rfl⟩

/-! ## Servers -/

theorem Request.Writes.isWrite (h : r.Writes k) : r.isWrite = true := by
  cases r with
  | get | list | probe => exact h.elim
  | create | update | updateStatus | delete => rfl

/-- Of the servers, none has come or gone, and only the status and the version of one may have
changed. -/
def Cluster.ServersKept (c c' : Cluster) : Prop :=
  ∀ ns name, Option.Rel (fun before after => ∃ status,
    after.unversioned = Object.unversioned { before with status })
      (c.get? .unifiedPushServer ns name) (c'.get? .unifiedPushServer ns name)

theorem Cluster.ServersKept.exists_get? {live : Server} (h : c.ServersKept c')
    (hlive : c'.get? .unifiedPushServer ns name = some live) :
    ∃ before status, c.get? .unifiedPushServer ns name = some before ∧
      live.unversioned = Object.unversioned { before with status } := by
  have hrel := h ns name
  rw [hlive] at hrel
  cases hbefore : c.get? .unifiedPushServer ns name with
  | none =>
    rw [hbefore] at hrel
    cases hrel
  | some before =>
    rw [hbefore] at hrel
    cases hrel with
    | some hsame =>
      obtain ⟨status, hsame⟩ := hsame
      exact ⟨before, status, rfl, hsame⟩

/-- A pass writes no server but to update its status. -/
theorem Warranted.updatesStatus (h : Warranted settings ns name t r)
    (hwrites : r.Writes .unifiedPushServer) : ∃ o, r = .updateStatus .unifiedPushServer o := by
  obtain ⟨server, -, hwarrant⟩ := h.2 hwrites.isWrite
  cases hwarrant with
  | create _ hbuilds =>
    cases hwrites
    exact hbuilds.elim
  | correct _ _ hcorrects =>
    cases hwrites
    cases hcorrects
  | spec _ hk _ =>
    cases hwrites
    exact absurd hk (by decide)
  | job => cases hwrites
  | status status => exact ⟨_, rfl⟩
  | delete _ hk =>
    cases hwrites
    exact absurd hk (by decide)

theorem serversKept_of_shelf (h : c'.shelf .unifiedPushServer = c.shelf .unifiedPushServer) :
    c.ServersKept c' := by
  intro ns name
  rw [get?_of_shelf h]
  cases c.get? .unifiedPushServer ns name with
  | none => exact .none
  | some server => exact .some ⟨server.status, rfl⟩

theorem serversKept_of_answer (hc : c.Stamped) (h : Warranted settings ns name t r) :
    c.ServersKept (c.answer r).2 := by
  by_cases hwrites : r.Writes .unifiedPushServer
  · obtain ⟨o, rfl⟩ := h.updatesStatus hwrites
    rcases hanswer : c.answer (.updateStatus .unifiedPushServer o) with ⟨error | updated, c'⟩
    · obtain ⟨rfl, -⟩ := answer_error hanswer
      exact serversKept_of_shelf rfl
    · obtain ⟨stored, hstored, -, -, rfl⟩ := replace_ok.1 hanswer
      intro ns' name'
      rw [get?_store]
      split
      · next hplace =>
        obtain ⟨rfl, rfl⟩ := hplace
        rw [hstored]
        exact .some ⟨o.status, unversioned_stamped _ (hc.uid _ _ _ stored hstored)⟩
      · cases c.get? .unifiedPushServer ns' name' with
        | none => exact .none
        | some server => exact .some ⟨server.status, rfl⟩
  · exact serversKept_of_shelf (shelf_answer c hwrites)

/-! ## Credentials -/

/-- The credentials that were stored are still there as they were: the secrets, the users, and what
the containers of deployments are started with. -/
structure Cluster.CredentialsKept (c c' : Cluster) : Prop where
  secrets : Keeps .secret c c'
  users : Keeps .messagingUser c c'
  args : ∀ ns name (before : Deployment), c.get? .deployment ns name = some before →
    ∃ after, c'.get? .deployment ns name = some after ∧
      (Deployment.containers after).map (·.args) = (Deployment.containers before).map (·.args)

theorem Cluster.CredentialsKept.refl (c : Cluster) : c.CredentialsKept c :=
  ⟨.refl _ c, .refl _ c, fun _ _ before h => ⟨before, h, rfl⟩⟩

theorem Cluster.CredentialsKept.trans (h : c.CredentialsKept c') (h' : c'.CredentialsKept c'') :
    c.CredentialsKept c'' := by
  refine ⟨h.secrets.trans h'.secrets, h.users.trans h'.users, fun ns name before hbefore => ?_⟩
  obtain ⟨mid, hmid, hargs⟩ := h.args ns name before hbefore
  obtain ⟨after, hafter, hargs'⟩ := h'.args ns name mid hmid
  exact ⟨after, hafter, hargs'.trans hargs⟩

theorem credentialsKept_of_shelf (h : ∀ k ∈ [Kind.secret, .messagingUser, .deployment],
    c'.shelf k = c.shelf k) : c.CredentialsKept c' where
  secrets := keeps_of_shelf (h _ (by simp))
  users := keeps_of_shelf (h _ (by simp))
  args ns name before hbefore :=
    ⟨before, (get?_of_shelf (h _ (by simp)) ns name).trans hbefore, rfl⟩

/-- A child that is created is in nobody's place. -/
theorem keeps_of_create (c : Cluster) (o : Object k) (k' : Kind) :
    Keeps k' c (c.answer (.create k o)).2 := by
  rcases hanswer : c.answer (.create k o) with ⟨error | created, c'⟩
  · obtain ⟨rfl, -⟩ := answer_error hanswer
    exact .refl k' c'
  · obtain ⟨hfree, -, rfl⟩ := answer_create.1 hanswer
    exact keeps_store_of_free hfree k'

/-- What an update may change of a deployment leaves the arguments of its containers alone. -/
theorem OwnedChange.args {before after : Deployment} (h : OwnedChange .deployment before after) :
    (Deployment.containers after).map (·.args) = (Deployment.containers before).map (·.args) := by
  obtain ⟨first, live, corrected, rest, hcontainers, hafter, hdiffers, -⟩ := h
  have hargs : corrected.args = live.args := by
    rcases hdiffers with ⟨-, hsame⟩ | ⟨-, hsame⟩ <;> rw [hsame]
  rw [hcontainers, hafter]
  simp [hargs]

/-- A kind of which a pass only creates objects. -/
theorem keeps_of_warranted (h : Warranted settings ns name t r) (hk : k ∉ correctedKinds)
    (hspec : k ∉ Pass.specKinds) (hdeleted : k ∉ Pass.deletedKinds)
    (hserver : k ≠ .unifiedPushServer) : Keeps k c (c.answer r).2 := by
  by_cases hwrites : r.Writes k
  · obtain ⟨server, -, hwarrant⟩ := h.2 hwrites.isWrite
    cases hwarrant with
    | create => exact keeps_of_create c _ k
    | correct _ _ hcorrects =>
      cases hwrites
      exact absurd hcorrects.mem_correctedKinds hk
    | spec _ hmem _ =>
      cases hwrites
      exact absurd hmem hspec
    | job =>
      cases hwrites
      exact absurd (by decide) hdeleted
    | status =>
      cases hwrites
      exact absurd rfl hserver
    | delete _ hmem =>
      cases hwrites
      exact absurd hmem hdeleted
  · exact keeps_of_shelf (shelf_answer c hwrites)

theorem credentialsKept_of_answer (hc : c.Stamped) (hrecent : Recent t c)
    (h : Warranted settings ns name t r) : c.CredentialsKept (c.answer r).2 where
  secrets := keeps_of_warranted h (by decide) (by decide) (by decide) (by decide)
  users := keeps_of_warranted h (by decide) (by decide) (by decide) (by decide)
  args ns' name' before hbefore := by
    by_cases hwrites : r.Writes .deployment
    · obtain ⟨server, -, hwarrant⟩ := h.2 hwrites.isWrite
      cases hwarrant with
      | create => exact ⟨before, keeps_of_create c _ _ ns' name' before hbefore, rfl⟩
      | @correct _ _ _ _ o _ _ _ =>
        cases hwrites
        rcases hanswer : c.answer (.update .deployment o) with ⟨error | after, c'⟩
        · obtain ⟨rfl, -⟩ := answer_error hanswer
          exact ⟨before, hbefore, rfl⟩
        obtain ⟨stored, hstored, hafter, hchange⟩ := ownedChange_of_update hc hrecent h hanswer
        by_cases hplace : ns' = nsOf o ∧ name' = nameOf o
        · obtain ⟨rfl, rfl⟩ := hplace
          obtain rfl := Option.some.inj (hbefore.symm.trans hstored)
          exact ⟨after, hafter, hchange.args⟩
        · obtain ⟨_, -, -, -, rfl⟩ := replace_ok.1 hanswer
          refine ⟨before, ?_, rfl⟩
          rw [get?_store, if_neg hplace]
          exact hbefore
      | spec _ hk _ =>
        cases hwrites
        exact absurd hk (by decide)
      | job => cases hwrites
      | status => cases hwrites
      | delete _ hk =>
        cases hwrites
        exact absurd hk (by decide)
    · exact ⟨before, (get?_of_shelf (shelf_answer c hwrites) ns' name').trans hbefore, rfl⟩

/-! ## Runs of passes -/

/-- What others do who leave secrets, users and deployments alone. -/
structure Cluster.Aside (c c' : Cluster) : Prop where
  becomes : c.Becomes c'
  shelf : ∀ k ∈ [Kind.secret, .messagingUser, .deployment], c'.shelf k = c.shelf k

theorem Cluster.Aside.refl (c : Cluster) : c.Aside c := ⟨.refl, fun _ _ => rfl⟩

/-- What becomes of a cluster when passes are run over any servers and with any settings, to their
end or not, while calls may fail and others are at work. -/
inductive Cluster.Operated (c : Cluster) : Cluster → Prop
  | refl : Operated c c
  | others {c' c'' : Cluster} : Operated c c' → c'.Aside c'' → Operated c c''
  | pass {c' c'' : Cluster} {settings : Settings} {ns name : String} {t : Trace}
    {o : Option (Except Error Action)} : Operated c c' →
    Run (amid Aside) (reconcile settings ns name).run c' t o c'' → Operated c c''

/-- The steps of a pass keep credentials. -/
theorem credentialsKept_of_steps (hc : c.Stamped)
    (h : Steps (amid Aside) (reconcile settings ns name).run c t x c') : c.CredentialsKept c' := by
  induction h with
  | refl => exact .refl c
  | step hsteps hlast ih =>
    cases hlast with
    | call hanswer =>
      obtain ⟨c₁, hothers, hflaky⟩ := hanswer
      obtain ⟨hstamped, hrecent⟩ := recent_of_steps (fun _ _ h => h.becomes) hc hsteps
      have hbetween := ih.trans (credentialsKept_of_shelf hothers.shelf)
      have hafter := hbetween.trans (credentialsKept_of_answer (hothers.becomes.stamped hstamped)
        (hrecent.becomes hothers.becomes) (warranted_of_steps hsteps))
      -- Behind an error the request may have had its effect.
      rcases flaky_cases hflaky with rfl | rfl
      · exact hbetween
      · exact hafter
    | emit | secret => exact ih

theorem Cluster.Operated.kept (h : c.Operated c') (hc : c.Stamped) :
    c'.Stamped ∧ c.CredentialsKept c' := by
  induction h with
  | refl => exact ⟨hc, .refl c⟩
  | others _ hothers ih =>
    obtain ⟨hstamped, hkept⟩ := ih
    exact ⟨hothers.becomes.stamped hstamped, hkept.trans (credentialsKept_of_shelf hothers.shelf)⟩
  | pass _ hrun ih =>
    obtain ⟨hstamped, hkept⟩ := ih
    obtain ⟨x, hsteps, -⟩ := Steps.of_run hrun
    exact ⟨(recent_of_steps (fun _ _ h => h.becomes) hstamped hsteps).1,
      hkept.trans (credentialsKept_of_steps hstamped hsteps)⟩

/-- Wherever a history of passes has led, the credentials that were there are still the same. A pass
that is run then may be amid others who write anything: of the servers it writes the status at most,
and an update that is accepted changes only what is owned of a child. -/
theorem ownedChanges_of_operated {c₁ : Cluster} (hc : c.Stamped) (h : c.Operated c₁) :
    c.CredentialsKept c₁ ∧
      ∀ settings ns name t r next c₂ c₃,
        Steps (amid Becomes) (reconcile settings ns name).run c₁ t (.call r next) c₂ →
        c₂.Becomes c₃ →
          (r.Writes .unifiedPushServer → ∃ o, r = .updateStatus .unifiedPushServer o) ∧
          c₃.ServersKept (c₃.answer r).2 ∧
          ∀ k o after c₄, r = .update k o → c₃.answer (.update k o) = (.ok after, c₄) →
            ∃ before, c₃.get? k (nsOf o) (nameOf o) = some before ∧
              c₄.get? k (nsOf o) (nameOf o) = some after ∧ OwnedChange k before after := by
  obtain ⟨hstamped, hkept⟩ := h.kept hc
  refine ⟨hkept, fun settings ns name t r next c₂ c₃ hsteps hothers => ?_⟩
  have hwarranted : Warranted settings ns name t r := warranted_of_steps hsteps
  obtain ⟨hstamped₂, hrecent⟩ := recent_of_steps (fun _ _ h => h) hstamped hsteps
  have hstamped₃ := hothers.stamped hstamped₂
  refine ⟨hwarranted.updatesStatus, serversKept_of_answer hstamped₃ hwarranted, ?_⟩
  rintro k o after c₄ rfl hanswer
  exact ownedChange_of_update hstamped₃ (hrecent.becomes hothers) hwarranted hanswer

/-- The claim of a database has drifted. The update that a pass makes of it changes only the storage
that it asks for, and the credentials are kept. -/
theorem ownedChanges_of_operated_driftedCluster : ∃ (c₁ : Cluster) (t : Trace) (k : Kind)
    (o before after : Object k) (next : _) (c₂ c₄ : Cluster),
    driftedCluster.Operated c₁ ∧ driftedCluster.CredentialsKept c₁ ∧
    Steps (amid Becomes) (reconcile {} "push" "a").run driftedCluster t (.call (.update k o) next)
      c₂ ∧
    c₂.get? k (nsOf o) (nameOf o) = some before ∧ c₄.get? k (nsOf o) (nameOf o) = some after ∧
      OwnedChange k before after := by
  obtain ⟨t, c₁, hrun⟩ := exists_run_driftedCluster
  obtain ⟨x, hsteps, hend⟩ := Steps.of_run hrun
  obtain rfl := hend _ rfl
  -- There was a correction, so there is a call of the pass that was one.
  have hends : Corrected ([] ++ t) ↔ _ := grounded_reconcile.steps hsteps
  obtain ⟨e, he, hcorrects⟩ := hends.2 rfl
  rw [List.nil_append] at he
  obtain ⟨first, rest, rfl⟩ := List.append_of_mem he
  obtain ⟨x₁, c₂, x₂, c₄, hfirst, hstep, -⟩ := hsteps.of_append
  have hoperated : driftedCluster.Operated c₁ :=
    .pass .refl (hrun.mono (amid_of_reliable .refl))
  have hamid : Steps (amid Becomes) (reconcile {} "push" "a").run driftedCluster first _ c₂ :=
    hfirst.mono (amid_of_reliable fun _ => .refl)
  obtain ⟨hkept, -⟩ := ownedChanges_of_operated stamped_driftedCluster hoperated
  obtain ⟨-, hsteps'⟩ := ownedChanges_of_operated stamped_driftedCluster .refl
  cases hstep with
  | emit | secret => exact hcorrects.elim
  | @call r _ _ a _ hanswer =>
    cases r with
    | get | list | create | updateStatus | delete | probe => exact hcorrects.elim
    | update k o =>
      cases a with
      | error error => exact hcorrects.elim
      | ok after =>
        obtain ⟨-, -, hupdates⟩ := hsteps' {} "push" "a" _ _ _ _ _ hamid .refl
        obtain ⟨before, hbefore, hafter, hchange⟩ := hupdates k o after c₄ rfl hanswer
        exact ⟨c₁, _, k, o, before, after, _, c₂, c₄, hoperated, hkept, hamid, hbefore, hafter,
          hchange⟩

end PushOperator
