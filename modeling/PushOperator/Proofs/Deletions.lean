import PushOperator.Proofs.OwnedCreations
import PushOperator.Proofs.Pass.Deletions

/-!
# Whose objects are deleted

What the legacy step deletes belongs to the server. The backup step only looks at the labels and the
name of a job: it deletes the jobs that seem to be those of backups that are no longer wanted
(`Retired`), whoever they belong to. So everything that is deleted belongs to the server as long as
such jobs do, and everything else is still there after the pass, with the owners that it had
(`deletions_owned`). A job of nobody that carries the labels of backups is deleted all the same
(`unowned_deleted_retiredCluster`).
-/

namespace PushOperator

open Child Cluster

variable {k : Kind} {settings : Settings} {ns name ns' place : String} {server : Server}
  {c c' : Cluster} {t : Trace} {r : Request} {o : Object k} {x : Interaction (Except Error Action)}

/-! ## What is listed -/

/-- A job in the namespace of the server that carries the labels of its backups and bears the name
of none of them. -/
def Retired (server : Server) : (k : Kind) → Object k → Prop
  | .cronJob, job => server.metadata.ns = some (nsOf job) ∧
    selects (selector server backup) job.metadata.labelsOrEmpty = true ∧
      ∀ backup ∈ server.spec.backups, backup.name ≠ job.anyName
  | _, _ => False

/-- What is listed is stored, and matches the selector. -/
theorem listed_of_flaky {selector : String} {objects : List (Object k)} (hc : c.Keyed)
    (h : flaky (.list k ns selector) c (.ok objects) c') (ho : o ∈ objects) :
    nsOf o = ns ∧ c.get? k ns (nameOf o) = some o ∧
      selects selector o.metadata.labelsOrEmpty = true := by
  obtain ⟨rfl, -⟩ := answer_list.1 (flaky_ok_iff.1 h)
  obtain ⟨hmem, hselects⟩ := List.mem_filter.1 ho
  obtain ⟨place, hget⟩ := mem_values_objects.1 hmem
  obtain ⟨hns, rfl⟩ := hc k ns place o hget
  exact ⟨hns, hget, hselects⟩

theorem NamedForBackup.exists_anyName (h : NamedForBackup server k o) :
    ∃ backup ∈ server.spec.backups, backup.name = o.anyName := by
  cases k with
  | cronJob =>
    obtain ⟨backup, hbackup, hname⟩ := h
    exact ⟨backup, hbackup, (anyName_of_name hname).symm⟩
  | _ => exact h.elim

theorem NamedForBackup.kind (h : NamedForBackup server k o) : k = .cronJob := by
  cases k with
  | cronJob => rfl
  | _ => exact h.elim

/-- That is a matter of the name. -/
theorem NamedForBackup.of_name {o' : Object k} (h : NamedForBackup server k o)
    (hname : o'.metadata.name = o.metadata.name) : NamedForBackup server k o' := by
  cases k with
  | cronJob =>
    obtain ⟨backup, hbackup, heq⟩ := h
    exact ⟨backup, hbackup, hname.trans heq⟩
  | _ => exact h.elim

/-! ## What is deleted -/

theorem deletable_of_steps {w : World Cluster} {next : Except Error Unit → Interaction _}
    (htells : Tells Server.Stays t)
    (h : Steps w (reconcile settings ns name).run c t (.call (.delete k o) next) c') :
    k ∈ Pass.deletedKinds ∧ ∃ server, Fetches ns name server t ∧ Deletable server t o := by
  obtain ⟨_, -, hwarrant⟩ := (warranted_of_steps h).2 rfl
  cases hwarrant with
  | delete _ hk =>
    rcases clears_of_steps htells h with ⟨-, heq⟩ | ⟨server, hfetches, hclears⟩
    · cases heq
    · exact ⟨hk, server, hfetches, hclears hk⟩

/-- Whatever others do, what is deleted was seen in the namespace of the server. It belongs to the
server, or is a job that seems to be one of its backups. -/
theorem belongs_or_retired_of_steps {others : Cluster → Cluster → Prop}
    {next : Except Error Unit → Interaction _} (hothers : ∀ c c', others c c' → Becomes c c')
    (hc : c.Stamped)
    (h : Steps (amid others) (reconcile settings ns name).run c t (.call (.delete k o) next) c') :
    k ∈ Pass.deletedKinds ∧ nsOf o = ns ∧ ∃ server, Fetches ns name server t ∧
      (o.metadata.isOwnedBy server.metadata.uid = true ∨ Retired server k o) := by
  obtain ⟨hk, server, hfetches, hdeletable⟩ :=
    deletable_of_steps (stays_of_steps hothers hc h) h
  have hplace : nsOf server = ns ∧ nameOf server = name :=
    (inPlace_of_steps hothers hc.keyed h).2 _ hfetches.mem
  have hlisted {k : Kind} {ns₁ selector : String} {objects : List (Object k)} {o : Object k}
      (hns : server.metadata.ns = some ns₁)
      (hmem : .call (.list k ns₁ selector) (.ok objects) ∈ t) (ho : o ∈ objects) :
      nsOf o = ns ∧ selects selector o.metadata.labelsOrEmpty = true := by
    obtain ⟨before, after, next, c₁, c₂, -, hbefore, c₃, hbetween, hanswer⟩ := h.of_mem hmem
    have hkeyed := (hothers _ _ hbetween).keyed (inPlace_of_steps hothers hc.keyed hbefore).1
    obtain ⟨rfl, -, hselects⟩ := listed_of_flaky hkeyed hanswer ho
    exact ⟨(nsOf_of_eq_some hns).symm.trans hplace.1, hselects⟩
  cases hdeletable with
  | legacy _ hns hmem ho howned =>
    exact ⟨hk, (hlisted hns hmem ho).1, server, hfetches, .inl howned⟩
  | @backup _ _ job hns hmem ho hnamed =>
    obtain ⟨hplaced, hselects⟩ := hlisted hns hmem ho
    have hserver : server.metadata.ns = some (nsOf job) := by
      rw [hns, hplaced, ← hplace.1, nsOf_of_eq_some hns]
    exact ⟨hk, hplaced, server, hfetches, .inr ⟨hserver, hselects, hnamed⟩⟩

/-! ## What is left -/

/-- What a request may leave of an object: its identity and its owners. -/
def Cluster.StillHolds (c : Cluster) (k : Kind) (ns name : String) (o : Object k) : Prop :=
  ∃ live, c.get? k ns name = some live ∧ live.metadata.uid = o.metadata.uid ∧
    live.metadata.ownerReferences = o.metadata.ownerReferences

/-- An update that is owned leaves these alone. -/
theorem OwnedChange.identity {before after : Object k} (h : OwnedChange k before after) :
    after.metadata.uid = before.metadata.uid ∧
      after.metadata.ownerReferences = before.metadata.ownerReferences := by
  have hmetadata (hsame : { after.metadata with resourceVersion := none } =
      { before.metadata with resourceVersion := none }) :
      after.metadata.uid = before.metadata.uid ∧
        after.metadata.ownerReferences = before.metadata.ownerReferences :=
    ⟨congrArg (·.uid) hsame, congrArg (·.ownerReferences) hsame⟩
  cases k with
  | persistentVolumeClaim =>
    obtain ⟨size, -, -, hsame⟩ := h
    exact hmetadata (congrArg (·.metadata) hsame)
  | deployment =>
    obtain ⟨first, live, corrected, rest, -, -, -, hsame⟩ := h
    exact hmetadata (congrArg (·.metadata) hsame)
  | serviceMonitor | prometheusRule | grafanaDashboard =>
    obtain ⟨spec, hsame⟩ := h
    exact hmetadata (congrArg (·.metadata) hsame)
  | cronJob => exact ⟨h.2.2.1, h.2.2.2.1⟩
  | _ => exact h.elim

/-- A replacement that keeps the metadata leaves an object where it is. -/
theorem Cluster.StillHolds.store {k' : Kind} {stored merged : Object k'}
    (h : c.StillHolds k ns' place o) (hc : c.Stamped)
    (hstored : c.get? k' ns name = some stored)
    (hmerged : merged.metadata.uid = stored.metadata.uid ∧
      merged.metadata.ownerReferences = stored.metadata.ownerReferences) :
    (c.store ns name merged).2.StillHolds k ns' place o := by
  obtain ⟨live, hlive, huid, howners⟩ := h
  by_cases hk : k' = k
  · subst hk
    unfold StillHolds
    rw [get?_store]
    split
    · next hplace =>
      obtain ⟨rfl, rfl⟩ := hplace
      obtain rfl := Option.some.inj (hlive.symm.trans hstored)
      obtain ⟨uid, hsome⟩ := Option.ne_none_iff_exists'.1 (hc.uid _ _ _ _ hlive)
      refine ⟨_, rfl, ?_, hmerged.2.trans howners⟩
      simp [stamped, hmerged.1, hsome, ← huid]
    · exact ⟨live, hlive, huid, howners⟩
  · refine ⟨live, ?_, huid, howners⟩
    rw [get?_of_shelf (shelf_store_of_ne c _ _ _ hk)]
    exact hlive

/-- What a pass asks for leaves an object alone that it does not delete. -/
theorem Cluster.StillHolds.answer (h : c.StillHolds k ns' place o) (hc : c.Stamped)
    (hrecent : Recent t c) (hwarranted : Warranted settings ns name t r)
    (hdelete : ∀ o' : Object k, r = .delete k o' → ¬(nsOf o' = ns' ∧ nameOf o' = place)) :
    (c.answer r).2.StillHolds k ns' place o := by
  rcases hanswer : c.answer r with ⟨error | reply, c'⟩
  · obtain ⟨rfl, -⟩ := answer_error hanswer
    exact h
  cases r with
  | get | list | probe =>
    cases hanswer
    exact h
  | create k' new =>
    obtain ⟨live, hlive, hsame⟩ := h
    have hkept := keeps_of_create c new k ns' place live hlive
    rw [hanswer] at hkept
    exact ⟨live, hkept, hsame⟩
  | update k' new =>
    obtain ⟨before, hbefore, hafter, hchange⟩ :=
      ownedChange_of_update hc hrecent hwarranted hanswer
    obtain ⟨stored, hstored, -, rfl, rfl⟩ := replace_ok.1 hanswer
    obtain rfl := Option.some.inj (hbefore.symm.trans hstored)
    obtain ⟨-, howners⟩ := hchange.identity
    exact h.store hc hstored ⟨rfl, howners⟩
  | updateStatus k' new =>
    obtain ⟨stored, hstored, -, rfl, rfl⟩ := replace_ok.1 hanswer
    exact h.store hc hstored ⟨rfl, rfl⟩
  | delete k' gone =>
    obtain ⟨-, rfl⟩ := answer_delete.1 hanswer
    obtain ⟨live, hlive, hsame⟩ := h
    refine ⟨live, ?_, hsame⟩
    by_cases hk : k' = k
    · subst hk
      rw [get?_remove, if_neg fun hplace => hdelete gone rfl ⟨hplace.1.symm, hplace.2.symm⟩]
      exact hlive
    · rw [get?_remove_of_ne _ _ _ _ _ hk]
      exact hlive

section

variable (hc : c.Stamped) (hserver : c.get? .unifiedPushServer ns name = some server)
include hc hserver

/-- While nobody else writes, all objects of the kinds that are deleted were there before, except
for the jobs of backups. -/
theorem stood_or_named_of_steps (h : Steps flaky (reconcile settings ns name).run c t x c')
    (hk : k ∈ Pass.deletedKinds) (hget : c'.get? k ns' place = some o) :
    c.get? k ns' place = some o ∨ NamedForBackup server k o := by
  suffices hall : ∀ o, c'.get? k ns' place = some o →
      c.get? k ns' place = some o ∨ NamedForBackup server k o from hall o hget
  refine preserved_of_flaky (P := fun c' => ∀ o, c'.get? k ns' place = some o →
    c.get? k ns' place = some o ∨ NamedForBackup server k o) h ?_ fun _ => .inl
  intro t₁ r a t₂ next c₁ _ hsteps hthere o ho
  have hnamed {new : Object k} (hclears : ∀ server, Request.Clears server t₁ r →
      k ∈ Pass.deletedKinds → NamedForBackup server k new) (hwrite : r.isWrite = true) :
      NamedForBackup server k new := by
    rcases clears_of_steps (stays_of_flaky hc hsteps) hsteps with ⟨-, rfl⟩ | ⟨live, hfetches, hr⟩
    · cases hwrite
    · obtain rfl := Option.some.inj (hserver.symm.trans (get?_of_fetches hfetches hsteps))
      exact hclears _ hr hk
  cases leaves_of_answer ho with
  | kept hbefore => exact hthere o hbefore
  | @created new _ _ _ heq =>
    exact .inr ((hnamed (fun _ h => h) rfl).of_name (heq ▸ rfl))
  | @updated new stored _ _ _ heq =>
    exact .inr ((hnamed (fun _ h => h) rfl).of_name (heq ▸ rfl))
  | restated =>
    obtain ⟨_, -, hwarrant⟩ := (warranted_of_steps hsteps).2 rfl
    cases hwarrant
    exact absurd hk (by decide)

/-- So what a pass deletes was there before. -/
theorem stood_of_deletable (h : Steps flaky (reconcile settings ns name).run c t x c')
    (hk : k ∈ Pass.deletedKinds) (hdeletable : Deletable server t o) :
    c.get? k (nsOf o) (nameOf o) = some o := by
  have hstood {k : Kind} {ns₁ selector : String} {objects : List (Object k)} {o : Object k}
      (hk : k ∈ Pass.deletedKinds)
      (hmem : .call (.list k ns₁ selector) (.ok objects) ∈ t) (ho : o ∈ objects) :
      c.get? k (nsOf o) (nameOf o) = some o ∨ NamedForBackup server k o := by
    obtain ⟨before, after, next, c₁, c₂, -, hbefore, hanswer⟩ := h.of_mem hmem
    obtain ⟨rfl, hget, -⟩ := listed_of_flaky (stamped_of_flaky hc hbefore).keyed hanswer ho
    exact stood_or_named_of_steps hc hserver hbefore hk hget
  cases hdeletable with
  | legacy hlegacy _ hmem ho _ =>
    rcases hstood hk hmem ho with hthere | hnamed
    · exact hthere
    · obtain rfl := hnamed.kind
      exact absurd hlegacy (by decide)
  | backup _ hmem ho hunnamed =>
    rcases hstood hk hmem ho with hthere | hnamed
    · exact hthere
    · obtain ⟨backup, hbackup, heq⟩ := hnamed.exists_anyName
      exact absurd heq (hunnamed backup hbackup)

end

/-- While nobody else writes, an object that the server does not own is still there after any steps
of a pass, unless it seems to be the job of a backup. -/
theorem stillHolds_of_steps (hc : c.Stamped)
    (h : Steps flaky (reconcile settings ns name).run c t x c')
    (hget : c.get? k ns' place = some o)
    (hforeign : ∀ server, c.get? .unifiedPushServer ns name = some server →
      o.metadata.isOwnedBy server.metadata.uid = false ∧ ¬Retired server k o) :
    c'.StillHolds k ns' place o := by
  refine preserved_of_flaky (P := (·.StillHolds k ns' place o)) h ?_ ⟨o, hget, rfl, rfl⟩
  intro t₁ r a t₂ next c₁ _ hsteps hholds
  have hamid := hsteps.mono (amid_of_flaky fun c => Becomes.refl)
  obtain ⟨hstamped, hrecent⟩ := recent_of_steps (fun _ _ h => h) hc hamid
  refine hholds.answer hstamped hrecent (warranted_of_steps hsteps) ?_
  rintro gone rfl ⟨rfl, rfl⟩
  have htells := stays_of_flaky hc hsteps
  obtain ⟨hk, server, hfetches, hdeletable⟩ := deletable_of_steps htells hsteps
  have hserver := get?_of_fetches hfetches hsteps
  -- What would be deleted in its place is the object as it was in the beginning.
  have hstood := stood_of_deletable hc hserver hsteps hk hdeletable
  obtain rfl := Option.some.inj (hget.symm.trans hstood)
  obtain ⟨hunowned, hretired⟩ := hforeign server hserver
  obtain ⟨-, -, server', hfetches', hbelongs⟩ :=
    belongs_or_retired_of_steps (fun _ _ h => h) hc hamid
  obtain rfl := hfetches.unique hfetches'
  rcases hbelongs with howned | hret
  · rw [hunowned] at howned
    cases howned
  · exact hretired hret

/-! ## The main statement -/

/-- The jobs that the backup step would delete belong to the server. -/
def Cluster.OwnsRetired (ns name : String) (c : Cluster) : Prop :=
  ∀ server, c.get? .unifiedPushServer ns name = some server → ∀ place (job : CronJob),
    c.get? .cronJob ns place = some job → Retired server .cronJob job →
      job.metadata.isOwnedBy server.metadata.uid = true

/-- Whatever others do, what a pass deletes is a job, a deployment configuration or an image stream
in the namespace of its server, and it belongs to that server or is a job that carries the labels of
its backups and bears the name of none. While nobody else writes, every other object is still there
whenever the pass ends or is cut short, and with the same owners. So if the jobs that seem to be
those of former backups belong to the server, so does all that is deleted, and all that belongs to
others or to nobody is still there. -/
theorem deletions_owned (settings : Settings) (ns name : String) :
    (∀ (others : Cluster → Cluster → Prop) c t outcome c', (∀ c c', others c c' → Becomes c c') →
      c.Stamped → Run (amid others) (reconcile settings ns name).run c t outcome c' →
      ∀ k (o : Object k) a, .call (.delete k o) a ∈ t → k ∈ Pass.deletedKinds ∧ nsOf o = ns ∧
        ∃ server, Fetches ns name server t ∧
          (o.metadata.isOwnedBy server.metadata.uid = true ∨ Retired server k o)) ∧
    (∀ c t outcome c', c.Stamped → Run flaky (reconcile settings ns name).run c t outcome c' →
      ∀ k ns' place (o : Object k), c.get? k ns' place = some o →
        (∀ server, c.get? .unifiedPushServer ns name = some server →
          o.metadata.isOwnedBy server.metadata.uid = false ∧ ¬Retired server k o) →
        c'.StillHolds k ns' place o) ∧
    (∀ c t outcome c', c.Stamped → c.OwnsRetired ns name →
      Run flaky (reconcile settings ns name).run c t outcome c' →
      (∀ k (o : Object k) a, .call (.delete k o) a ∈ t → k ∈ Pass.deletedKinds ∧ nsOf o = ns ∧
        ∃ server, c.get? .unifiedPushServer ns name = some server ∧
          o.metadata.isOwnedBy server.metadata.uid = true) ∧
      ∀ k ns' place (o : Object k), c.get? k ns' place = some o →
        (∀ server, c.get? .unifiedPushServer ns name = some server →
          o.metadata.isOwnedBy server.metadata.uid = false) → c'.StillHolds k ns' place o) := by
  refine ⟨?_, ?_, ?_⟩
  · intro others c t outcome c' hothers hc hrun k o a hmem
    obtain ⟨x, hsteps, -⟩ := Steps.of_run hrun
    obtain ⟨before, after, next, c₁, c₂, rfl, hbefore, -⟩ := hsteps.of_mem hmem
    obtain ⟨hk, hns, server, hfetches, hbelongs⟩ := belongs_or_retired_of_steps hothers hc hbefore
    exact ⟨hk, hns, server, hfetches.append _, hbelongs⟩
  · intro c t outcome c' hc hrun k ns' place o hget hforeign
    obtain ⟨x, hsteps, -⟩ := Steps.of_run hrun
    exact stillHolds_of_steps hc hsteps hget hforeign
  · intro c t outcome c' hc howns hrun
    obtain ⟨x, hsteps, -⟩ := Steps.of_run hrun
    have hretired {k : Kind} {ns' place : String} {o : Object k} {server : Server}
        (hserver : c.get? .unifiedPushServer ns name = some server)
        (hget : c.get? k ns' place = some o) (hret : Retired server k o) :
        o.metadata.isOwnedBy server.metadata.uid = true := by
      cases k with
      | cronJob =>
        obtain ⟨rfl, -⟩ := hc.keyed _ _ _ o hget
        obtain ⟨rfl, -⟩ := hc.keyed _ _ _ server hserver
        have hns := nsOf_of_eq_some hret.1
        exact howns server hserver place o (hns ▸ hget) hret
      | _ => exact hret.elim
    constructor
    · intro k o a hmem
      obtain ⟨before, after, next, c₁, c₂, rfl, hbefore, -⟩ := hsteps.of_mem hmem
      obtain ⟨hk, server, hfetches, hdeletable⟩ :=
        deletable_of_steps (stays_of_flaky hc hbefore) hbefore
      have hserver := get?_of_fetches hfetches hbefore
      have hamid := hbefore.mono (amid_of_flaky fun c => Becomes.refl)
      obtain ⟨-, hns, server', hfetches', hbelongs⟩ :=
        belongs_or_retired_of_steps (fun _ _ h => h) hc hamid
      obtain rfl := hfetches.unique hfetches'
      refine ⟨hk, hns, server, hserver, hbelongs.elim id ?_⟩
      exact hretired hserver (stood_of_deletable hc hserver hbefore hk hdeletable)
    · intro k ns' place o hget hforeign
      refine stillHolds_of_steps hc hsteps hget fun server hserver => ?_
      have hunowned := hforeign server hserver
      refine ⟨hunowned, fun hret => ?_⟩
      rw [hretired hserver hget hret] at hunowned
      cases hunowned

/-! ## Jobs of nobody -/

/-- A job that carries the labels of the backups of "a" but is none of them. -/
def retiredJob (owners : Option (List OwnerReference)) : CronJob where
  metadata := {
    name := some "a-weekly"
    ns := some "push"
    labels := some (labels (sampleServer "a") backup)
    ownerReferences := owners }
  spec := none
  status := none

/-- The cluster of two new servers with that job. -/
def retiredCluster (owners : Option (List OwnerReference)) : Cluster :=
  (sampleCluster.store "push" "a-weekly" (retiredJob owners)).2

theorem stamped_retiredCluster (owners : Option (List OwnerReference)) :
    (retiredCluster owners).Stamped := stamped_sampleCluster.store (retiredJob owners)

/-- The reference to the server "a". -/
def ownerOfA : OwnerReference where
  apiVersion := Kind.unifiedPushServer.apiVersion
  kind := Kind.unifiedPushServer.name
  name := "a"
  uid := "uid-a"
  controller := some true

theorem ownsRetired_retiredCluster : (retiredCluster (some [ownerOfA])).OwnsRetired "push" "a" := by
  intro server hserver place job hjob _
  obtain rfl := Option.some.inj (get?_sampleCluster.symm.trans hserver)
  unfold retiredCluster at hjob
  rw [get?_store] at hjob
  split at hjob
  · obtain rfl := Option.some.inj hjob
    rfl
  · cases hjob

/-- A pass over "a" in which nothing is refused. -/
theorem run_tried_reliable {action : Action}
    (h : (tried (fun _ => false) c).1.toOption = some action) :
    Run reliable (reconcile {} "push" "a").run c (trial (fun _ => false) c) (some (.ok action))
      (tried (fun _ => false) c).2 :=
  run_tried (fun _ _ => rfl) h

/-- Whether a job was deleted. -/
def Entry.deletesJob : Entry → Bool
  | .call (.delete .cronJob _) (.ok _) => true
  | _ => false

theorem exists_delete_of_any (h : t.any Entry.deletesJob = true) :
    ∃ job : CronJob, .call (.delete .cronJob job) (.ok ()) ∈ t := by
  obtain ⟨e, he, hdeletes⟩ := List.any_eq_true.1 h
  unfold Entry.deletesJob at hdeletes
  split at hdeletes
  · next job _ => exact ⟨job, he⟩
  · cases hdeletes

/-- A job of the server is deleted. The account that backups run as is nobody's, and is still there
after that. -/
theorem deletions_owned_retiredCluster : ∃ (t : Trace) (c' : Cluster) (job : CronJob),
    Run flaky (reconcile {} "push" "a").run (retiredCluster (some [ownerOfA])) t
      (some (.ok (.requeue 30))) c' ∧
    .call (.delete .cronJob job) (.ok ()) ∈ t ∧
    job.metadata.isOwnedBy (some "uid-a") = true ∧
    ∃ account, (retiredCluster (some [ownerOfA])).get? .serviceAccount "push" Backup.account =
      some account ∧ c'.StillHolds .serviceAccount "push" Backup.account account := by
  obtain ⟨-, -, howned⟩ := deletions_owned {} "push" "a"
  have hended : (tried (fun _ => false) (retiredCluster (some [ownerOfA]))).1.toOption =
      some (.requeue 30) := by
    decide +kernel
  have hrun := (run_tried_reliable hended).mono flaky_of_reliable
  obtain ⟨job, hjob⟩ : ∃ job : CronJob, .call (.delete .cronJob job) (.ok ()) ∈
      trial (fun _ => false) (retiredCluster (some [ownerOfA])) :=
    exists_delete_of_any (by decide +kernel)
  obtain ⟨hdeleted, hstill⟩ := howned _ _ _ _ (stamped_retiredCluster _)
    ownsRetired_retiredCluster hrun
  obtain ⟨-, -, server, hserver, hbelongs⟩ := hdeleted _ job _ hjob
  obtain rfl := Option.some.inj (get?_sampleCluster.symm.trans hserver)
  exact ⟨_, _, job, hrun, hjob, hbelongs, _, rfl, hstill _ _ _ _ rfl fun _ _ => rfl⟩

/-- A job that belongs to nobody is deleted for its labels. -/
theorem unowned_deleted_retiredCluster : ∃ (t : Trace) (c' : Cluster) (job : CronJob),
    Run reliable (reconcile {} "push" "a").run (retiredCluster none) t
      (some (.ok (.requeue 30))) c' ∧
    (retiredCluster none).get? .cronJob "push" "a-weekly" = some job ∧
    (∀ uid, job.metadata.isOwnedBy uid = false) ∧
    c'.get? .cronJob "push" "a-weekly" = none :=
  ⟨_, _, stamped 4 (retiredJob none), run_tried_reliable (by decide +kernel), rfl, fun _ => rfl,
    by decide +kernel⟩

end PushOperator
