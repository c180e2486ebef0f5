import PushOperator.Proofs.DriftTermination
import PushOperator.Proofs.Pass.Ownership

/-!
# What is created is owned and new

Whatever else goes on in a cluster, a pass creates only what it has just looked for and not found,
in the namespace of its server, and with that server as its one owner. A server without a uid can
own nothing, so nothing is created for it.

When nobody else writes, what was not found is not there, and so the cluster never refuses a child
because there is one already. For backup jobs, which are found by their labels, this takes some
history: all jobs of the namespace carry the labels that the server lists them by (`ListsJobs`), and
this is kept by every step of a pass. The main statement is `creations_owned_and_granted`.
-/

namespace PushOperator

open Child Cluster

variable {σ : Type} {k : Kind} {settings : Settings} {ns name place : String} {server : Server}
  {c c' : Cluster} {t : Trace} {r : Request}

/-! ## One pass -/

/-- All that is created on the way is missing at that point, and belongs to the server that the pass
has fetched. -/
def OwnsCreations (ns name : String) (t : Trace) : Prop :=
  ∀ before k (o : Object k) a after, t = before ++ .call (.create k o) a :: after →
    ∃ server, Fetches ns name server before ∧ OwnedCreation server before o

theorem rightful_of_steps {w : World σ} {s s' : σ}
    {next : Except Error r.Reply → Interaction (Except Error Action)}
    (htells : Tells Server.Stays t)
    (h : Steps w (reconcile settings ns name).run s t (.call r next) s') :
    (t = [] ∧ r = .get .unifiedPushServer ns name) ∨
      ∃ server, Fetches ns name server t ∧ r.Rightful server t :=
  grounds_of_steps (fun _ => owned_run) htells h

theorem ownedCreation_of_steps {w : World σ} {s s' : σ} {o : Object k}
    {next : Except Error (Object k) → Interaction (Except Error Action)}
    (htells : Tells Server.Stays t)
    (h : Steps w (reconcile settings ns name).run s t (.call (.create k o) next) s') :
    ∃ server, Fetches ns name server t ∧ OwnedCreation server t o := by
  rcases rightful_of_steps htells h with ⟨-, heq⟩ | ⟨server, hfetches, howned, -⟩
  · cases heq
  · exact ⟨server, hfetches, howned⟩

theorem ownsCreations_of_steps {w : World σ} {s s' : σ} {x : Interaction (Except Error Action)}
    (htells : Tells Server.Stays t) (h : Steps w (reconcile settings ns name).run s t x s') :
    OwnsCreations ns name t := by
  rintro before k o a after rfl
  obtain ⟨x₁, s₁, x₂, s₂, hbefore, hstep, -⟩ := h.of_append
  cases hstep with
  | call =>
    exact ownedCreation_of_steps (htells.mono (List.subset_append_left before _)) hbefore

/-- For a server without a uid nothing is created. -/
theorem OwnsCreations.not_mem (h : OwnsCreations ns name t) (hfetches : Fetches ns name server t)
    (huid : server.metadata.uid = none) (k : Kind) (o : Object k) (a : Except Error (Object k)) :
    .call (.create k o) a ∉ t := by
  intro hmem
  obtain ⟨before, after, rfl⟩ := List.append_of_mem hmem
  obtain ⟨server', hfetches', howned⟩ := h before k o a after rfl
  obtain rfl := (hfetches'.append _).unique hfetches
  obtain ⟨reference, -, howner, -⟩ := howned.owner
  exact uid_ne_none_of_owner howner huid

/-- The pass over it fails as soon as a child is missing. -/
theorem fails_of_missing {w : World σ} {s s' : σ} {result : Except Error Action}
    (htells : Tells Server.Stays t) (hfetches : Fetches ns name server t)
    (huid : server.metadata.uid = none)
    (h : Run w (reconcile settings ns name).run s t (some result) s')
    (hmisses : ∃ e ∈ t, e.Misses server) :
    result = .ok (.requeue 5) ∧ ∃ e ∈ t, ¬e.IsCalm := by
  obtain ⟨action, rfl, hends⟩ := ends_of_run (fun _ => owned_run) hfetches h
  rcases hends htells with hunmissed | ⟨rfl, hsaid⟩
  · obtain ⟨e, he, hmissed⟩ := hmisses
    exact absurd hmissed (hunmissed huid e he)
  · exact ⟨rfl, hsaid⟩

/-! ## The jobs of a namespace -/

/-- The jobs of a namespace stand under their names, and they carry the labels that a server called
`name` lists its own jobs by. -/
def Cluster.ListsJobs (ns name : String) (c : Cluster) : Prop :=
  ∀ place (job : CronJob), c.get? .cronJob ns place = some job →
    job.metadata.name = some place ∧ ∀ server : Server, server.anyName = name →
      selects (selector server backup) job.metadata.labelsOrEmpty = true

/-- A job of the server is found by every server of that name. -/
theorem selects_of_labelled {job : CronJob} (hcomma : ',' ∉ name.toList)
    (hserver : server.anyName = name) (h : Labelled server .cronJob job) (server' : Server)
    (hserver' : server'.anyName = name) :
    selects (selector server' backup) job.metadata.labelsOrEmpty = true := by
  obtain ⟨backup, -, hlabels⟩ := h
  rw [hlabels, selector_congr (hserver'.trans hserver.symm)]
  exact selects_jobLabels (hserver ▸ hcomma) backup

theorem name_of_labelled {job : CronJob} (h : Labelled server .cronJob job) :
    job.metadata.name = some (nameOf job) := by
  obtain ⟨backup, hname, -⟩ := h
  rw [nameOf, hname]
  rfl

/-- What a pass asks for keeps the jobs in order. -/
theorem Cluster.ListsJobs.answer (hc : c.ListsJobs ns name) (hcomma : ',' ∉ name.toList)
    (hserver : server.anyName = name) (hr : r.Rightful server t) :
    (c.answer r).2.ListsJobs ns name := by
  intro place job hjob
  cases leaves_of_answer hjob with
  | kept hthere => exact hc place job hthere
  | @created new hns hname hfree heq =>
    subst heq hname
    exact ⟨name_of_labelled hr.2, selects_of_labelled hcomma hserver hr.2⟩
  | @updated new stored hns hname hthere heq =>
    subst heq hname
    exact ⟨name_of_labelled hr, selects_of_labelled hcomma hserver hr⟩
  | @restated new stored hthere heq =>
    subst heq
    exact hc place stored hthere

/-! ## A cluster to oneself -/

/-- A server bears a name, and its backups have different names. -/
structure Server.WellNamed (name : String) (server : Server) : Prop where
  name : server.metadata.name = some name
  backups : (server.spec.backups.map (·.name)).Nodup

/-- The server that stands in a place, if there is one, is well named. -/
def Cluster.NamesServer (ns name : String) (c : Cluster) : Prop :=
  ∀ server : Server, c.get? .unifiedPushServer ns name = some server → server.WellNamed name

/-- A cluster in which the jobs of a namespace are in order, and the server is well named. -/
structure Cluster.Tidy (ns name : String) (c : Cluster) : Prop where
  stamped : c.Stamped
  jobs : c.ListsJobs ns name
  server : c.NamesServer ns name

/-- When nobody else writes, the first thing that a pass sees is the server as it is stored. -/
theorem get?_of_fetches {x : Interaction (Except Error Action)}
    (hfetches : Fetches ns name server t)
    (h : Steps flaky (reconcile settings ns name).run c t x c') :
    c.get? .unifiedPushServer ns name = some server := by
  cases hwatched : settings.watches ns with
  | false =>
    rw [run_reconcile_of_unwatched hwatched] at h
    obtain ⟨rfl, -, -⟩ := h.of_done
    cases hfetches
  | true =>
    rw [run_reconcile hwatched] at h
    rcases h.call_cases with ⟨rfl, -, -⟩ | ⟨answer, c₁, t', hanswer, -, rfl⟩
    · cases hfetches
    obtain rfl : answer = .ok (some server) := by
      cases hfetches
      rfl
    exact (answer_get.1 (flaky_ok_iff.1 hanswer)).1.symm

section

variable {x : Interaction (Except Error Action)}

theorem stamped_of_flaky (hc : c.Stamped)
    (h : Steps flaky (reconcile settings ns name).run c t x c') : c'.Stamped :=
  (recent_of_steps (fun _ _ h => h) hc (h.mono (amid_of_flaky fun _ => .refl))).1

theorem stays_of_flaky (hc : c.Stamped)
    (h : Steps flaky (reconcile settings ns name).run c t x c') : Tells Server.Stays t :=
  stays_of_steps (fun _ _ h => h) hc (h.mono (amid_of_flaky fun _ => .refl))

/-- Every step of a pass keeps the jobs in order. -/
theorem Cluster.Tidy.jobs_of_steps (hc : c.Tidy ns name) (hcomma : ',' ∉ name.toList)
    (h : Steps flaky (reconcile settings ns name).run c t x c') : c'.ListsJobs ns name := by
  refine preserved_of_flaky h (fun t₁ r a t₂ next c₁ _ hsteps hjobs => ?_) hc.jobs
  rcases rightful_of_steps (stays_of_flaky hc.stamped hsteps) hsteps with
    ⟨-, rfl⟩ | ⟨server, hfetches, hrightful⟩
  · exact hjobs
  · have hnamed := hc.server server (get?_of_fetches hfetches hsteps)
    exact hjobs.answer hcomma (anyName_of_name hnamed.name) hrightful

theorem Cluster.Tidy.steps (hc : c.Tidy ns name) (hcomma : ',' ∉ name.toList)
    (h : Steps flaky (reconcile settings ns name).run c t x c') : c'.Tidy ns name where
  stamped := stamped_of_flaky hc.stamped h
  jobs := hc.jobs_of_steps hcomma h
  server := by
    refine preserved_of_flaky h (fun t₁ r a t₂ next c₁ _ hsteps hserver live hlive => ?_) hc.server
    have hkept := serversKept_of_answer (stamped_of_flaky hc.stamped hsteps)
      (warranted_of_steps hsteps)
    obtain ⟨before, status, hbefore, hsame⟩ := hkept.exists_get? hlive
    have hname : live.metadata.name = before.metadata.name := congrArg (·.metadata.name) hsame
    have hspec : live.spec = before.spec := congrArg (·.spec) hsame
    obtain ⟨hnamed, hnodup⟩ := hserver before hbefore
    exact ⟨hname.trans hnamed, hspec ▸ hnodup⟩

/-- A place stays free as long as nothing is created there. -/
theorem free_of_steps (hfree : c.get? k ns place = none) (h : Steps flaky x c t x' c')
    (hcreate : ∀ (o : Object k) a, .call (.create k o) a ∈ t → nameOf o ≠ place) :
    c'.get? k ns place = none := by
  refine preserved_of_flaky (P := (·.get? k ns place = none)) h ?_ hfree
  intro t₁ r a t₂ next c₁ heq hsteps hthere
  refine free_of_answer hthere ?_
  rintro o rfl ⟨-, hname⟩
  exact hcreate o a (heq ▸ by simp) hname

end

/-- What is missing is not there. -/
theorem Missing.free (hc : c.Tidy ns name) (hcomma : ',' ∉ name.toList)
    (h : Steps flaky (reconcile settings ns name).run c t x c')
    (hserver : c.get? .unifiedPushServer ns name = some server)
    (hmissing : Missing server ns place t k) : c'.get? k ns place = none := by
  obtain ⟨hname, hnodup⟩ := hc.server server hserver
  cases hmissing with
  | looked heq hsecrets =>
    subst heq
    obtain ⟨x₁, c₁, x₂, c₂, -, hlook, hsince⟩ := h.of_append
    cases hlook with
    | call hanswer =>
      obtain ⟨hfree, rfl⟩ := answer_get.1 (flaky_ok_iff.1 hanswer)
      refine free_of_steps hfree.symm hsince fun o a hmem => ?_
      exact (hsecrets _ hmem).elim
  | @listed before since existing heq hunlisted hnew =>
    subst heq
    obtain ⟨x₁, c₁, x₂, c₂, hbefore, hlist, hsince⟩ := h.of_append
    cases hlist with
    | call hanswer =>
      obtain ⟨hexisting, rfl⟩ := answer_list.1 (flaky_ok_iff.1 hanswer)
      refine free_of_steps ?_ hsince (hnew hnodup)
      -- A job in that place would have been listed, as all jobs carry the labels.
      rw [Option.eq_none_iff_forall_ne_some]
      intro job hjob
      obtain ⟨hjobName, hselects⟩ := hc.jobs_of_steps hcomma hbefore place job hjob
      refine hunlisted job ?_ (anyName_of_name hjobName)
      rw [hexisting, List.mem_filter]
      exact ⟨mem_values_objects.2 ⟨place, hjob⟩, hselects server (anyName_of_name hname)⟩

/-- So when a pass asks the cluster to create a child, it does. -/
theorem Cluster.Tidy.grants (hc : c.Tidy ns name) (hcomma : ',' ∉ name.toList) {o : Object k}
    {next : Except Error (Object k) → Interaction (Except Error Action)}
    (h : Steps flaky (reconcile settings ns name).run c t (.call (.create k o) next) c') :
    ∃ created, (c'.answer (.create k o)).1 = .ok created := by
  obtain ⟨server, hfetches, howned⟩ := ownedCreation_of_steps (stays_of_flaky hc.stamped h) h
  have hserver := get?_of_fetches hfetches h
  obtain ⟨ns', place, hns, hplaced, hmissing⟩ := howned.place
  -- The server stands in its own namespace, so this is where the child belongs.
  obtain rfl : ns' = ns :=
    (nsOf_of_eq_some hns).symm.trans (hc.stamped.keyed _ _ _ server hserver).1
  have hfree := hmissing.free hc hcomma h hserver
  rw [← hplaced.nsOf, ← hplaced.nameOf] at hfree
  exact ⟨_, congrArg Prod.fst (answer_create.2 ⟨hfree, rfl, rfl⟩)⟩

/-! ## Runs of passes -/

/-- What becomes of a cluster when passes are run over one server, with any settings, to their end
or not, and any calls fail. Between passes the server may get another spec, in which no two backups
have the same name. Nobody else writes. -/
inductive Cluster.SoleHistory (ns name : String) (c : Cluster) : Cluster → Prop
  | refl : SoleHistory ns name c c
  | edit {c' : Cluster} {server : Server} {spec : ServerSpec} {generation : Option Int64} :
    SoleHistory ns name c c' → c'.get? .unifiedPushServer ns name = some server →
    (spec.backups.map (·.name)).Nodup →
    SoleHistory ns name c
      (c'.store ns name { server with spec, metadata := { server.metadata with generation } }).2
  | pass {c' c'' : Cluster} {settings : Settings} {t : Trace} {o : Option (Except Error Action)} :
    SoleHistory ns name c c' → Run flaky (reconcile settings ns name).run c' t o c'' →
    SoleHistory ns name c c''

/-- Another spec without backups of one name is all right. -/
theorem Cluster.Tidy.edit (hc : c.Tidy ns name)
    (hserver : c.get? .unifiedPushServer ns name = some server) {spec : ServerSpec}
    (hnodup : (spec.backups.map (·.name)).Nodup) (generation : Option Int64) :
    (c.store ns name
      { server with spec, metadata := { server.metadata with generation } }).2.Tidy ns name where
  stamped := by
    obtain ⟨rfl, rfl⟩ := hc.stamped.keyed _ _ _ server hserver
    exact hc.stamped.store { server with spec, metadata := { server.metadata with generation } }
  jobs := by
    intro place job hjob
    rw [get?_of_shelf (shelf_store_of_ne c ns name _ (by decide))] at hjob
    exact hc.jobs place job hjob
  server := by
    intro edited hedited
    rw [get?_store_self] at hedited
    obtain rfl := Option.some.inj hedited
    exact ⟨(hc.server server hserver).1, hnodup⟩

theorem Cluster.SoleHistory.tidy (h : c.SoleHistory ns name c') (hcomma : ',' ∉ name.toList)
    (hc : c.Tidy ns name) : c'.Tidy ns name := by
  induction h with
  | refl => exact hc
  | edit _ hserver hnodup ih => exact ih.edit hserver hnodup _
  | pass _ hrun ih =>
    obtain ⟨x, hsteps, -⟩ := Steps.of_run hrun
    exact ih.steps hcomma hsteps

/-- Where there are no jobs, they are in order. -/
theorem Cluster.listsJobs_of_none (h : ∀ place, c.get? .cronJob ns place = none) :
    c.ListsJobs ns name := by
  intro place job hjob
  rw [h place] at hjob
  cases hjob

/-- Whatever others write, a pass creates a child only after it has looked for it in that place and
not found it, and the server that it has fetched is the one owner. When that server has no uid, it
creates nothing, and it fails once a child is missing. When nobody but passes over one server writes
the cluster, and there were no jobs in the beginning, every creation that a pass asks for is
granted. -/
theorem creations_owned_and_granted (settings : Settings) (ns name : String) :
    (∀ (others : Cluster → Cluster → Prop) c t outcome c', (∀ c c', others c c' → Becomes c c') →
      c.Stamped → Run (amid others) (reconcile settings ns name).run c t outcome c' →
      OwnsCreations ns name t) ∧
    (∀ (σ : Type) (w : World σ) s t outcome s' (server : Server),
      Run w (reconcile settings ns name).run s t outcome s' → Tells Server.Stays t →
      Fetches ns name server t → server.metadata.uid = none →
      (∀ k (o : Object k) a, .call (.create k o) a ∉ t) ∧
        ∀ result, outcome = some result → (∃ e ∈ t, e.Misses server) →
          result = .ok (.requeue 5) ∧ ∃ e ∈ t, ¬e.IsCalm) ∧
    (∀ (c c₁ c₂ : Cluster) t k (o : Object k) next, c.Stamped →
      (∀ place, c.get? .cronJob ns place = none) →
      c.NamesServer ns name → ',' ∉ name.toList → c.SoleHistory ns name c₁ →
      Steps flaky (reconcile settings ns name).run c₁ t (.call (.create k o) next) c₂ →
      ∃ created, (c₂.answer (.create k o)).1 = .ok created) := by
  refine ⟨?_, ?_, ?_⟩
  · intro others c t outcome c' hothers hc hrun
    obtain ⟨x, hsteps, -⟩ := Steps.of_run hrun
    exact ownsCreations_of_steps (stays_of_steps hothers hc hsteps) hsteps
  · intro σ w s t outcome s' server hrun htells hfetches huid
    obtain ⟨x, hsteps, -⟩ := Steps.of_run hrun
    refine ⟨(ownsCreations_of_steps htells hsteps).not_mem hfetches huid, ?_⟩
    rintro result rfl hmisses
    exact fails_of_missing htells hfetches huid hrun hmisses
  · intro c c₁ c₂ t k o next hc hjobs hserver hcomma hhistory hsteps
    have hbegin : c.Tidy ns name := ⟨hc, listsJobs_of_none hjobs, hserver⟩
    exact (hhistory.tidy hcomma hbegin).grants hcomma hsteps

/-! ## Passes to try -/

/-- What is seen of a pass over the server "a" in which some requests are refused. -/
def trial (refuses : Request → Bool) (c : Cluster) : Trace :=
  (reconcile {} "push" "a").run.trace (drawing refuses "secret") c

/-- What comes of it. -/
def tried (refuses : Request → Bool) (c : Cluster) : Except Error Action × Cluster :=
  (reconcile {} "push" "a").run.run (drawing refuses "secret") c

theorem run_tried {w : World Cluster} {refuses : Request → Bool} {action : Action}
    (hw : ∀ r c, w r c (if refuses r then (.error .unreachable, c) else c.answer r).1
      (if refuses r then (.error .unreachable, c) else c.answer r).2)
    (h : (tried refuses c).1.toOption = some action) :
    Run w (reconcile {} "push" "a").run c (trial refuses c) (some (.ok action))
      (tried refuses c).2 := by
  have hrun := run_drawing hw "secret" (reconcile {} "push" "a").run c
  have hresult := Rehearsal.eq_ok_of_toOption h
  unfold tried at hresult ⊢
  rwa [hresult] at hrun

/-- Whether an object of a kind was to be created. -/
def Entry.creates (k : Kind) : Entry → Bool
  | .call (.create k' _) _ => k' = k
  | _ => false

/-- Whether a claim was looked up in vain. -/
def Entry.lacksClaim : Entry → Bool
  | .call (.get .persistentVolumeClaim _ _) (.ok none) => true
  | _ => false

theorem exists_create_of_any (h : t.any (Entry.creates k) = true) :
    ∃ (o : Object k) (a : _), .call (.create k o) a ∈ t := by
  obtain ⟨e, he, hcreates⟩ := List.any_eq_true.1 h
  unfold Entry.creates at hcreates
  split at hcreates
  · next k' o a =>
    obtain rfl := of_decide_eq_true hcreates
    exact ⟨o, a, he⟩
  · cases hcreates

theorem misses_of_lacksClaim (h : t.any Entry.lacksClaim = true) : ∃ e ∈ t, e.Misses server := by
  obtain ⟨e, he, hlacks⟩ := List.any_eq_true.1 h
  refine ⟨e, he, ?_⟩
  unfold Entry.lacksClaim at hlacks
  split at hlacks
  · exact fun h => nomatch h.1
  · cases hlacks

/-- No deployment can be created. -/
def Request.createsDeployment : Request → Bool
  | .create .deployment _ => true
  | _ => false

/-- The jobs cannot be listed. -/
def Request.listsJobs : Request → Bool
  | .list .cronJob _ _ => true
  | _ => false

/-- The cluster after a first pass that could not create deployments. -/
def startedCluster : Cluster :=
  ((reconcile {} "push" "a").run.run (drawing Request.createsDeployment "secret") sampleCluster).2

/-- The spec with a second backup. -/
def extendedSpec : ServerSpec :=
  { (sampleServer "a").spec with backups := (sampleServer "a").spec.backups ++
    [{ name := "a-weekly", schedule := "@weekly", backendSecretName := "bucket" }] }

/-- The server that stands there. -/
def startedServer : Server :=
  (startedCluster.get? .unifiedPushServer "push" "a").getD (sampleServer "a")

theorem get?_startedCluster :
    startedCluster.get? .unifiedPushServer "push" "a" = some startedServer := by
  have hsome : (startedCluster.get? .unifiedPushServer "push" "a").isSome = true := by
    decide +kernel
  obtain ⟨server, hserver⟩ := Option.isSome_iff_exists.1 hsome
  rw [startedServer, hserver]
  rfl

/-- The same cluster when the server has got that spec. -/
def extendedCluster : Cluster :=
  (startedCluster.store "push" "a" { startedServer with
    spec := extendedSpec
    metadata := { startedServer.metadata with generation := some 2 } }).2

theorem soleHistory_extendedCluster : sampleCluster.SoleHistory "push" "a" extendedCluster := by
  have hstarted : sampleCluster.SoleHistory "push" "a" startedCluster :=
    .pass .refl (run_drawing (flaky_drawing _) "secret" (reconcile {} "push" "a").run sampleCluster)
  exact hstarted.edit get?_startedCluster (by decide)

/-- A server without a uid, which is not new. -/
def orphanServer : Server where
  metadata := { name := some "a", ns := some "push" }
  spec := {}
  status := some { phase := .reconciling }

/-- A cluster that holds nothing else. -/
def orphanCluster : Cluster := Cluster.empty.put "push" "a" orphanServer

/-- No status can be written. -/
def Request.updatesStatus : Request → Bool
  | .updateStatus .. => true
  | _ => false

/-- A first pass creates the secret of the database. A server without a uid gets nothing. When a
pass has failed half-way and one more backup is asked for, the next one is granted its jobs. -/
theorem creations_owned_and_granted_sampleCluster :
    (∃ (before : Trace) (o : Secret) (a : _) (after : Trace),
      trial (fun _ => false) sampleCluster = before ++ .call (.create .secret o) a :: after ∧
      ∃ server, Fetches "push" "a" server before ∧ OwnedCreation server before o) ∧
    ((∀ k (o : Object k) a, .call (.create k o) a ∉
        trial Request.updatesStatus orphanCluster) ∧
      ∃ e ∈ trial Request.updatesStatus orphanCluster, ¬e.IsCalm) ∧
    ∃ (t : Trace) (o : CronJob) (next : _) (c : Cluster) (created : CronJob),
      sampleCluster.SoleHistory "push" "a" extendedCluster ∧
      Steps flaky (reconcile {} "push" "a").run extendedCluster t (.call (.create .cronJob o) next)
        c ∧
      (c.answer (.create .cronJob o)).1 = .ok created := by
  obtain ⟨howned, horphan, hgranted⟩ := creations_owned_and_granted {} "push" "a"
  refine ⟨?_, ?_, ?_⟩
  · have hrun := run_drawing (flaky_drawing fun _ => false) "secret" (reconcile {} "push" "a").run
      sampleCluster
    obtain ⟨o, a, hmem⟩ : ∃ (o : Secret) (a : _), .call (.create .secret o) a ∈
        trial (fun _ => false) sampleCluster :=
      exists_create_of_any (by decide +kernel)
    obtain ⟨before, after, heq⟩ := List.append_of_mem hmem
    exact ⟨before, o, a, after, heq, howned Becomes _ _ _ _ (fun _ _ h => h) stamped_sampleCluster
      (hrun.mono (amid_of_flaky fun _ => .refl)) before _ o a after heq⟩
  · -- In a world that refuses to write a status no answer shows another server.
    have hrun := run_drawing (w := fun r c a c' =>
        a = (if r.updatesStatus then (.error .unreachable, c) else c.answer r).1 ∧
        c' = (if r.updatesStatus then (.error .unreachable, c) else c.answer r).2)
      (fun _ _ => ⟨rfl, rfl⟩) "secret" (reconcile {} "push" "a").run orphanCluster
    have htells : Tells Server.Stays (trial Request.updatesStatus orphanCluster) := by
      intro o updated hmem
      obtain ⟨x, hsteps, -⟩ := Steps.of_run hrun
      obtain ⟨before, after, next, c₁, c₂, -, -, hanswer, -⟩ := hsteps.of_mem hmem
      cases hanswer
    obtain ⟨hnone, hfails⟩ := horphan _ _ _ _ _ _ orphanServer hrun htells rfl rfl
    exact ⟨hnone, (hfails _ rfl (misses_of_lacksClaim (by decide +kernel))).2⟩
  · have hrun := run_drawing (flaky_drawing fun _ => false) "secret" (reconcile {} "push" "a").run
      extendedCluster
    obtain ⟨o, a, hmem⟩ : ∃ (o : CronJob) (a : _), .call (.create .cronJob o) a ∈
        trial (fun _ => false) extendedCluster :=
      exists_create_of_any (by decide +kernel)
    obtain ⟨x, hsteps, -⟩ := Steps.of_run hrun
    obtain ⟨before, after, next, c₁, c₂, -, hbefore, -⟩ := hsteps.of_mem hmem
    have hserver : sampleCluster.NamesServer "push" "a" := by
      intro server hserver
      obtain rfl := Option.some.inj (get?_sampleCluster.symm.trans hserver)
      exact ⟨rfl, by decide⟩
    obtain ⟨created, hcreated⟩ := hgranted _ _ _ _ _ _ _ stamped_sampleCluster
      (fun _ => rfl) hserver (by decide) soleHistory_extendedCluster hbefore
    exact ⟨before, o, next, c₁, created, soleHistory_extendedCluster, hbefore, hcreated⟩

end PushOperator
