import Mathlib.Data.List.Forall2
import Mathlib.Data.List.Nodup
import PushOperator.Pass.Backups
import PushOperator.Proofs.Child.Selector
import PushOperator.Proofs.Child.Wanted
import PushOperator.Proofs.Pass.Ensure

/-!
# The backup step completes

The step is two loops, one over the wanted jobs, which provides them (`Provides`), and one over the
live jobs, which deletes the others. A backup step that completes has left exactly one job for each
backup among the jobs that carry the labels of the server's backups, each with the wanted spec and
labels. Backups have to have distinct names for that, as a name is all that tells their jobs apart.
On what it leaves behind the step is quiet.
-/

namespace PushOperator

/-! ## The wanted jobs -/

/-- All elements of a list are built when the whole list is. -/
theorem forall₂_of_mapM {α β : Type} {f : α → Except Error β} {l : List α} {l' : List β}
    (h : l.mapM f = .ok l') : List.Forall₂ (fun a b => f a = .ok b) l l' := by
  induction l generalizing l' with
  | nil =>
    rw [List.mapM_nil] at h
    obtain rfl := pure_eq_ok.1 h
    exact .nil
  | cons a l ih =>
    rw [List.mapM_cons] at h
    obtain ⟨b, hb, hrest⟩ := bind_eq_ok.1 h
    obtain ⟨bs, hbs, hend⟩ := bind_eq_ok.1 hrest
    obtain rfl := pure_eq_ok.1 hend
    exact .cons hb (ih hbs)

namespace Child

variable {server : Server} {settings : Settings} {desired : List CronJob}

theorem labels_cronJob {backup : Backup} {job : CronJob}
    (h : Backup.cronJob server settings backup = .ok job) :
    job.metadata.labelsOrEmpty = Backup.jobLabels server backup := by
  obtain ⟨ns, -, hrest⟩ := bind_eq_ok.1 h
  obtain ⟨m, hm, hend⟩ := bind_eq_ok.1 hrest
  obtain rfl := pure_eq_ok.1 hend
  obtain ⟨ns', -, rfl⟩ := namedMeta_eq_ok.1 hm
  rfl

/-- The wanted jobs bear the names of the backups, in the same order. -/
theorem names_cronJobs (h : Backup.cronJobs server settings = .ok desired) :
    desired.map (·.metadata.name) = server.spec.backups.map (some ·.name) := by
  have hjobs := forall₂_of_mapM h
  clear h
  generalize server.spec.backups = backups at hjobs ⊢
  induction hjobs with
  | nil => rfl
  | cons hjob _ ih =>
    rw [List.map_cons, List.map_cons, ih, (places_cronJob settings _ server _ hjob).2]

theorem map_nameOf_cronJobs (h : Backup.cronJobs server settings = .ok desired) :
    desired.map Cluster.nameOf = server.spec.backups.map (·.name) := by
  have hnames := congrArg (List.map fun name : Option String => name.getD "") (names_cronJobs h)
  rw [List.map_map, List.map_map] at hnames
  exact hnames

/-- The names of the wanted jobs are those that the spec calls for. -/
theorem wanted_cronJobs (h : Backup.cronJobs server settings = .ok desired) :
    Backup.wanted server = (desired.map Cluster.nameOf).map fun name => (.cronJob, name) := by
  rw [map_nameOf_cronJobs h, List.map_map]
  rfl

/-- The wanted jobs are those that are built from the backups. -/
theorem mem_cronJobs_iff (h : Backup.cronJobs server settings = .ok desired) {job : CronJob} :
    job ∈ desired ↔
      ∃ backup ∈ server.spec.backups, Backup.cronJob server settings backup = .ok job := by
  have hjobs := forall₂_of_mapM h
  clear h
  generalize server.spec.backups = backups at hjobs ⊢
  induction hjobs with
  | nil => simp
  | @cons backup first _ _ hhead _ ih =>
    have hfirst : job = first ↔ Backup.cronJob server settings backup = .ok job := by
      rw [hhead, Except.ok.injEq, eq_comm]
    rw [List.mem_cons, List.exists_mem_cons_iff]
    exact or_congr hfirst ih

theorem mem_cronJobs (h : Backup.cronJobs server settings = .ok desired) {job : CronJob}
    (hjob : job ∈ desired) : ∃ backup, Backup.cronJob server settings backup = .ok job := by
  obtain ⟨backup, -, hbuild⟩ := (mem_cronJobs_iff h).1 hjob
  exact ⟨backup, hbuild⟩

end Child

namespace Pass

open Child Cluster

variable {P : Entry → Prop} {c c' c'' : Cluster} {ns name : String} {server : Server}
  {st st' st'' : PassState} {settings : Settings} {existing desired : List CronJob} {job : CronJob}
  {names names' : List String} {u : Unit}

/-- The kinds that the backup step writes. -/
def backupKinds : List Kind := [.cronJob]

theorem kind_of_backup {child : Kind × String} (h : child ∈ Backup.wanted server) :
    child.1 ∈ backupKinds := by
  obtain ⟨backup, -, rfl⟩ := List.mem_map.1 h
  exact List.mem_singleton_self _

/-- The jobs that carry the labels of the server's backups. -/
def backupJobs (c : Cluster) (ns : String) (server : Server) : List CronJob :=
  (c.objects .cronJob ns).values.filter fun job =>
    selects (selector server backup) job.metadata.labelsOrEmpty

/-- What is compared of a job: its name, spec and labels. -/
def jobContent (job : CronJob) : Option String × Option CronJobSpec × Dict String :=
  (job.metadata.name, job.spec, job.metadata.labelsOrEmpty)

/-- What the backup step leaves behind. -/
def BackupsSettled (settings : Settings) (c : Cluster) (ns : String) (server : Server) : Prop :=
  ∃ desired, Backup.cronJobs server settings = .ok desired ∧
    (desired ≠ [] → ∃ account, c.get? .serviceAccount ns Backup.account = some account) ∧
    ((backupJobs c ns server).map jobContent).Perm (desired.map jobContent)

theorem BackupsSettled.mono (h : BackupsSettled settings c ns server)
    (hshelf : c'.shelf .cronJob = c.shelf .cronJob) (hkeeps : Keeps .serviceAccount c c') :
    BackupsSettled settings c' ns server := by
  obtain ⟨desired, hdesired, haccount, hperm⟩ := h
  refine ⟨desired, hdesired, fun hne => ?_, ?_⟩
  · obtain ⟨account, hget⟩ := haccount hne
    exact ⟨account, hkeeps _ _ _ hget⟩
  · unfold backupJobs
    rw [objects_of_shelf hshelf]
    exact hperm

theorem agrees_iff {found desired : CronJob} : agrees found desired = true ↔
    found.spec = desired.spec ∧
      found.metadata.labelsOrEmpty = desired.metadata.labelsOrEmpty := by
  simp [agrees]

theorem agrees_symm {other : CronJob} (h : agrees job other = true) : agrees other job = true := by
  obtain ⟨hspec, hlabels⟩ := agrees_iff.1 h
  exact agrees_iff.2 ⟨hspec.symm, hlabels.symm⟩

theorem agrees_trans {found other : CronJob} (h : agrees found job = true)
    (h' : agrees job other = true) : agrees found other = true := by
  obtain ⟨hspec, hlabels⟩ := agrees_iff.1 h
  obtain ⟨hspec', hlabels'⟩ := agrees_iff.1 h'
  exact agrees_iff.2 ⟨hspec.trans hspec', hlabels.trans hlabels'⟩

/-! ## What is written -/

theorem writesOnly_reconcileBackup {existing : List CronJob} {desired : CronJob} :
    WritesOnly backupKinds (reconcileBackup existing desired) := by
  refine writesOnly_build.bind fun name => ?_
  split
  · split
    · refine (writesOnly_liftM ((Task.obeys_call ?_).weaken fun _ _ => trivial)).bind fun _ => ?_
      · rintro k rfl
        decide
      · exact writesOnly_record
    · exact writesOnly_record
  · refine writesOnly_server.bind fun server => ?_
    refine (writesOnly_liftM (Task.obeys_createOwned (by decide) _ _)).bind fun _ => ?_
    exact writesOnly_report.bind fun _ => writesOnly_record

theorem writesOnly_removeBackup {found : CronJob} :
    WritesOnly backupKinds (removeBackup desired found) := by
  unfold removeBackup
  split
  · exact writesOnly_pure
  · refine (writesOnly_liftM ((Task.obeys_call ?_).weaken fun _ _ => trivial)).bind fun _ => ?_
    · rintro k rfl
      decide
    · exact writesOnly_forget.bind fun _ => writesOnly_report

theorem writesOnly_reconcileBackups : WritesOnly backupKinds (reconcileBackups settings) := by
  refine writesOnly_server.bind fun server => writesOnly_build.bind fun ns => ?_
  refine writesOnly_build.bind fun desired => ?_
  have hjobs : WritesOnly backupKinds (do
      let existing ← Task.call (.list .cronJob ns (selector server backup))
      desired.forM (reconcileBackup existing)
      existing.forM (removeBackup desired)) := by
    refine (writesOnly_read rfl).bind fun existing => ?_
    refine (writesOnly_forM fun _ _ => writesOnly_reconcileBackup).bind fun _ => ?_
    exact writesOnly_forM fun _ _ => writesOnly_removeBackup
  split
  · refine (writesOnly_read rfl).bind fun account => ?_
    split
    · exact hjobs
    · exact (writesOnly_stop (by decide)).bind fun _ => hjobs
  · exact hjobs

/-! ## The rounds of the wanted jobs -/

/-- Some jobs have been recorded, all of which are there now, and no other job has changed. -/
structure Provides (ns : String) (names : List String) (st : PassState) (c : Cluster)
    (st' : PassState) (c' : Cluster) : Prop where
  state : st' = st.saw (names.map fun name => (.cronJob, name)) true
  filed : c'.Filed
  present : ∀ name ∈ names, ∃ o, c'.get? .cronJob ns name = some o
  others : ∀ ns' name, ¬(ns' = ns ∧ name ∈ names) →
    c'.get? .cronJob ns' name = c.get? .cronJob ns' name

theorem Provides.refl (st : PassState) (hc : c.Filed) : Provides ns [] st c st c where
  state := (PassState.saw_nil st).symm
  filed := hc
  present := by simp
  others _ _ _ := rfl

theorem Provides.exists_get? (h : Provides ns names st c st' c')
    (hthere : ∃ o, c.get? .cronJob ns name = some o) : ∃ o, c'.get? .cronJob ns name = some o := by
  by_cases hmem : name ∈ names
  · exact h.present name hmem
  · rwa [h.others ns name fun hplace => hmem hplace.2]

theorem Provides.trans (h : Provides ns names st c st' c')
    (h' : Provides ns names' st' c' st'' c'') : Provides ns (names ++ names') st c st'' c'' where
  state := by
    rw [h'.state, h.state, PassState.saw_saw, List.map_append, Bool.and_true]
  filed := h'.filed
  present := List.forall_mem_append.2
    ⟨fun name hname => h'.exists_get? (h.present name hname), h'.present⟩
  others ns' name hnot := by
    rw [List.mem_append, and_or_left, not_or] at hnot
    rw [h'.others ns' name hnot.2, h.others ns' name hnot.1]

/-- Recording a job that is there. -/
theorem provides_record (hc : c.Filed) (hthere : ∃ o, c.get? .cronJob ns name = some o) :
    Provides ns [name] st c (st.saw [(.cronJob, name)] true) c where
  state := rfl
  filed := hc
  present := by simpa using hthere
  others _ _ _ := rfl

/-- Storing a job and recording it. -/
theorem provides_store (hc : c.Filed) (hjob : Placed ns name job) :
    Provides ns [name] st c (st.saw [(.cronJob, name)] true) (c.store ns name job).2 where
  state := rfl
  filed := hc.store hjob.nsOf hjob.2
  present := by
    simpa using ⟨_, get?_store_self c ns name job⟩
  others ns' name' hnot := by
    rw [get?_store, if_neg (by simpa using hnot)]

/-- A job stands as wanted. If one was found at the beginning, it is that one or has taken over its
owners and its uid. -/
structure Stands (found? : Option CronJob) (job live : CronJob) : Prop where
  agrees : agrees live job = true
  same : ∀ found, found? = some found → Pass.agrees found job = true → live = found
  owners : ∀ found, found? = some found →
    live.metadata.ownerReferences = found.metadata.ownerReferences
  uid : ∀ found, found? = some found → ∀ uid, found.metadata.uid = some uid →
    live.metadata.uid = some uid

/-- What was found already stands as wanted if it agrees. -/
theorem Stands.of_agrees {found : CronJob} (h : Pass.agrees found job = true) :
    Stands (some found) job found where
  agrees := h
  same _ heq _ := Option.some.inj heq
  owners _ heq := by rw [Option.some.inj heq]
  uid _ heq _ huid := by rwa [Option.some.inj heq]

/-- The replacement of what was found stands as wanted. -/
theorem Stands.of_replacement {found : CronJob} (h : Pass.agrees found job ≠ true) (n : Nat) :
    Stands (some found) job (stamped n ((replacement found job).merged found)) where
  agrees := agrees_iff.2 ⟨rfl, rfl⟩
  same _ heq hagrees := absurd (Option.some.inj heq ▸ hagrees) h
  owners _ heq := by rw [← Option.some.inj heq]; rfl
  uid found' heq uid huid := by
    obtain rfl := Option.some.inj heq
    show some (found.metadata.uid.getD _) = some uid
    rw [huid, Option.getD_some]

/-- A job that was not found stands as wanted once it is created. -/
theorem Stands.of_created (reference : OwnerReference) (n : Nat) :
    Stands none job (stamped n (job.withOwner reference)) where
  agrees := agrees_iff.2 ⟨rfl, rfl⟩
  same _ heq := nomatch heq
  owners _ heq := nomatch heq
  uid _ heq := nomatch heq

/-- What a round that completes has done: nothing when the job that was found agrees, and else it
has put the wanted job over the one that is there, or into its free place. -/
inductive Round (existing : List CronJob) (ns name : String) (job : CronJob) (c : Cluster) :
    Cluster → Prop
  | agreed {found : CronJob} : existing.find? (·.anyName == name) = some found →
    agrees found job = true → Round existing ns name job c c
  | replaced {found stored : CronJob} : existing.find? (·.anyName == name) = some found →
    agrees found job = false → c.get? .cronJob ns name = some stored →
    isStale found stored = false →
    Round existing ns name job c (c.store ns name ((replacement found job).merged stored)).2
  | created (reference : OwnerReference) : existing.find? (·.anyName == name) = none →
    c.get? .cronJob ns name = none →
    Round existing ns name job c (c.store ns name (job.withOwner reference)).2

/-- A round leaves the other jobs alone. -/
theorem Round.others (h : Round existing ns name job c c') {ns' name' : String}
    (hplace : ¬(ns' = ns ∧ name' = name)) :
    c'.get? .cronJob ns' name' = c.get? .cronJob ns' name' := by
  cases h with
  | agreed => rfl
  | replaced | created => rw [get?_store, if_neg hplace]

theorem round_of_completes
    (h : Completes flaky P (reconcileBackup existing job) st c u st' c')
    (hjob : Placed ns name job) :
    st' = st.saw [(.cronJob, name)] true ∧ Round existing ns name job c c' := by
  obtain ⟨name', hname', hrest⟩ := completes_build_bind.1 h
  obtain rfl : name = name' :=
    Option.some.inj (hjob.2.symm.trans (ObjectMeta.requireName_eq_ok.1 hname'))
  split at hrest
  · next found hfound =>
    split at hrest
    · next hdiffers =>
      obtain ⟨_, c₁, hupdate, hrecord⟩ := completes_liftM_bind.1 hrest
      obtain ⟨-, stored, hstored, hfresh, -, rfl⟩ := Task.completes_update.1 hupdate
      obtain ⟨rfl, rfl⟩ := completes_record.1 hrecord
      have hreplaced : Placed ns name (replacement found job) := hjob
      rw [hreplaced.nsOf, hreplaced.nameOf] at hstored ⊢
      exact ⟨rfl, .replaced hfound (by simpa using hdiffers) hstored hfresh⟩
    · next hagrees =>
      obtain ⟨rfl, rfl⟩ := completes_record.1 hrest
      exact ⟨rfl, .agreed hfound (by simpa using hagrees)⟩
  · next hmissing =>
    have hrest₁ := completes_server_bind.1 hrest
    obtain ⟨_, c₁, hcreate, hrest₂⟩ := completes_liftM_bind.1 hrest₁
    obtain ⟨reference, hfree, -, rfl⟩ := Task.completes_createOwned hcreate
    obtain ⟨_, st₂, c₂, hreport, hrecord⟩ := completes_bind.1 hrest₂
    obtain ⟨-, rfl, rfl⟩ := completes_report.1 hreport
    obtain ⟨rfl, rfl⟩ := completes_record.1 hrecord
    rw [hjob.nsOf, hjob.nameOf] at hfree ⊢
    exact ⟨rfl, .created reference hmissing hfree⟩

/-- After its round, a wanted job is there. It is there as wanted, unless the job that was found at
the beginning has been replaced in another round, which happens if several backups share a name. -/
theorem completes_reconcileBackup
    (h : Completes flaky P (reconcileBackup existing job) st c u st' c') (hc : c.Filed)
    (hjob : Placed ns name job)
    (hexisting : ∀ found, existing.find? (·.anyName == name) = some found →
      ∃ o, c.get? .cronJob ns name = some o) :
    Provides ns [name] st c st' c' ∧
      ((∀ found, existing.find? (·.anyName == name) = some found →
        c.get? .cronJob ns name = some found) →
        ∃ live, c'.get? .cronJob ns name = some live ∧
          Stands (existing.find? (·.anyName == name)) job live) := by
  obtain ⟨rfl, hround⟩ := round_of_completes h hjob
  cases hround with
  | @agreed found hfound hagrees =>
    refine ⟨provides_record hc (hexisting found hfound), fun hfirst =>
      ⟨found, hfirst found hfound, ?_⟩⟩
    rw [hfound]
    exact .of_agrees hagrees
  | @replaced found stored hfound hdiffers hstored hfresh =>
    refine ⟨provides_store hc hjob, fun hfirst => ⟨_, get?_store_self c ns name _, ?_⟩⟩
    obtain rfl : stored = found := Option.some.inj (hstored.symm.trans (hfirst found hfound))
    rw [hfound]
    exact .of_replacement (Bool.eq_false_iff.1 hdiffers) _
  | created reference hmissing hfree =>
    refine ⟨provides_store hc hjob, fun _ => ⟨_, get?_store_self c ns name _, ?_⟩⟩
    rw [hmissing]
    exact .of_created reference _

/-- The rounds do not disturb each other as long as the names of the wanted jobs are distinct. -/
theorem completes_reconcileBackup_forM
    (h : Completes flaky P (desired.forM (reconcileBackup existing)) st c u st' c') (hc : c.Filed)
    (hplaced : ∀ job ∈ desired, Placed ns (nameOf job) job)
    (hexisting : ∀ name found, existing.find? (·.anyName == name) = some found →
      ∃ o, c.get? .cronJob ns name = some o) :
    Provides ns (desired.map nameOf) st c st' c' ∧
      ((desired.map nameOf).Nodup →
        (∀ job ∈ desired, ∀ found, existing.find? (·.anyName == nameOf job) = some found →
          c.get? .cronJob ns (nameOf job) = some found) →
        ∀ job ∈ desired, ∃ live, c'.get? .cronJob ns (nameOf job) = some live ∧
          Stands (existing.find? (·.anyName == nameOf job)) job live) := by
  induction desired generalizing st c with
  | nil =>
    obtain ⟨-, rfl, rfl⟩ := completes_pure.1 h
    exact ⟨.refl _ hc, fun _ _ => by simp⟩
  | cons job rest ih =>
    obtain ⟨_, st₁, c₁, hround, hrest⟩ := completes_bind.1 h
    obtain ⟨hjob, hplaced'⟩ := List.forall_mem_cons.1 hplaced
    obtain ⟨hfirst, hlive⟩ := completes_reconcileBackup hround hc hjob (hexisting (nameOf job))
    obtain ⟨hothers, hall⟩ := ih hrest hfirst.filed hplaced' fun name found hfound =>
      hfirst.exists_get? (hexisting name found hfound)
    refine ⟨hfirst.trans hothers, fun hnames hlisted => ?_⟩
    obtain ⟨hfresh, hnames'⟩ := List.nodup_cons.1 hnames
    obtain ⟨hlistedJob, hlisted'⟩ := List.forall_mem_cons.1 hlisted
    refine List.forall_mem_cons.2 ⟨?_, hall hnames' fun other hother found hfound => ?_⟩
    · rw [hothers.others ns (nameOf job) fun hplace => hfresh hplace.2]
      exact hlive hlistedJob
    · have hne : ¬(ns = ns ∧ nameOf other ∈ [nameOf job]) := fun hplace => by
        have heq := List.mem_singleton.1 hplace.2
        exact hfresh (heq ▸ List.mem_map_of_mem hother)
      rw [hfirst.others ns _ hne]
      exact hlisted' other hother found hfound

/-! ## The rounds of the live jobs -/

/-- The live jobs that bear no wanted name. -/
def unwanted (existing desired : List CronJob) : List CronJob :=
  existing.filter fun found => !desired.any (·.metadata.name == some found.anyName)

/-- The unwanted jobs are gone. Where none of them was recorded, there is nothing to forget. -/
theorem completes_removeBackup_forM
    (h : Completes flaky P (existing.forM (removeBackup desired)) st c u st' c') :
    c' = c.removeAll (unwanted existing desired) ∧
      ((∀ found ∈ unwanted existing desired,
        st.children.contains Kind.cronJob.name found.anyName = false) → st' = st) := by
  induction existing generalizing st c with
  | nil =>
    obtain ⟨-, rfl, rfl⟩ := completes_pure.1 h
    exact ⟨rfl, fun _ => rfl⟩
  | cons found rest ih =>
    obtain ⟨_, st₁, c₁, hround, hrest⟩ := completes_bind.1 h
    unfold removeBackup at hround
    unfold unwanted
    rw [List.filter_cons]
    split at hround
    · next hwanted =>
      obtain ⟨-, rfl, rfl⟩ := completes_pure.1 hround
      rw [if_neg (by simp [hwanted])]
      exact ih hrest
    · next hunwanted =>
      obtain ⟨_, st₂, c₂, hdelete, hround'⟩ := completes_bind.1 hround
      obtain ⟨hdelete', rfl⟩ := completes_liftM.1 hdelete
      obtain ⟨-, -, rfl⟩ := Task.completes_delete.1 hdelete'
      obtain ⟨_, st₃, c₃, hforget, hreport⟩ := completes_bind.1 hround'
      obtain ⟨rfl, rfl⟩ := completes_modify.1 hforget
      obtain ⟨-, rfl, rfl⟩ := completes_report.1 hreport
      rw [if_pos (by simpa using hunwanted)]
      obtain ⟨hgone, hforgets⟩ := ih hrest
      refine ⟨hgone, fun hnone => ?_⟩
      obtain ⟨hfound, hnone'⟩ := List.forall_mem_cons.1 hnone
      have hsame := Registry.remove_of_not_contains hfound
      rw [hforgets (by rwa [hsame]), hsame]

theorem mem_backupJobs : job ∈ backupJobs c ns server ↔
    (∃ name, c.get? .cronJob ns name = some job) ∧
      selects (selector server backup) job.metadata.labelsOrEmpty = true := by
  unfold backupJobs
  rw [List.mem_filter, mem_values_objects]

/-- A live job that is found by its name is the one in the place of that name. -/
theorem get?_of_find? (hc : c.Filed) {found : CronJob}
    (h : (backupJobs c ns server).find? (·.anyName == name) = some found) :
    c.get? .cronJob ns name = some found := by
  obtain ⟨⟨name', hget⟩, -⟩ := mem_backupJobs.1 (List.mem_of_find?_eq_some h)
  have hany : found.anyName = name := by simpa using List.find?_some h
  rw [← hany, hc.anyName hget]
  exact hget

theorem mem_unwanted (hc : c.Filed) (hplaced : ∀ job ∈ desired, Placed ns (nameOf job) job) :
    job ∈ unwanted (backupJobs c ns server) desired ↔ job ∈ backupJobs c ns server ∧
      nsOf job = ns ∧ nameOf job ∉ desired.map nameOf := by
  unfold unwanted
  rw [List.mem_filter]
  refine and_congr_right fun hjob => ?_
  obtain ⟨⟨name, hget⟩, -⟩ := mem_backupJobs.1 hjob
  have hany : desired.any (·.metadata.name == some name) = true ↔
      name ∈ desired.map nameOf := by
    rw [List.any_eq_true, List.mem_map]
    refine exists_congr fun other => and_congr_right fun hother => ?_
    rw [(hplaced other hother).2, beq_iff_eq, Option.some_inj]
  rw [hc.anyName hget, hc.nameOf hget, ← hany]
  simp [(hc _ _ _ _ hget).1]

/-- Of the wanted names, none is taken away. -/
theorem get?_removeAll_unwanted {c₁ : Cluster} (hc : c.Filed)
    (hplaced : ∀ job ∈ desired, Placed ns (nameOf job) job) (hname : name ∈ desired.map nameOf) :
    (c₁.removeAll (unwanted (backupJobs c ns server) desired)).get? .cronJob ns name =
      c₁.get? .cronJob ns name := by
  rw [get?_removeAll c₁ _ ns name fun job hjob => ((mem_unwanted hc hplaced).1 hjob).2.1, if_neg ?_]
  intro hmem
  obtain ⟨job, hjob, rfl⟩ := List.mem_map.1 hmem
  exact ((mem_unwanted hc hplaced).1 hjob).2.2 hname

/-! ## What is left behind -/

/-- Two jobs of one name that agree have the same content. -/
theorem jobContent_eq {live job : CronJob} (hname : live.metadata.name = job.metadata.name)
    (hagrees : agrees live job = true) : jobContent live = jobContent job := by
  obtain ⟨hspec, hlabels⟩ := agrees_iff.1 hagrees
  rw [jobContent, hname, hspec, hlabels, ← jobContent]

theorem nodup_nameOf_backupJobs (hc : c.Filed) : ((backupJobs c ns server).map nameOf).Nodup :=
  (nodup_nameOf_values fun _ _ hget => hc.nameOf hget).sublist (List.filter_sublist.map _)

theorem nodup_backupJobs (hc : c.Filed) : ((backupJobs c ns server).map jobContent).Nodup := by
  refine List.Nodup.of_map (fun content => content.1.getD "") ?_
  rw [List.map_map]
  exact nodup_nameOf_backupJobs hc

/-- After the two loops only wanted jobs carry the labels of the server's backups: an old one that
is not wanted would have been deleted. `c` is the cluster before the loops and `c₁` the one between
them. -/
theorem wanted_of_get? {c₁ : Cluster} (hc : c.Filed)
    (hplaced : ∀ job ∈ desired, Placed ns (nameOf job) job)
    (hkept : ∀ name ∉ desired.map nameOf, c₁.get? .cronJob ns name = c.get? .cronJob ns name)
    (hget : (c₁.removeAll (unwanted (backupJobs c ns server) desired)).get? .cronJob ns name =
      some job)
    (hselects : selects (selector server Child.backup) job.metadata.labelsOrEmpty = true) :
    name ∈ desired.map nameOf := by
  by_contra hwanted
  have hnsOf (other : CronJob) (hother : other ∈ unwanted (backupJobs c ns server) desired) :
      nsOf other = ns := ((mem_unwanted hc hplaced).1 hother).2.1
  rw [get?_removeAll c₁ _ ns name hnsOf] at hget
  split at hget
  · cases hget
  · next hgone =>
    rw [hkept name hwanted] at hget
    have hmem : job ∈ unwanted (backupJobs c ns server) desired := by
      refine (mem_unwanted hc hplaced).2 ⟨mem_backupJobs.2 ⟨⟨name, hget⟩, hselects⟩, ?_, ?_⟩
      · exact (hc _ _ _ _ hget).1
      · rwa [hc.nameOf hget]
    exact hgone (hc.nameOf hget ▸ List.mem_map_of_mem hmem)

/-- What the two loops leave behind, of the jobs with the labels of the server's backups: `c` is the
cluster before the loops and `c₁` the one between them. -/
theorem perm_backupJobs {c₁ : Cluster} (hc : c.Filed) (hc' : c'.Filed)
    (hcomma : ',' ∉ server.anyName.toList)
    (hdesired : Backup.cronJobs server settings = .ok desired)
    (hplaced : ∀ job ∈ desired, Placed ns (nameOf job) job) (hnames : (desired.map nameOf).Nodup)
    (hall : ∀ job ∈ desired, ∃ live, c₁.get? .cronJob ns (nameOf job) = some live ∧
      agrees live job = true)
    (hkept : ∀ name ∉ desired.map nameOf, c₁.get? .cronJob ns name = c.get? .cronJob ns name)
    (hend : c' = c₁.removeAll (unwanted (backupJobs c ns server) desired)) :
    ((backupJobs c' ns server).map jobContent).Perm (desired.map jobContent) := by
  have hget (name : String) (hname : name ∈ desired.map nameOf) :
      c'.get? .cronJob ns name = c₁.get? .cronJob ns name := by
    rw [hend]
    exact get?_removeAll_unwanted hc hplaced hname
  have hnodup : (desired.map jobContent).Nodup := by
    refine List.Nodup.of_map (fun content => content.1.getD "") ?_
    rwa [List.map_map]
  -- Names are distinct on both sides, so it is enough to compare members.
  rw [List.perm_ext_iff_of_nodup (nodup_backupJobs hc') hnodup]
  intro content
  rw [List.mem_map, List.mem_map]
  constructor
  · rintro ⟨live, hlive, rfl⟩
    obtain ⟨⟨name, hlive'⟩, hselects⟩ := mem_backupJobs.1 hlive
    have hname := (hc' _ _ _ _ hlive').2
    have hwanted : name ∈ desired.map nameOf :=
      wanted_of_get? hc hplaced hkept (hend ▸ hlive') hselects
    obtain ⟨job, hjob, rfl⟩ := List.mem_map.1 hwanted
    obtain ⟨live', hget', hagrees⟩ := hall job hjob
    obtain rfl : live = live' :=
      Option.some.inj (hlive'.symm.trans ((hget _ hwanted).trans hget'))
    exact ⟨job, hjob, (jobContent_eq (hname.trans (hplaced job hjob).2.symm) hagrees).symm⟩
  · rintro ⟨job, hjob, rfl⟩
    obtain ⟨live, hlive, hagrees⟩ := hall job hjob
    have hlive' : c'.get? .cronJob ns (nameOf job) = some live := by
      rw [hget _ (List.mem_map_of_mem hjob)]
      exact hlive
    obtain ⟨backup, hbuild⟩ := mem_cronJobs hdesired hjob
    have hselects : selects (selector server Child.backup) live.metadata.labelsOrEmpty = true := by
      rw [(agrees_iff.1 hagrees).2, labels_cronJob hbuild]
      exact selects_jobLabels hcomma backup
    refine ⟨live, mem_backupJobs.2 ⟨⟨nameOf job, hlive'⟩, hselects⟩, ?_⟩
    exact jobContent_eq ((hc' _ _ _ _ hlive').2.trans (hplaced job hjob).2.symm) hagrees

theorem contains_cronJobs {r : Registry} (hfresh : r.contains Kind.cronJob.name name = false)
    (hname : name ∉ names) :
    (r.addAll (names.map fun name => (.cronJob, name))).contains Kind.cronJob.name name =
      false := by
  rw [Bool.eq_false_iff, ne_eq, Registry.contains_addAll, hfresh]
  rintro (hrecorded | ⟨k, -, hmem⟩)
  · cases hrecorded
  · obtain ⟨name', hname', heq⟩ := List.mem_map.1 hmem
    obtain ⟨-, rfl⟩ := Prod.mk.inj heq
    exact hname hname'

/-- The two loops account for the wanted jobs: as no job is recorded before them, none that the
second one deletes has to be forgotten. -/
theorem accounts_backupJobs {c₁ : Cluster} {st₁ : PassState} (hc : c.Filed)
    (hplaced : ∀ job ∈ desired, Placed ns (nameOf job) job)
    (hprovides : Provides ns (desired.map nameOf) st c st₁ c₁)
    (hremove : Completes flaky P ((backupJobs c ns server).forM (removeBackup desired))
      st₁ c₁ u st' c')
    (hshelf : ∀ k ∉ backupKinds, c'.shelf k = c.shelf k)
    (hfresh : ∀ name, st.children.contains Kind.cronJob.name name = false) :
    Accounts ns backupKinds ((desired.map nameOf).map fun name => (.cronJob, name)) true
      st c st' c' := by
  obtain ⟨hgone, hforgets⟩ := completes_removeBackup_forM hremove
  have hstate : st' = st₁ := by
    refine hforgets fun found hfound => ?_
    obtain ⟨hmem, -, hname⟩ := (mem_unwanted hc hplaced).1 hfound
    obtain ⟨⟨name, hget⟩, -⟩ := mem_backupJobs.1 hmem
    rw [hc.nameOf hget] at hname
    rw [hprovides.state, hc.anyName hget]
    exact contains_cronJobs (hfresh name) hname
  refine ⟨hstate.trans hprovides.state, ?_, fun k hk => keeps_of_shelf (hshelf k hk), ?_, ?_⟩
  · rw [hgone]
    exact hprovides.filed.removeAll _
  · intro child hchild
    obtain ⟨name, hname, rfl⟩ := List.mem_map.1 hchild
    rw [hgone, get?_removeAll_unwanted hc hplaced hname]
    exact hprovides.present name hname
  · intro k ns' name o ho
    by_cases hk : k = .cronJob
    · subst hk
      by_cases hplace : ns' = ns ∧ name ∈ desired.map nameOf
      · exact .inr ⟨hplace.1, List.mem_map_of_mem hplace.2⟩
      · rw [hgone] at ho
        exact .inl ⟨o, (hprovides.others ns' name hplace).symm.trans (get?_of_removeAll ho)⟩
    · rw [get?_of_shelf (hshelf k (by simpa [backupKinds] using hk))] at ho
      exact .inl ⟨o, ho⟩

/-- The wanted jobs are built into the namespace of the server. -/
theorem placed_cronJobs (h : Backup.cronJobs server settings = .ok desired)
    (hns : server.metadata.ns = some ns) : ∀ job ∈ desired, Placed ns (nameOf job) job := by
  intro job hjob
  obtain ⟨backup, hbuild⟩ := mem_cronJobs h hjob
  have hplaced := (places_cronJob settings backup).placed hns hbuild
  rwa [hplaced.nameOf]

/-- The step is two loops over the jobs that are there at the beginning. -/
theorem loops_reconcileBackups (h : Completes flaky P (reconcileBackups settings) st c u st' c')
    (hns : st.server.metadata.ns = some ns) :
    ∃ desired st₁ c₁, Backup.cronJobs st.server settings = .ok desired ∧
      (desired ≠ [] → ∃ account, c.get? .serviceAccount ns Backup.account = some account) ∧
      Completes flaky P (desired.forM (reconcileBackup (backupJobs c ns st.server)))
        st c () st₁ c₁ ∧
      Completes flaky P ((backupJobs c ns st.server).forM (removeBackup desired))
        st₁ c₁ u st' c' := by
  have hrest := completes_server_bind.1 h
  obtain ⟨ns', hns', hrest₁⟩ := completes_build_bind.1 hrest
  obtain rfl : ns = ns' :=
    Option.some.inj (hns.symm.trans (ObjectMeta.requireNs_eq_ok.1 hns'))
  obtain ⟨desired, hdesired, hrest₂⟩ := completes_build_bind.1 hrest₁
  have hjobs : (desired ≠ [] → ∃ account, c.get? .serviceAccount ns Backup.account = some account) ∧
      Completes flaky P (do
        let existing ← Task.call (.list .cronJob ns (selector st.server backup))
        desired.forM (reconcileBackup existing)
        existing.forM (removeBackup desired)) st c u st' c' := by
    split at hrest₂
    · obtain ⟨account, c, hget', hrest₃⟩ := completes_liftM_bind.1 hrest₂
      obtain ⟨-, rfl, rfl⟩ := Task.completes_get.1 hget'
      split at hrest₃
      · next account haccount => exact ⟨fun _ => ⟨account, haccount⟩, hrest₃⟩
      · obtain ⟨_, _, _, hstop, -⟩ := completes_bind.1 hrest₃
        exact absurd hstop completes_stop
    · next hempty =>
      exact ⟨fun hne => absurd (by simpa using hempty) hne, hrest₂⟩
  obtain ⟨haccount, hloops⟩ := hjobs
  obtain ⟨existing, c, hlist', hrest₃⟩ := completes_liftM_bind.1 hloops
  obtain ⟨-, rfl, rfl⟩ := Task.completes_list.1 hlist'
  obtain ⟨_, st₁, c₁, hreconcile, hremove⟩ := completes_bind.1 hrest₃
  exact ⟨desired, st₁, c₁, hdesired, haccount, hreconcile, hremove⟩

theorem completes_reconcileBackups
    (h : Completes flaky P (reconcileBackups settings) st c u st' c') (hc : c.Filed)
    (hns : st.server.metadata.ns = some ns)
    (hfresh : ∀ name, st.children.contains Kind.cronJob.name name = false) :
    Accounts ns backupKinds (Backup.wanted st.server) true st c st' c' ∧
      (',' ∉ st.server.anyName.toList → (st.server.spec.backups.map (·.name)).Nodup →
        BackupsSettled settings c' ns st.server) := by
  obtain ⟨-, -, hsame⟩ := writesOnly_reconcileBackups.completes h
  obtain ⟨desired, st₁, c₁, hdesired, haccount, hreconcile, hremove⟩ := loops_reconcileBackups h hns
  have hplaced := placed_cronJobs hdesired hns
  obtain ⟨hprovides, hall⟩ := completes_reconcileBackup_forM hreconcile hc hplaced
    fun name found hfound => ⟨found, get?_of_find? hc hfound⟩
  have haccounts := accounts_backupJobs hc hplaced hprovides hremove hsame.shelf hfresh
  rw [wanted_cronJobs hdesired]
  refine ⟨haccounts, fun hcomma hnames => ⟨desired, hdesired, fun hne => ?_, ?_⟩⟩
  · obtain ⟨account, hget⟩ := haccount hne
    exact ⟨account, haccounts.get? (by decide) hget⟩
  · rw [← map_nameOf_cronJobs hdesired] at hnames
    refine perm_backupJobs hc haccounts.filed hcomma hdesired hplaced hnames ?_ ?_
      (completes_removeBackup_forM hremove).1
    · intro job hjob
      obtain ⟨live, hget, hstands⟩ :=
        hall hnames (fun job _ found hfound => get?_of_find? hc hfound) job hjob
      exact ⟨live, hget, hstands.agrees⟩
    · exact fun name hname => hprovides.others ns name fun hplace => hname hplace.2

/-! ## What is looked at -/

/-- A wanted job that is there as wanted is found among the live ones. -/
theorem quiet_reconcileBackup (hc : c.Filed) {desired : CronJob} (hplaced : Placed ns name desired)
    (hlive : ∃ live ∈ backupJobs c ns server, jobContent live = jobContent desired) :
    Quiet c server [(.cronJob, name)] true
      (reconcileBackup (backupJobs c ns server) desired) () := by
  obtain ⟨live, hmem, hcontent⟩ := hlive
  obtain ⟨hname, hspec, hlabels⟩ : live.metadata.name = desired.metadata.name ∧
      live.spec = desired.spec ∧
      live.metadata.labelsOrEmpty = desired.metadata.labelsOrEmpty := by
    simpa [jobContent] using hcontent
  refine (quiet_ofExcept (ObjectMeta.requireName_eq_ok.2 hplaced.2)).bind_first ?_
  obtain ⟨⟨name', hget⟩, -⟩ := mem_backupJobs.1 hmem
  obtain rfl : name' = name := by
    have hname' := (hc _ _ _ _ hget).2
    rw [hname, hplaced.2] at hname'
    exact (Option.some.inj hname').symm
  obtain ⟨found, hfound⟩ : ∃ found,
      (backupJobs c ns server).find? (·.anyName == name') = some found := by
    rw [← Option.isSome_iff_exists, List.find?_isSome]
    exact ⟨live, hmem, by simpa using hc.anyName hget⟩
  obtain rfl : found = live :=
    Option.some.inj ((get?_of_find? hc hfound).symm.trans hget)
  dsimp only
  rw [hfound]
  have hagrees : agrees found desired = true := agrees_iff.2 ⟨hspec, hlabels⟩
  simp only [hagrees, Bool.not_true, Bool.false_eq_true, if_false]
  exact quiet_record .cronJob name'

theorem quiet_removeBackup {found : CronJob}
    (hwanted : found.metadata.name ∈ desired.map (·.metadata.name))
    (hname : found.metadata.name = some found.anyName) :
    Quiet c server [] true (removeBackup desired found) () := by
  obtain ⟨job, hjob, heq⟩ := List.mem_map.1 hwanted
  have hany : desired.any (·.metadata.name == some found.anyName) = true :=
    List.any_eq_true.2 ⟨job, hjob, by simpa using heq.trans hname⟩
  unfold removeBackup
  rw [if_pos hany]
  exact quiet_pure ()

/-- The step is quiet where every wanted job stands as it is wanted and no other job carries the
labels of backups. -/
theorem quiet_reconcileBackups_of_mem (hc : c.Filed) (hns : server.metadata.ns = some ns)
    (hdesired : Backup.cronJobs server settings = .ok desired)
    (haccount : desired ≠ [] → ∃ account, c.get? .serviceAccount ns Backup.account = some account)
    (hlive : ∀ job ∈ desired, ∃ live ∈ backupJobs c ns server, jobContent live = jobContent job)
    (hwanted : ∀ live ∈ backupJobs c ns server,
      live.metadata.name ∈ desired.map (·.metadata.name)) :
    Quiet c server (Backup.wanted server) true (reconcileBackups settings) () := by
  refine quiet_server.bind_first ?_
  refine (quiet_ofExcept (ObjectMeta.requireNs_eq_ok.2 hns)).bind_first ?_
  refine (quiet_ofExcept hdesired).bind_first ?_
  have hloops : Quiet c server (Backup.wanted server) true (do
      let existing ← Task.call (.list .cronJob ns (selector server backup))
      desired.forM (reconcileBackup existing)
      existing.forM (removeBackup desired)) () := by
    refine (quiet_call rfl (answer_list.2 ⟨rfl, rfl⟩)).bind_first ?_
    have hreconcile : Quiet c server (desired.flatMap fun job => [(.cronJob, nameOf job)]) true
        (desired.forM (reconcileBackup (backupJobs c ns server))) () :=
      quiet_forM fun job hjob =>
        quiet_reconcileBackup hc (placed_cronJobs hdesired hns job hjob) (hlive job hjob)
    have hremove : Quiet c server ((backupJobs c ns server).flatMap fun _ => []) true
        ((backupJobs c ns server).forM (removeBackup desired)) () := by
      refine quiet_forM fun found hfound => ?_
      obtain ⟨⟨name, hget⟩, -⟩ := mem_backupJobs.1 hfound
      refine quiet_removeBackup (hwanted found hfound) ?_
      rw [(hc _ _ _ _ hget).2, hc.anyName hget]
    rw [wanted_cronJobs hdesired, List.map_map, List.map_eq_flatMap]
    have hnothing : ((backupJobs c ns server).flatMap fun _ => []) = ([] : List (Kind × String)) :=
      List.flatMap_eq_nil_iff.2 fun _ _ => rfl
    rw [hnothing] at hremove
    exact hreconcile.bind_last hremove
  cases hempty : desired.isEmpty with
  | true => exact hloops
  | false =>
    obtain ⟨account, hget⟩ := haccount (by simpa using hempty)
    refine (quiet_call rfl (answer_get.2 ⟨hget.symm, rfl⟩)).bind_first ?_
    exact hloops

theorem quiet_reconcileBackups (hc : c.Filed) (hns : server.metadata.ns = some ns)
    (h : BackupsSettled settings c ns server) :
    Quiet c server (Backup.wanted server) true (reconcileBackups settings) () := by
  obtain ⟨desired, hdesired, haccount, hperm⟩ := h
  refine quiet_reconcileBackups_of_mem hc hns hdesired haccount (fun job hjob => ?_) ?_
  · exact List.mem_map.1 (hperm.mem_iff.2 (List.mem_map_of_mem hjob))
  · intro found hfound
    obtain ⟨job, hjob, hcontent⟩ := List.mem_map.1 (hperm.mem_iff.1 (List.mem_map_of_mem hfound))
    exact List.mem_map.2 ⟨job, hjob, congrArg Prod.fst hcontent⟩

end Pass

end PushOperator
