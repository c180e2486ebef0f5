import PushOperator.Proofs.Pass.Backups
import PushOperator.Proofs.Pass.Outcome

/-!
# Backups follow the spec

The step waits for the account that backups run as, and does not look at a single job until then.
A step that completes has made one list of jobs the same as another: what agreed was not written,
what differed was replaced but kept its owners and its uid, what was missing was created, what was
not wanted was deleted, and nothing else has changed (`backups_follow_spec`).
-/

namespace PushOperator

open Child Cluster

namespace Pass

variable {α σ : Type} {w : World σ} {P : Entry → Prop} {c c' : Cluster} {ns name : String}
  {server : Server} {st st' : PassState} {settings : Settings} {existing desired : List CronJob}
  {job found : CronJob} {t : Trace} {u : Unit} {s s' : σ}

/-! ## The parts of the step -/

/-- The two loops over the wanted jobs and the live ones. -/
def mergeJobs (existing desired : List CronJob) : Pass Unit := do
  desired.forM (reconcileBackup existing)
  existing.forM (removeBackup desired)

/-- The jobs, once the account is there. -/
def syncJobs (ns : String) (server : Server) (desired : List CronJob) : Pass Unit := do
  let existing ← Task.call (.list .cronJob ns (selector server backup))
  mergeJobs existing desired

theorem exists_cronJob (settings : Settings) (hns : server.metadata.ns = some ns)
    (backup : Backup) : ∃ job, Backup.cronJob server settings backup = .ok job := by
  unfold Backup.cronJob namedMeta
  rw [ObjectMeta.requireNs_eq_ok.2 hns]
  exact ⟨_, rfl⟩

/-- All jobs can be built for a server that is in a namespace, one for each backup. -/
theorem exists_cronJobs (settings : Settings) (hns : server.metadata.ns = some ns) :
    ∃ desired, Backup.cronJobs server settings = .ok desired ∧
      (desired = [] ↔ server.spec.backups = []) := by
  unfold Backup.cronJobs
  induction server.spec.backups with
  | nil => exact ⟨[], rfl, by simp⟩
  | cons backup rest ih =>
    obtain ⟨job, hbuild⟩ := exists_cronJob settings hns backup
    obtain ⟨jobs, hjobs, -⟩ := ih
    refine ⟨job :: jobs, ?_, by simp⟩
    rw [List.mapM_cons, hbuild, hjobs]
    rfl

/-- The step looks for the account before it turns to the jobs, if there are to be any. -/
theorem exec_reconcileBackups (hns : st.server.metadata.ns = some ns)
    (hdesired : Backup.cronJobs st.server settings = .ok desired) :
    (reconcileBackups settings).exec st =
      if desired.isEmpty then (syncJobs ns st.server desired).exec st
      else .call (.get .serviceAccount ns Backup.account) fun
        | .ok (some _) => (syncJobs ns st.server desired).exec st
        | .ok none => .done (.error (.early (.requeue 10)), st)
        | .error error => .done (.error (.failed error), st) := by
  unfold reconcileBackups
  rw [exec_server_bind, exec_build_bind (ObjectMeta.requireNs_eq_ok.2 hns),
    exec_build_bind hdesired]
  cases desired.isEmpty with
  | true => rfl
  | false =>
    refine congrArg (Interaction.call _) (funext fun answer => ?_)
    rcases answer with error | _ | account <;> rfl

/-- A run has changed nothing and not completed, or it has come to the two loops over the jobs of
the cluster `c`. What was asked before does not write. -/
def ComesToMerge (ns : String) (desired : List CronJob) (st : PassState) (c : Cluster) (t : Trace)
    (o : Option (Except Halt Unit × PassState)) (c' : Cluster) : Prop :=
  (c' = c ∧ ∀ st', o ≠ some (.ok (), st')) ∨
    ∃ reads t', t = reads ++ t' ∧ (∀ e ∈ reads, e.Within (writesOnly [])) ∧
      Run flaky ((mergeJobs (backupJobs c ns st.server) desired).exec st) c t' o c'

section

variable {o : Option (Except Halt Unit × PassState)}

theorem comesToMerge_of_halted {halt : Halt} (h : Run flaky (.done (.error halt, st)) c t o c') :
    ComesToMerge ns desired st c t o c' := by
  refine .inl ⟨h.of_done.2, ?_⟩
  rintro st' rfl
  cases (run_done_some.1 h).1

/-- A call that only reads comes before. -/
theorem comesToMerge_of_read {r : Request}
    {next : Except Error r.Reply → Interaction (Except Halt Unit × PassState)}
    (hread : r.isWrite = false) (h : Run flaky (.call r next) c t o c')
    (hnext : ∀ a t', flaky r c a c → Run flaky (next a) c t' o c' →
      ComesToMerge ns desired st c t' o c') : ComesToMerge ns desired st c t o c' := by
  rcases h.call_cases with ⟨rfl, rfl⟩ | ⟨a, c₁, t', hanswer, hrest, rfl⟩
  · refine .inl ⟨rfl, ?_⟩
    rintro st' rfl
    obtain ⟨_, _, _, -, -, hnil⟩ := run_call_some.1 h
    cases hnil
  · obtain rfl := flaky_read hread hanswer
    rcases hnext a t' hanswer hrest with hhalted | ⟨reads, t'', rfl, hreads, hmerge⟩
    · exact .inl hhalted
    · exact .inr ⟨.call r a :: reads, t'', rfl,
        List.forall_mem_cons.2 ⟨⟨asks_of_read hread, trivial⟩, hreads⟩, hmerge⟩

theorem run_syncJobs (h : Run flaky ((syncJobs ns st.server desired).exec st) c t o c') :
    ComesToMerge ns desired st c t o c' := by
  refine comesToMerge_of_read rfl h fun answer t' hanswer hrest => ?_
  rcases answer with error | listed
  · exact comesToMerge_of_halted hrest
  · obtain ⟨rfl, -⟩ := answer_list.1 (flaky_ok_iff.1 hanswer)
    exact .inr ⟨[], t', rfl, by simp, hrest⟩

/-- Whatever goes wrong in the step, it only changes anything in the two loops. -/
theorem run_reconcileBackups (h : Run flaky ((reconcileBackups settings).exec st) c t o c')
    (hns : st.server.metadata.ns = some ns)
    (hdesired : Backup.cronJobs st.server settings = .ok desired) :
    ComesToMerge ns desired st c t o c' := by
  rw [exec_reconcileBackups hns hdesired] at h
  split at h
  · exact run_syncJobs h
  · refine comesToMerge_of_read rfl h fun answer t' _ hrest => ?_
    rcases answer with error | _ | account
    · exact comesToMerge_of_halted hrest
    · exact comesToMerge_of_halted hrest
    · exact run_syncJobs hrest

end

/-! ## What is written -/

/-- What the loops may write, over the jobs that are there and those that are wanted. -/
inductive JobWrite (existing desired : List CronJob) : Request → Prop
  | create {job : CronJob} (reference : OwnerReference) : job ∈ desired →
    existing.find? (·.anyName == nameOf job) = none →
    JobWrite existing desired (.create .cronJob (job.withOwner reference))
  | update {found job : CronJob} : job ∈ desired →
    existing.find? (·.anyName == nameOf job) = some found → agrees found job = false →
    JobWrite existing desired (.update .cronJob (replacement found job))
  | delete {found : CronJob} : found ∈ unwanted existing desired →
    JobWrite existing desired (.delete .cronJob found)

/-- The duties of the loops. -/
def mergeDuties (existing desired : List CronJob) : Duties where
  contract := ⟨fun _ _ => True, JobWrite existing desired⟩
  keeps _ _ := True
  stops _ := False

theorem obeys_reconcileBackup (hmem : job ∈ desired) :
    Obeys (mergeDuties existing desired) (fun _ => True) (reconcileBackup existing job) := by
  have hbuild {β : Type} {e : Except Error β} {post : β → Prop} (h : ∀ b, e = .ok b → post b) :
      Obeys (mergeDuties existing desired) post (liftM (liftM e : Task β)) :=
    obeys_liftM (Task.obeys_ofExcept h)
  refine obeys_bind (hbuild fun _ h => ObjectMeta.requireName_eq_ok.1 h) fun name hname => ?_
  obtain rfl : name = nameOf job := by rw [nameOf, hname, Option.getD_some]
  split
  · next found hfound =>
    split
    · next hdiffers =>
      have hupdate : Task.Obeys (mergeDuties existing desired).contract _
          (Task.call (.update .cronJob (replacement found job))) :=
        Task.obeys_call (.update hmem hfound (by simpa using hdiffers))
      exact obeys_bind (obeys_liftM hupdate) fun _ _ => obeys_record
    · exact obeys_record
  · next hmissing =>
    refine obeys_bind obeys_server fun server _ => ?_
    have hcreate : Task.Obeys (mergeDuties existing desired).contract (fun _ => True)
        (Task.createOwned server job) :=
      Task.obeys_createOwned_of (fun reference => .create reference hmem hmissing)
        fun _ _ _ => trivial
    refine obeys_bind (obeys_liftM hcreate) fun _ _ => ?_
    exact obeys_bind obeys_report fun _ _ => obeys_record

theorem obeys_removeBackup (hmem : found ∈ existing) :
    Obeys (mergeDuties existing desired) (fun _ => True) (removeBackup desired found) := by
  unfold removeBackup
  split
  · exact obeys_pure trivial
  · next hunwanted =>
    have hdelete : Task.Obeys (mergeDuties existing desired).contract _
        (Task.call (.delete .cronJob found)) :=
      Task.obeys_call (.delete (List.mem_filter.2 ⟨hmem, by simpa using hunwanted⟩))
    refine obeys_bind (obeys_liftM hdelete) fun _ _ => ?_
    exact obeys_bind obeys_forget fun _ _ => obeys_report

theorem obeys_mergeJobs :
    Obeys (mergeDuties existing desired) (fun _ => True) (mergeJobs existing desired) :=
  obeys_bind (obeys_forM fun _ hjob => obeys_reconcileBackup hjob) fun _ _ =>
    obeys_forM fun _ hfound => obeys_removeBackup hfound

/-- Of all that the step asks, only what merges the jobs writes. -/
theorem jobWrite_of_run
    (h : Run flaky ((reconcileBackups settings).exec st) c t (some (.ok u, st')) c')
    (hns : st.server.metadata.ns = some ns)
    (hdesired : Backup.cronJobs st.server settings = .ok desired) {r : Request}
    {a : Except Error r.Reply} (hmem : .call r a ∈ t) (hwrites : r.Writes .cronJob) :
    JobWrite (backupJobs c ns st.server) desired r := by
  obtain ⟨-, hhalts⟩ | ⟨reads, t', rfl, hreads, hmerge⟩ := run_reconcileBackups h hns hdesired
  · exact absurd rfl (hhalts st')
  rcases List.mem_append.1 hmem with hread | hmem'
  · exact absurd ((hreads _ hread).1 _ hwrites) (by simp)
  · have hobeys : Obeys (mergeDuties (backupJobs c ns st.server) desired) _
        (mergeJobs (backupJobs c ns st.server) desired) := obeys_mergeJobs
    have hhonors : Interaction.Honors flaky
        (mergeDuties (backupJobs c ns st.server) desired).contract fun _ => True :=
      fun _ _ _ _ _ _ _ => ⟨trivial, trivial⟩
    exact (((hobeys st trivial).run hhonors trivial hmerge).2.2 _ hmem').1

/-- What agrees with a wanted job is left alone. -/
theorem not_written_of_agrees (hnames : (desired.map nameOf).Nodup) {r : Request}
    (h : JobWrite existing desired r) (hjob : job ∈ desired)
    (hfound : existing.find? (·.anyName == nameOf job) = some found)
    (hagrees : agrees found job = true)
    (hunwanted : ∀ gone ∈ unwanted existing desired, nameOf gone ∉ desired.map nameOf) :
    r.target ≠ nameOf job := by
  intro htarget
  cases h with
  | create reference hmem hmissing =>
    obtain rfl := List.inj_on_of_nodup_map hnames hmem hjob htarget
    rw [hmissing] at hfound
    cases hfound
  | update hmem hfound' hdiffers =>
    obtain rfl := List.inj_on_of_nodup_map hnames hmem hjob htarget
    obtain rfl := Option.some.inj (hfound.symm.trans hfound')
    rw [hagrees] at hdiffers
    cases hdiffers
  | delete hmem =>
    refine hunwanted _ hmem ?_
    rw [show nameOf _ = nameOf job from htarget]
    exact List.mem_map_of_mem hjob

/-- A wanted job that was not found is created. -/
theorem create_of_completes (hjob : Placed ns name job)
    (h : Completes flaky P (reconcileBackup existing job) st c u st' c')
    (hmissing : existing.find? (·.anyName == name) = none) :
    ∃ (o : CronJob) (created : CronJob), P (.call (.create .cronJob o) (.ok created)) ∧
      Placed ns name o := by
  obtain ⟨name', hname', hrest⟩ := completes_build_bind.1 h
  obtain rfl : name = name' :=
    Option.some.inj (hjob.2.symm.trans (ObjectMeta.requireName_eq_ok.1 hname'))
  rw [hmissing] at hrest
  obtain ⟨_, c₁, hcreate, -⟩ := completes_liftM_bind.1 (completes_server_bind.1 hrest)
  obtain ⟨reference, _, -, hcreate'⟩ := Task.completes_bind.1 hcreate
  obtain ⟨created, _, hcall, -⟩ := Task.completes_bind.1 hcreate'
  exact ⟨job.withOwner reference, created, (Task.completes_call.1 hcall).1, hjob⟩

theorem create_of_completes_forM (hplaced : ∀ job ∈ desired, Placed ns (nameOf job) job)
    (h : Completes flaky P (desired.forM (reconcileBackup existing)) st c u st' c')
    (hjob : job ∈ desired) (hmissing : existing.find? (·.anyName == nameOf job) = none) :
    ∃ (o : CronJob) (created : CronJob), P (.call (.create .cronJob o) (.ok created)) ∧
      Placed ns (nameOf job) o := by
  induction desired generalizing st c with
  | nil => cases hjob
  | cons first rest ih =>
    obtain ⟨_, st₁, c₁, hround, hrest⟩ := completes_bind.1 h
    obtain ⟨hfirst, hplaced'⟩ := List.forall_mem_cons.1 hplaced
    rcases List.mem_cons.1 hjob with rfl | hjob'
    · exact create_of_completes hfirst hround hmissing
    · exact ih hplaced' hrest hjob'

/-! ## Waiting for the account -/

section

variable (hns : st.server.metadata.ns = some ns) (hbackups : st.server.spec.backups ≠ [])
  (rest : Pass α)
include hns hbackups

/-- Whatever is to follow the step, it begins by looking for the account, and ends the pass when
there is none. -/
theorem exec_reconcileBackups_bind (settings : Settings) :
    ∃ next : ServiceAccount → Interaction (Except Halt α × PassState),
      ((do reconcileBackups settings; rest).exec st) =
        .call (.get .serviceAccount ns Backup.account) fun
          | .ok (some account) => next account
          | .ok none => .done (.error (.early (.requeue 10)), st)
          | .error error => .done (.error (.failed error), st) := by
  obtain ⟨desired, hdesired, hempty⟩ := exists_cronJobs settings hns
  have hne : ¬desired.isEmpty = true := fun h => hbackups (hempty.1 (by simpa using h))
  rw [exec_bind, exec_reconcileBackups hns hdesired, if_neg hne]
  refine ⟨fun _ => (do syncJobs ns st.server desired; rest).exec st,
    congrArg (Interaction.call _) (funext fun answer => ?_)⟩
  rcases answer with error | _ | account
  · rfl
  · rfl
  · exact (exec_bind _ _ _).symm

variable (hmissing : c.get? .serviceAccount ns Backup.account = none)
include hmissing

/-- Without the account, nothing but that is asked, whatever goes wrong. -/
theorem awaits_account {o : Option (Except Halt α × PassState)}
    (h : Run flaky ((do reconcileBackups settings; rest).exec st) c t o c') :
    c' = c ∧ (∀ r a, .call r a ∈ t → r = .get .serviceAccount ns Backup.account) ∧
      ∀ result st', o = some (result, st') → st' = st ∧
        (result = .error (.early (.requeue 10)) ∨
          ∃ error, .call (.get .serviceAccount ns Backup.account) (.error error) ∈ t ∧
            result = .error (.failed error)) := by
  obtain ⟨next, hexec⟩ := exec_reconcileBackups_bind hns hbackups rest settings
  rw [hexec] at h
  rcases h.call_cases with ⟨rfl, rfl⟩ | ⟨answer, c₁, t', hanswer, hrest, rfl⟩
  · refine ⟨rfl, by simp, ?_⟩
    rintro result st' rfl
    obtain ⟨_, _, _, -, -, hnil⟩ := run_call_some.1 h
    cases hnil
  obtain rfl := flaky_read rfl hanswer
  have hasked (r : Request) (a : Except Error r.Reply)
      (hmem : Entry.call r a ∈ [.call (.get .serviceAccount ns Backup.account) answer]) :
      r = .get .serviceAccount ns Backup.account :=
    (Entry.call.inj (List.mem_singleton.1 hmem)).1
  rcases answer with error | found
  · obtain ⟨rfl, rfl⟩ := hrest.of_done
    refine ⟨rfl, hasked, ?_⟩
    rintro result st' rfl
    obtain ⟨rfl, rfl⟩ := Prod.mk.inj (run_done_some.1 hrest).1
    exact ⟨rfl, .inr ⟨error, List.mem_singleton_self _, rfl⟩⟩
  · obtain ⟨rfl, -⟩ := answer_get.1 (flaky_ok_iff.1 hanswer)
    rw [hmissing] at hrest hasked ⊢
    obtain ⟨rfl, rfl⟩ := hrest.of_done
    refine ⟨rfl, hasked, ?_⟩
    rintro result st' rfl
    obtain ⟨rfl, rfl⟩ := Prod.mk.inj (run_done_some.1 hrest).1
    exact ⟨rfl, .inl rfl⟩

theorem awaits_account_reliable :
    OnlyRun reliable ((do reconcileBackups settings; rest).exec st) c
      [.call (.get .serviceAccount ns Backup.account) (.ok none)]
      (.error (.early (.requeue 10)), st) c := by
  obtain ⟨next, hexec⟩ := exec_reconcileBackups_bind hns hbackups rest settings
  have hrun : Run reliable ((do reconcileBackups settings; rest).exec st) c
      [.call (.get .serviceAccount ns Backup.account) (.ok none)]
      (some (.error (.early (.requeue 10)), st)) c := by
    rw [hexec, run_call_some]
    exact ⟨_, c, [], answer_get.2 ⟨hmissing.symm, rfl⟩, .done _ c, rfl⟩
  exact ⟨hrun, fun t₁ a₁ s₁ hother => Run.unique reliable_unique (by simp) hrun hother⟩

end

/-! ## What is left behind -/

/-- The wanted jobs `desired` have come to be, over the trace `t`: among the jobs with the labels of
the server's backups there is exactly one for each of them, with its spec and its labels. Those that
agreed already were not written, and those that were replaced have kept owners and uid. All other
jobs that were there are unchanged, and there are no new ones but those that were created. -/
structure Merged (ns : String) (server : Server) (desired : List CronJob) (t : Trace)
    (c c' : Cluster) : Prop where
  jobs : ((backupJobs c' ns server).map jobContent).Perm (desired.map jobContent)
  agreed : ∀ job ∈ desired, ∀ found ∈ backupJobs c ns server,
    found.metadata.name = job.metadata.name → agrees found job = true →
      c'.get? .cronJob ns (nameOf job) = some found ∧
      ∀ r a, .call r a ∈ t → r.Writes .cronJob → r.target ≠ nameOf job
  replaced : ∀ job ∈ desired, ∀ found ∈ backupJobs c ns server,
    found.metadata.name = job.metadata.name → ∃ live, c'.get? .cronJob ns (nameOf job) = some live ∧
      live.metadata.ownerReferences = found.metadata.ownerReferences ∧
      ∀ uid, found.metadata.uid = some uid → live.metadata.uid = some uid
  others : ∀ ns' name, ¬(ns' = ns ∧ ∃ found ∈ backupJobs c ns server, nameOf found = name) →
    (∀ (o created : CronJob), .call (.create .cronJob o) (.ok created) ∈ t →
      ¬(nsOf o = ns' ∧ nameOf o = name)) →
    c'.get? .cronJob ns' name = c.get? .cronJob ns' name

theorem find?_of_mem_backupJobs (hc : c.Filed) (hfound : found ∈ backupJobs c ns server)
    (hname : found.metadata.name = some name) :
    (backupJobs c ns server).find? (·.anyName == name) = some found := by
  obtain ⟨other, hother⟩ : ∃ other,
      (backupJobs c ns server).find? (·.anyName == name) = some other := by
    rw [← Option.isSome_iff_exists, List.find?_isSome]
    exact ⟨found, hfound, by simpa using anyName_of_name hname⟩
  obtain ⟨⟨name', hget⟩, -⟩ := mem_backupJobs.1 hfound
  obtain rfl : name' = name := Option.some.inj ((hc _ _ _ _ hget).2.symm.trans hname)
  rw [hother, ← get?_of_find? hc hother, hget]

theorem merged_of_run (hc : c.Filed) (hns : st.server.metadata.ns = some ns)
    (hcomma : ',' ∉ st.server.anyName.toList)
    (hdesired : Backup.cronJobs st.server settings = .ok desired)
    (hnames : (st.server.spec.backups.map (·.name)).Nodup)
    (h : Run flaky ((reconcileBackups settings).exec st) c t (some (.ok u, st')) c') :
    Merged ns st.server desired t c c' := by
  have hcompletes : Completes flaky (· ∈ t) (reconcileBackups settings) st c u st' c' :=
    ⟨t, fun _ he => he, h⟩
  obtain ⟨desired', st₁, c₁, hdesired', -, hreconcile, hremove⟩ :=
    loops_reconcileBackups hcompletes hns
  obtain rfl : desired = desired' := Except.ok.inj (hdesired.symm.trans hdesired')
  rw [← map_nameOf_cronJobs hdesired] at hnames
  have hplaced := placed_cronJobs hdesired hns
  obtain ⟨hprovides, hall⟩ := completes_reconcileBackup_forM hreconcile hc hplaced
    fun name found hfound => ⟨found, get?_of_find? hc hfound⟩
  have hstands := hall hnames fun job _ found hfound => get?_of_find? hc hfound
  obtain ⟨hgone, -⟩ := completes_removeBackup_forM hremove
  have hkept {name : String} (hname : name ∈ desired.map nameOf) :
      c'.get? .cronJob ns name = c₁.get? .cronJob ns name := by
    rw [hgone]
    exact get?_removeAll_unwanted hc hplaced hname
  have hfind {job found : CronJob} (hjob : job ∈ desired)
      (hfound : found ∈ backupJobs c ns st.server)
      (hname : found.metadata.name = job.metadata.name) :
      (backupJobs c ns st.server).find? (·.anyName == nameOf job) = some found :=
    find?_of_mem_backupJobs hc hfound (hname.trans (hplaced job hjob).2)
  refine ⟨?_, ?_, ?_, ?_⟩
  · refine perm_backupJobs hc ?_ hcomma hdesired hplaced hnames ?_ ?_ hgone
    · rw [hgone]
      exact hprovides.filed.removeAll _
    · intro job hjob
      obtain ⟨live, hget, hlive⟩ := hstands job hjob
      exact ⟨live, hget, hlive.agrees⟩
    · exact fun name hname => hprovides.others ns name fun hplace => hname hplace.2
  · intro job hjob found hfound hname hagrees
    have hfind' := hfind hjob hfound hname
    obtain ⟨live, hget, hlive⟩ := hstands job hjob
    refine ⟨?_, fun r a hmem hwrites => ?_⟩
    · rw [hkept (List.mem_map_of_mem hjob), hget, hlive.same found hfind' hagrees]
    · refine not_written_of_agrees hnames (jobWrite_of_run h hns hdesired hmem hwrites) hjob hfind'
        hagrees fun gone hgone => ?_
      exact ((mem_unwanted hc hplaced).1 hgone).2.2
  · intro job hjob found hfound hname
    obtain ⟨live, hget, hlive⟩ := hstands job hjob
    have hfind' := hfind hjob hfound hname
    exact ⟨live, (hkept (List.mem_map_of_mem hjob)).trans hget, hlive.owners found hfind',
      hlive.uid found hfind'⟩
  · intro ns' name hunselected huncreated
    have hleft : c'.get? .cronJob ns' name = c₁.get? .cronJob ns' name := by
      rw [hgone]
      refine get?_removeAll_of_elsewhere fun gone hmem hplace => hunselected ?_
      obtain ⟨hselected, hns', -⟩ := (mem_unwanted hc hplaced).1 hmem
      exact ⟨hplace.1.symm.trans hns', gone, hselected, hplace.2⟩
    rw [hleft]
    refine hprovides.others ns' name ?_
    rintro ⟨rfl, hwanted⟩
    obtain ⟨job, hjob, rfl⟩ := List.mem_map.1 hwanted
    cases hfound : (backupJobs c ns' st.server).find? (·.anyName == nameOf job) with
    | some found =>
      refine hunselected ⟨rfl, found, List.mem_of_find?_eq_some hfound, ?_⟩
      exact hc.nameOf (get?_of_find? hc hfound)
    | none =>
      obtain ⟨o, created, hcreate, ho⟩ :=
        create_of_completes_forM hplaced hreconcile hjob hfound
      exact huncreated o created hcreate ⟨ho.nsOf, ho.nameOf⟩

/-- If backups are asked for and the account that they run as is missing, the step asks for that
account and for nothing else, and ends the pass, to be run again after ten seconds, whatever was to
come next. Otherwise a step that completes has merged the jobs built from the backups into those
that are there. Names of backups have to be distinct, and there must be no comma in the name of the
server; labels of backups may be anything. -/
theorem backups_follow_spec (settings : Settings) (hc : c.Filed)
    (hns : st.server.metadata.ns = some ns) (hcomma : ',' ∉ st.server.anyName.toList)
    (hnames : (st.server.spec.backups.map (·.name)).Nodup) :
    (st.server.spec.backups ≠ [] → c.get? .serviceAccount ns Backup.account = none →
      ∀ {α : Type} (rest : Pass α),
        OnlyRun reliable ((do reconcileBackups settings; rest).exec st) c
          [.call (.get .serviceAccount ns Backup.account) (.ok none)]
          (.error (.early (.requeue 10)), st) c ∧
        ∀ t o c', Run flaky ((do reconcileBackups settings; rest).exec st) c t o c' →
          c' = c ∧ (∀ r a, .call r a ∈ t → r = .get .serviceAccount ns Backup.account) ∧
          ∀ result st', o = some (result, st') → st' = st ∧
            (result = .error (.early (.requeue 10)) ∨
              ∃ error, .call (.get .serviceAccount ns Backup.account) (.error error) ∈ t ∧
                result = .error (.failed error))) ∧
    ∃ desired, List.Forall₂ (fun backup job => Backup.cronJob st.server settings backup = .ok job)
        st.server.spec.backups desired ∧
      ∀ t u st' c', Run flaky ((reconcileBackups settings).exec st) c t (some (.ok u, st')) c' →
        Merged ns st.server desired t c c' := by
  constructor
  · intro hbackups hmissing α rest
    exact ⟨awaits_account_reliable hns hbackups rest hmissing,
      fun t o c' hrun => awaits_account hns hbackups rest hmissing hrun⟩
  · obtain ⟨desired, hdesired, -⟩ := exists_cronJobs settings hns
    exact ⟨desired, forall₂_of_mapM hdesired, fun t u st' c' hrun =>
      merged_of_run hc hns hcomma hdesired hnames hrun⟩

/-! ## A step that has something of everything to do -/

/-- A server with three backups. The user has labels of the same keys as the operator. -/
def busyServer : Server :=
  let backup (name schedule : String) : Backup := {
    name, schedule
    labels := some (Dict.ofList [("app", "mine"), ("service", "mine")])
    backendSecretName := "bucket" }
  { sampleServer "a" with spec := { backups := [
    backup "a-nightly" "@daily", backup "a-weekly" "@weekly", backup "a-new" "@hourly"] } }

/-- The job that is built for the backup of a name. -/
def busyJob (name : String) : CronJob :=
  let built := (Backup.cronJobs busyServer {}).toOption.getD []
  (built.find? (·.anyName == name)).getD { metadata := {}, spec := none, status := none }

/-- One job has another schedule and an owner, one is as it should be, one is not wanted, and one
has nothing to do with the server. -/
def busyCluster : Cluster :=
  let nightly := busyJob "a-nightly"
  let changed : CronJob := { nightly with
    metadata := { nightly.metadata with ownerReferences := some [], uid := some "nightly" }
    spec := nightly.spec.map fun spec => { spec with schedule := "@yearly" } }
  let unwanted : CronJob := { nightly with
    metadata := { nightly.metadata with name := some "a-former" } }
  let other : CronJob := {
    metadata := { name := some "other", ns := some "push" }
    spec := none
    status := none }
  let c := (sampleCluster.store "push" "a-nightly" changed).2
  let c := (c.store "push" "a-weekly" (busyJob "a-weekly")).2
  let c := (c.store "push" "a-former" unwanted).2
  (c.store "push" "other" other).2

theorem filed_busyCluster : busyCluster.Filed :=
  (((filed_sampleCluster.store rfl rfl).store rfl rfl).store rfl rfl).store rfl rfl

/-- The step over that cluster. -/
def busyStep : Interaction (Except Halt Unit × PassState) :=
  (reconcileBackups {}).exec { server := busyServer, stored := none }

/-- It completes: four jobs have become the three wanted ones and the other. In an empty cluster it
does not begin. -/
theorem backups_follow_spec_busyCluster :
    (∃ t st' c' desired, Run flaky busyStep busyCluster t (some (.ok (), st')) c' ∧
      Merged "push" busyServer desired t busyCluster c' ∧
      (c'.objects .cronJob "push").values.map (·.metadata.name) =
        [some "a-new", some "a-nightly", some "a-weekly", some "other"]) ∧
    ∃ e, OnlyRun reliable ((do
      reconcileBackups {}
      reconcileMonitoring : Pass Unit).exec { server := busyServer, stored := none }) .empty [e]
      (.error (.early (.requeue 10)), { server := busyServer, stored := none }) .empty := by
  have hnames : (busyServer.spec.backups.map (·.name)).Nodup := by decide
  constructor
  · obtain ⟨-, desired, -, hmerged⟩ := @backups_follow_spec busyCluster "push"
      { server := busyServer, stored := none } {} filed_busyCluster rfl (by decide) hnames
    have hrun := run_drawing (flaky_drawing fun _ => false) "secret" busyStep busyCluster
    obtain ⟨st', hended⟩ : ∃ st', (busyStep.run (drawing (fun _ => false) "secret")
        busyCluster).1 = (.ok (), st') := by
      have hok :
          (busyStep.run (drawing (fun _ => false) "secret") busyCluster).1.1.isOk = true := by
        decide +kernel
      rcases hresult : (busyStep.run (drawing (fun _ => false) "secret") busyCluster).1
        with ⟨_ | u, st'⟩
      · rw [hresult] at hok
        cases hok
      · exact ⟨st', rfl⟩
    rw [hended] at hrun
    exact ⟨_, st', _, desired, hrun, hmerged _ _ _ _ hrun, by decide +kernel⟩
  · obtain ⟨hwaits, -⟩ := @backups_follow_spec .empty "push"
      { server := busyServer, stored := none } {} filed_empty rfl (by decide) hnames
    exact ⟨_, (hwaits (by decide) rfl reconcileMonitoring).1⟩

end Pass

end PushOperator
