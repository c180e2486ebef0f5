import PushOperator.Proofs.BackupsFollowSpec

/-!
# When backups settle

Wanted jobs are compared with the jobs that were there before the first of them was seen to. So a
step that completes has left, under each wanted name, a job as one of the backups of that name wants
it, and the next step only looks if and only if backups of one name want the same job
(`backups_settle_iff`).
-/

namespace PushOperator

open Child Cluster

namespace Pass

variable {σ : Type} {w : World σ} {P : Entry → Prop} {c c' : Cluster} {ns name : String}
  {server : Server} {st st' : PassState} {settings : Settings}
  {existing desired wanted : List CronJob} {job live : CronJob} {t : Trace} {u : Unit} {s s' : σ}

/-- Backups of one name want the same job. -/
def BackupsAgree (settings : Settings) (server : Server) : Prop :=
  ∀ backup ∈ server.spec.backups, ∀ other ∈ server.spec.backups, backup.name = other.name →
    Backup.cronJob server settings backup = Backup.cronJob server settings other

/-- Under a name stands a job as one of the wanted jobs of that name. -/
def HoldsOne (wanted : List CronJob) (ns : String) (c : Cluster) (name : String) : Prop :=
  ∃ live, c.get? .cronJob ns name = some live ∧
    ∃ job ∈ wanted, nameOf job = name ∧ agrees live job = true

/-! ## What the rounds leave under a name -/

theorem HoldsOne.of_get? (h : HoldsOne wanted ns c name)
    (hget : c'.get? .cronJob ns name = c.get? .cronJob ns name) : HoldsOne wanted ns c' name := by
  obtain ⟨live, hlive, hjob⟩ := h
  exact ⟨live, hget.trans hlive, hjob⟩

/-- After a round its job stands as wanted, unless another one of that name does. -/
theorem Round.holdsOne (h : Round existing ns (nameOf job) job c c') (hjob : job ∈ wanted)
    (hbefore : ∀ found, existing.find? (·.anyName == nameOf job) = some found →
      c.get? .cronJob ns (nameOf job) = some found ∨ HoldsOne wanted ns c (nameOf job)) :
    HoldsOne wanted ns c' (nameOf job) := by
  cases h with
  | @agreed found hfound hagrees =>
    rcases hbefore found hfound with hget | hholds
    · exact ⟨found, hget, job, hjob, rfl, hagrees⟩
    · exact hholds
  | replaced => exact ⟨_, get?_store_self c ns _ _, job, hjob, rfl, agrees_iff.2 ⟨rfl, rfl⟩⟩
  | created => exact ⟨_, get?_store_self c ns _ _, job, hjob, rfl, agrees_iff.2 ⟨rfl, rfl⟩⟩

/-- What the rounds leave: each keeps what the ones before have brought about. -/
theorem holdsOne_of_rounds
    (h : Completes flaky P (desired.forM (reconcileBackup existing)) st c u st' c')
    (hplaced : ∀ job ∈ desired, Placed ns (nameOf job) job) (hwanted : desired ⊆ wanted)
    (hbefore : ∀ name found, existing.find? (·.anyName == name) = some found →
      c.get? .cronJob ns name = some found ∨ HoldsOne wanted ns c name) :
    (∀ name, HoldsOne wanted ns c name → HoldsOne wanted ns c' name) ∧
      ∀ job ∈ desired, HoldsOne wanted ns c' (nameOf job) := by
  induction desired generalizing st c with
  | nil =>
    obtain ⟨-, -, rfl⟩ := completes_pure.1 h
    exact ⟨fun _ hholds => hholds, by simp⟩
  | cons job rest ih =>
    obtain ⟨_, st₁, c₁, hround, hrest⟩ := completes_bind.1 h
    obtain ⟨hjob, hplaced'⟩ := List.forall_mem_cons.1 hplaced
    obtain ⟨hmem, hwanted'⟩ := List.cons_subset.1 hwanted
    obtain ⟨-, hround'⟩ := round_of_completes hround hjob
    have hfirst : HoldsOne wanted ns c₁ (nameOf job) :=
      hround'.holdsOne hmem (hbefore (nameOf job))
    have hothers {name : String} (hne : name ≠ nameOf job) :
        c₁.get? .cronJob ns name = c.get? .cronJob ns name :=
      hround'.others fun hplace => hne hplace.2
    -- What one round has brought about outlasts the later ones: those of other names leave it
    -- alone, and those of the same name put a wanted job in its place again.
    have hkept (name : String) (hholds : HoldsOne wanted ns c name) :
        HoldsOne wanted ns c₁ name := by
      by_cases hname : name = nameOf job
      · exact hname ▸ hfirst
      · exact hholds.of_get? (hothers hname)
    obtain ⟨hkeep, hall⟩ := ih hrest hplaced' hwanted' fun name found hfound => by
      by_cases hname : name = nameOf job
      · exact .inr (hname ▸ hfirst)
      · rw [hothers hname]
        exact (hbefore name found hfound).imp_right (hkept name)
    refine ⟨fun name hholds => hkeep name (hkept name hholds), ?_⟩
    exact List.forall_mem_cons.2 ⟨hkeep _ hfirst, hall⟩

/-! ## What a step leaves -/

/-- Jobs that are built under one name with the same spec and labels are the same. -/
theorem eq_of_agrees {backup other : Backup} {job' : CronJob}
    (h : Backup.cronJob server settings backup = .ok job)
    (h' : Backup.cronJob server settings other = .ok job') (hname : nameOf job = nameOf job')
    (hagrees : agrees job job' = true) : job = job' := by
  obtain ⟨hspec, hlabels⟩ := agrees_iff.1 hagrees
  -- Beyond its name, spec and labels, nothing of a built job depends on the backup.
  have hbuilt {backup : Backup} {job : CronJob}
      (h : Backup.cronJob server settings backup = .ok job) : ∃ ns, server.metadata.ns = some ns ∧
        job = ⟨{
          name := some (nameOf job)
          ns := some ns
          labels := some job.metadata.labelsOrEmpty }, job.spec, none⟩ := by
    obtain ⟨ns, -, hrest⟩ := bind_eq_ok.1 h
    obtain ⟨m, hm, hend⟩ := bind_eq_ok.1 hrest
    obtain rfl := pure_eq_ok.1 hend
    obtain ⟨ns', hns, rfl⟩ := namedMeta_eq_ok.1 hm
    exact ⟨ns', hns, rfl⟩
  obtain ⟨ns, hns, hjob⟩ := hbuilt h
  obtain ⟨ns', hns', hjob'⟩ := hbuilt h'
  rw [hjob, hjob', hname, hspec, hlabels, Option.some.inj (hns.symm.trans hns')]

/-- Whether backups agree shows in the jobs that are built from them. -/
theorem backupsAgree_iff (hns : server.metadata.ns = some ns)
    (hdesired : Backup.cronJobs server settings = .ok desired) :
    BackupsAgree settings server ↔
      ∀ job ∈ desired, ∀ other ∈ desired, nameOf job = nameOf other → job = other := by
  have hname {backup : Backup} {job : CronJob}
      (h : Backup.cronJob server settings backup = .ok job) : nameOf job = backup.name :=
    ((places_cronJob settings backup).placed hns h).nameOf
  constructor
  · intro hagree job hjob other hother hsame
    obtain ⟨backup, hbackup, hbuild⟩ := (mem_cronJobs_iff hdesired).1 hjob
    obtain ⟨backup', hbackup', hbuild'⟩ := (mem_cronJobs_iff hdesired).1 hother
    rw [hname hbuild, hname hbuild'] at hsame
    have hbuilds := hagree backup hbackup backup' hbackup' hsame
    rw [hbuild, hbuild'] at hbuilds
    exact Except.ok.inj hbuilds
  · intro hagree backup hbackup other hother hsame
    obtain ⟨job, hbuild⟩ := exists_cronJob settings hns backup
    obtain ⟨job', hbuild'⟩ := exists_cronJob settings hns other
    rw [hbuild, hbuild']
    refine congrArg _ (hagree job ((mem_cronJobs_iff hdesired).2 ⟨backup, hbackup, hbuild⟩) job'
      ((mem_cronJobs_iff hdesired).2 ⟨other, hother, hbuild'⟩) ?_)
    rw [hname hbuild, hname hbuild', hsame]

/-- What a step that completes has left: under each wanted name a job that is wanted there, and no
other job that carries the labels of backups. -/
structure Left (settings : Settings) (ns : String) (server : Server) (desired : List CronJob)
    (c : Cluster) : Prop where
  filed : c.Filed
  account : desired ≠ [] → ∃ account, c.get? .serviceAccount ns Backup.account = some account
  holds : ∀ job ∈ desired, HoldsOne desired ns c (nameOf job)
  wanted : ∀ live ∈ backupJobs c ns server,
    live.metadata.name ∈ desired.map (·.metadata.name)

theorem left_of_completes (h : Completes flaky P (reconcileBackups settings) st c u st' c')
    (hc : c.Filed) (hns : st.server.metadata.ns = some ns)
    (hdesired : Backup.cronJobs st.server settings = .ok desired) :
    Left settings ns st.server desired c' := by
  obtain ⟨-, -, hsame⟩ := writesOnly_reconcileBackups.completes h
  obtain ⟨desired', st₁, c₁, hdesired', haccount, hreconcile, hremove⟩ :=
    loops_reconcileBackups h hns
  obtain rfl : desired = desired' := Except.ok.inj (hdesired.symm.trans hdesired')
  have hplaced := placed_cronJobs hdesired hns
  have hprovides := (completes_reconcileBackup_forM hreconcile hc hplaced
    fun name found hfound => ⟨found, get?_of_find? hc hfound⟩).1
  have hholds := (holdsOne_of_rounds hreconcile hplaced (List.Subset.refl desired)
    fun name found hfound => .inl (get?_of_find? hc hfound)).2
  obtain ⟨rfl, -⟩ := completes_removeBackup_forM hremove
  have hfiled := hprovides.filed.removeAll (unwanted (backupJobs c ns st.server) desired)
  refine ⟨hfiled, fun hne => ?_, fun job hjob => ?_, fun live hlive => ?_⟩
  · obtain ⟨account, hget⟩ := haccount hne
    exact ⟨account, (get?_of_shelf (hsame.shelf .serviceAccount (by decide)) _ _).trans hget⟩
  · exact (hholds job hjob).of_get?
      (get?_removeAll_unwanted hc hplaced (List.mem_map_of_mem hjob))
  · obtain ⟨⟨name, hget⟩, hselects⟩ := mem_backupJobs.1 hlive
    have hwanted : name ∈ desired.map nameOf :=
      wanted_of_get? hc hplaced (fun name hname => hprovides.others ns name
        fun hplace => hname hplace.2) hget hselects
    obtain ⟨job, hjob, rfl⟩ := List.mem_map.1 hwanted
    exact List.mem_map.2 ⟨job, hjob, (hplaced job hjob).2.trans (hfiled _ _ _ _ hget).2.symm⟩

/-- A job that stands where it is wanted is found among the live ones. -/
theorem Left.exists_found (h : Left settings ns server desired c)
    (hcomma : ',' ∉ server.anyName.toList)
    (hdesired : Backup.cronJobs server settings = .ok desired) (hjob : job ∈ desired) :
    ∃ live, c.get? .cronJob ns (nameOf job) = some live ∧ live ∈ backupJobs c ns server ∧
      (backupJobs c ns server).find? (·.anyName == nameOf job) = some live ∧
      ∃ other ∈ desired, nameOf other = nameOf job ∧ agrees live other = true := by
  obtain ⟨live, hget, other, hother, hname, hagrees⟩ := h.holds job hjob
  obtain ⟨backup, hbuild⟩ := mem_cronJobs hdesired hother
  have hselects : selects (selector server Child.backup) live.metadata.labelsOrEmpty = true := by
    rw [(agrees_iff.1 hagrees).2, labels_cronJob hbuild]
    exact selects_jobLabels hcomma backup
  have hlive : live ∈ backupJobs c ns server := mem_backupJobs.2 ⟨⟨_, hget⟩, hselects⟩
  exact ⟨live, hget, hlive, find?_of_mem_backupJobs h.filed hlive (h.filed _ _ _ _ hget).2, other,
    hother, hname, hagrees⟩

/-- Where backups agree, what a step has left calls for nothing. -/
theorem Left.quiet (h : Left settings ns server desired c) (hns : server.metadata.ns = some ns)
    (hcomma : ',' ∉ server.anyName.toList)
    (hdesired : Backup.cronJobs server settings = .ok desired)
    (hagree : ∀ job ∈ desired, ∀ other ∈ desired, nameOf job = nameOf other → job = other) :
    Quiet c server (Backup.wanted server) true (reconcileBackups settings) () := by
  refine quiet_reconcileBackups_of_mem h.filed hns hdesired h.account (fun job hjob => ?_) h.wanted
  obtain ⟨live, hget, hlive, -, other, hother, hname, hagrees⟩ :=
    h.exists_found hcomma hdesired hjob
  obtain rfl := hagree other hother job hjob hname
  refine ⟨live, hlive, jobContent_eq ?_ hagrees⟩
  rw [(h.filed _ _ _ _ hget).2, (placed_cronJobs hdesired hns _ hother).2]

/-! ## Backups that do not agree -/

/-- The round of a job that is found is one call at most. -/
theorem exec_reconcileBackup (hjob : Placed ns name job)
    (hfound : existing.find? (·.anyName == name) = some live) (st : PassState) :
    (reconcileBackup existing job).exec st =
      if agrees live job then (record .cronJob name).exec st
      else .call (.update .cronJob (replacement live job)) fun
        | .ok _ => (record .cronJob name).exec st
        | .error error => .done (.error (.failed error), st) := by
  unfold reconcileBackup
  rw [exec_build_bind (ObjectMeta.requireName_eq_ok.2 hjob.2), hfound]
  dsimp only
  cases agrees live job with
  | true => rfl
  | false =>
    refine congrArg (Interaction.call _) (funext fun answer => ?_)
    cases answer <;> rfl

/-- What stands somewhere can be replaced by what was made from it. -/
theorem answer_replacement (hjob : Placed ns name job)
    (hget : c.get? .cronJob ns name = some live) :
    ∃ o c', c.answer (.update .cronJob (replacement live job)) = (.ok o, c') := by
  have hreplaced : Placed ns name (replacement live job) := hjob
  refine ⟨_, _, replace_ok.2 ⟨live, ?_, by simp [isStale, replacement], rfl, rfl⟩⟩
  rw [hreplaced.nsOf, hreplaced.nameOf, hget]

/-- The first wanted job that differs from the one that was found is put in its place. -/
theorem updates_of_rounds {r : Except Halt Unit × PassState}
    (hplaced : ∀ job ∈ desired, Placed ns (nameOf job) job)
    (hfound : ∀ job ∈ desired, ∃ live, c.get? .cronJob ns (nameOf job) = some live ∧
      existing.find? (·.anyName == nameOf job) = some live)
    (hdiffers : ∃ job ∈ desired, ∃ live, existing.find? (·.anyName == nameOf job) = some live ∧
      agrees live job = false)
    (h : Run reliable ((desired.forM (reconcileBackup existing)).exec st) c t (some r) c') :
    ∃ o o', .call (.update .cronJob o) (.ok o') ∈ t := by
  induction desired generalizing st t with
  | nil => simp at hdiffers
  | cons job rest ih =>
    obtain ⟨hjob, hplaced'⟩ := List.forall_mem_cons.1 hplaced
    obtain ⟨⟨live, hget, hlive⟩, hfound'⟩ := List.forall_mem_cons.1 hfound
    have hrounds : (job :: rest).forM (reconcileBackup existing) =
        reconcileBackup existing job >>= fun _ => rest.forM (reconcileBackup existing) := rfl
    rw [hrounds, exec_bind, exec_reconcileBackup hjob hlive] at h
    -- A round of a job that agrees makes no call, so the next one finds the cluster unchanged.
    cases hagrees : agrees live job with
    | true =>
      rw [if_pos hagrees] at h
      obtain ⟨other, hother, hdiffers'⟩ := hdiffers
      rcases List.mem_cons.1 hother with rfl | hother'
      · obtain ⟨live', hlive', hdiffers'⟩ := hdiffers'
        obtain rfl := Option.some.inj (hlive.symm.trans hlive')
        rw [hagrees] at hdiffers'
        cases hdiffers'
      · exact ih hplaced' hfound' ⟨other, hother', hdiffers'⟩ h
    | false =>
      rw [if_neg (by simp [hagrees])] at h
      obtain ⟨answer, c₁, t', hanswer, -, rfl⟩ := run_call_some.1 h
      obtain ⟨o, c₂, hgranted⟩ := answer_replacement hjob hget
      rw [reliable_iff, hgranted] at hanswer
      obtain ⟨rfl, -⟩ := Prod.mk.inj hanswer
      exact ⟨_, _, List.mem_cons_self⟩

/-- Of two different jobs that are wanted under one name, one differs from the job that stands
there. -/
theorem Left.exists_differing (h : Left settings ns server desired c)
    (hcomma : ',' ∉ server.anyName.toList)
    (hdesired : Backup.cronJobs server settings = .ok desired)
    (hdisagree : ¬∀ job ∈ desired, ∀ other ∈ desired, nameOf job = nameOf other → job = other) :
    ∃ job ∈ desired, ∃ live,
      (backupJobs c ns server).find? (·.anyName == nameOf job) = some live ∧
        agrees live job = false := by
  push Not at hdisagree
  obtain ⟨job, hjob, other, hother, hname, hne⟩ := hdisagree
  obtain ⟨live, -, -, hfound, -⟩ := h.exists_found hcomma hdesired hjob
  cases hagrees : agrees live job with
  | false => exact ⟨job, hjob, live, hfound, hagrees⟩
  | true =>
    -- What stands there can not agree with the other job as well, or the two would be the same.
    refine ⟨other, hother, live, hname ▸ hfound, Bool.eq_false_iff.2 fun hagrees' => hne ?_⟩
    obtain ⟨backup, hbuild⟩ := mem_cronJobs hdesired hjob
    obtain ⟨backup', hbuild'⟩ := mem_cronJobs hdesired hother
    exact eq_of_agrees hbuild hbuild' hname (agrees_trans (agrees_symm hagrees) hagrees')

/-- Where backups do not agree, the next step replaces a job, however it ends. -/
theorem Left.updates (h : Left settings ns st.server desired c)
    (hns : st.server.metadata.ns = some ns) (hcomma : ',' ∉ st.server.anyName.toList)
    (hdesired : Backup.cronJobs st.server settings = .ok desired)
    (hdisagree : ¬∀ job ∈ desired, ∀ other ∈ desired, nameOf job = nameOf other → job = other)
    {r : Except Halt Unit × PassState}
    (hrun : Run reliable ((reconcileBackups settings).exec st) c t (some r) c') :
    ∃ o o', .call (.update .cronJob o) (.ok o') ∈ t := by
  have hdiffers := h.exists_differing hcomma hdesired hdisagree
  obtain ⟨job, hjob, -⟩ := hdiffers
  have hne : desired ≠ [] := List.ne_nil_of_mem hjob
  obtain ⟨account, haccount⟩ := h.account hne
  rw [exec_reconcileBackups hns hdesired, if_neg (by simpa using hne)] at hrun
  obtain ⟨answer, c₁, t₁, hanswer, hsync, rfl⟩ := run_call_some.1 hrun
  obtain ⟨rfl, rfl⟩ : answer = .ok (some account) ∧ c₁ = c := by
    rw [← haccount]
    exact (Prod.mk.inj hanswer).imp Eq.symm Eq.symm
  obtain ⟨listed, c₂, t₂, hlisted, hmerge, rfl⟩ := run_call_some.1 hsync
  obtain ⟨rfl, rfl⟩ : listed = .ok (backupJobs c₁ ns st.server) ∧ c₂ = c₁ :=
    (Prod.mk.inj hlisted).imp Eq.symm Eq.symm
  have hupdates {t : Trace} {r : Except Halt Unit × PassState} {c' : Cluster}
      (hrounds : Run reliable
        ((desired.forM (reconcileBackup (backupJobs c₂ ns st.server))).exec st) c₂ t (some r) c') :
      ∃ o o', .call (.update .cronJob o) (.ok o') ∈ t := by
    refine updates_of_rounds (placed_cronJobs hdesired hns) (fun job hjob => ?_)
      (h.exists_differing hcomma hdesired hdisagree) hrounds
    obtain ⟨live, hget, -, hfound, -⟩ := h.exists_found hcomma hdesired hjob
    exact ⟨live, hget, hfound⟩
  obtain ⟨r, st'⟩ := r
  obtain ⟨halt, -, hrounds⟩ | ⟨u, st₁, c₃, t₃, t₄, hrounds, -, rfl⟩ := run_exec_bind hmerge
  · obtain ⟨o, o', hmem⟩ := hupdates hrounds
    exact ⟨o, o', List.mem_cons_of_mem _ (List.mem_cons_of_mem _ hmem)⟩
  · obtain ⟨o, o', hmem⟩ := hupdates hrounds
    exact ⟨o, o', List.mem_cons_of_mem _ (List.mem_cons_of_mem _ (List.mem_append_left _ hmem))⟩

/-! ## The main statement -/

/-- A step over a server that is in no namespace does not complete. -/
theorem exists_ns_of_completes (h : Completes flaky P (reconcileBackups settings) st c u st' c') :
    ∃ ns, st.server.metadata.ns = some ns := by
  obtain ⟨ns, hns, -⟩ := completes_build_bind.1 (completes_server_bind.1 h)
  exact ⟨ns, ObjectMeta.requireNs_eq_ok.1 hns⟩

/-- When a step has completed and nothing else happens, the next one only looks, and in one way, if
backups of one name want the same job. If some do not, every next step replaces a job. -/
theorem backups_settle_iff (settings : Settings) (hc : c.Filed)
    (hcomma : ',' ∉ st.server.anyName.toList)
    (h : Run flaky ((reconcileBackups settings).exec st) c t (some (.ok u, st')) c')
    {st₂ : PassState} (hserver : st₂.server = st.server) :
    (BackupsAgree settings st.server → ∃ t₂ st₂', (∀ e ∈ t₂, e.IsRead) ∧
      OnlyRun reliable ((reconcileBackups settings).exec st₂) c' t₂ (.ok (), st₂') c') ∧
    (¬BackupsAgree settings st.server → ∀ t₂ r c₂,
      Run reliable ((reconcileBackups settings).exec st₂) c' t₂ (some r) c₂ →
        ∃ o o', .call (.update .cronJob o) (.ok o') ∈ t₂) := by
  have hcompletes := Completes.of_run h
  obtain ⟨ns, hns⟩ := exists_ns_of_completes hcompletes
  obtain ⟨desired, hdesired, -⟩ := exists_cronJobs settings hns
  have hleft := left_of_completes hcompletes hc hns hdesired
  rw [backupsAgree_iff hns hdesired]
  constructor
  · intro hagree
    obtain ⟨t₂, hreads, honly⟩ := (hleft.quiet hns hcomma hdesired hagree st₂ hserver).onlyRun
      fun _ hread => hread
    exact ⟨t₂, _, hreads, honly⟩
  · intro hdisagree t₂ r c₂ hrun
    rw [← hserver] at hleft hns hcomma hdesired
    exact hleft.updates hns hcomma hdesired hdisagree hrun

/-! ## Two backups of one name -/

/-- A server with two backups of one name, the second with a schedule of its own, and a third
backup. -/
def twinServer (schedule : String) : Server :=
  let backup (name schedule : String) : Backup := { name, schedule, backendSecretName := "bucket" }
  { sampleServer "a" with spec := { backups := [
    backup "a-nightly" "@daily", backup "a-nightly" schedule, backup "a-weekly" "@weekly"] } }

/-- The job of the first of them stands as it is wanted. -/
def twinCluster : Cluster :=
  let jobs := (Backup.cronJobs (twinServer "@daily") {}).toOption.getD []
  (sampleCluster.store "push" "a-nightly"
    (jobs.head?.getD { metadata := {}, spec := none, status := none })).2

theorem filed_twinCluster : twinCluster.Filed := filed_sampleCluster.store rfl rfl

/-- The step over such a server. -/
def twinStep (schedule : String) : Interaction (Except Halt Unit × PassState) :=
  (reconcileBackups {}).exec { server := twinServer schedule, stored := none }

theorem run_twinStep (schedule : String)
    (hok : ((twinStep schedule).run (drawing (fun _ => false) "") twinCluster).1.1.isOk = true) :
    ∃ t st', Run reliable (twinStep schedule) twinCluster t (some (.ok (), st'))
      ((twinStep schedule).run (drawing (fun _ => false) "") twinCluster).2 := by
  unfold twinStep at hok ⊢
  obtain ⟨st', hrun⟩ :=
    @run_drawing_ok reliable (fun _ => false) _ _ _ (fun _ _ => rfl) "" hok
  exact ⟨_, st', hrun⟩

/-- Two backups that are the same agree. The first step creates the job of the other one, and the
second step only looks. -/
theorem backups_settle_iff_twinCluster : ∃ t st' c' t₂ st₂',
    Run flaky (twinStep "@daily") twinCluster t (some (.ok (), st')) c' ∧
    (∀ e ∈ t₂, e.IsRead) ∧ OnlyRun reliable (twinStep "@daily") c' t₂ (.ok (), st₂') c' ∧
    (c'.objects .cronJob "push").values.map nameOf = ["a-nightly", "a-weekly"] := by
  have hagree : BackupsAgree {} (twinServer "@daily") := by
    intro backup hbackup other hother hname
    have hsame : ∀ backup ∈ (twinServer "@daily").spec.backups,
        ∀ other ∈ (twinServer "@daily").spec.backups,
          backup.name = other.name → backup = other := by
      decide
    rw [hsame backup hbackup other hother hname]
  obtain ⟨t, st', hrun⟩ := run_twinStep "@daily" (by decide +kernel)
  have hflaky := hrun.mono flaky_of_reliable
  obtain ⟨hquiet, -⟩ := @backups_settle_iff twinCluster _
    { server := twinServer "@daily", stored := none } _ _ _ {} filed_twinCluster (by decide) hflaky
    { server := twinServer "@daily", stored := none } rfl
  obtain ⟨t₂, st₂', hreads, honly⟩ := hquiet hagree
  exact ⟨t, st', _, t₂, st₂', hflaky, hreads, honly, by decide +kernel⟩

/-- Two backups of one name with different schedules replace the job of each other: the first step
completes, and every next one replaces a job again. -/
theorem unsettled_twinCluster : ∃ t st' c',
    Run reliable (twinStep "@weekly") twinCluster t (some (.ok (), st')) c' ∧
    ∀ t₂ r c₂, Run reliable (twinStep "@weekly") c' t₂ (some r) c₂ →
      ∃ o o', .call (.update .cronJob o) (.ok o') ∈ t₂ := by
  have hns : (twinServer "@weekly").metadata.ns = some "push" := rfl
  obtain ⟨t, st', hrun⟩ := run_twinStep "@weekly" (by decide +kernel)
  obtain ⟨desired, hdesired, -⟩ := exists_cronJobs {} hns
  have hcompletes := Completes.of_run (hrun.mono flaky_of_reliable)
  have hleft := left_of_completes hcompletes filed_twinCluster hns hdesired
  refine ⟨t, st', _, hrun, fun t₂ r c₂ hnext => hleft.updates hns (by decide) hdesired ?_ hnext⟩
  rw [← backupsAgree_iff hns hdesired]
  intro hagree
  have hbuilds := hagree _ List.mem_cons_self _ (List.mem_cons_of_mem _ List.mem_cons_self) rfl
  have hschedules := congrArg (fun built => built.toOption.bind fun job =>
    job.spec.map (·.schedule)) hbuilds
  exact absurd hschedules (by decide)

end Pass

end PushOperator
