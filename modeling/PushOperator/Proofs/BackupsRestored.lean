import Mathlib.Data.List.Pairwise
import PushOperator.Proofs.BackupsSettle
import PushOperator.Proofs.OwnedChanges

/-!
# When the jobs of backups are put back

Others may change the jobs of backups. The next step finds the jobs that are there by two labels and
creates, by name, those that it does not find. So it puts everything back as long as these labels
are there, and as long as two backups share a name only where there is nothing to put back
(`jobs_restored_iff`). A job without one of the labels stays as it is, and no step completes again.
-/

namespace PushOperator

open Child Cluster Interaction

namespace Pass

variable {P : Entry → Prop} {c c' c₁ : Cluster} {ns name : String} {server : Server}
  {st st' : PassState} {settings : Settings} {existing desired jobs : List CronJob}
  {job other live found : CronJob} {t : Trace} {u : Unit}

/-! ## Jobs as they are wanted -/

/-- A job stands as it is wanted: with its spec and its labels. -/
def AsWanted (c : Cluster) (ns : String) (job : CronJob) : Prop :=
  ∃ live, c.get? .cronJob ns (nameOf job) = some live ∧ live.spec = job.spec ∧
    live.metadata.labelsOrEmpty = job.metadata.labelsOrEmpty

/-- A job carries the labels by which the jobs of the server's backups are found. -/
def Discoverable (server : Server) (live : CronJob) : Prop :=
  live.metadata.labelsOrEmpty.get? "app" = some server.anyName ∧
    live.metadata.labelsOrEmpty.get? "service" = some (childName server backup)

/-- What a step can put in order: whatever stands under a wanted name can be found, and where two
backups share a name there is nothing to do. -/
structure Restorable (ns : String) (server : Server) (desired : List CronJob) (c : Cluster) :
    Prop where
  discoverable : ∀ job ∈ desired, ∀ live, c.get? .cronJob ns (nameOf job) = some live →
    Discoverable server live
  settled : desired.Pairwise fun job other => nameOf job = nameOf other →
    AsWanted c ns job ∧ AsWanted c ns other

/-- A job was found that agrees with the wanted one. -/
def Agreed (existing : List CronJob) (job : CronJob) : Prop :=
  ∃ found, existing.find? (·.anyName == nameOf job) = some found ∧ agrees found job = true

theorem discoverable_iff (hcomma : ',' ∉ server.anyName.toList) : Discoverable server live ↔
    selects (selector server backup) live.metadata.labelsOrEmpty = true :=
  (selects_selector hcomma (by decide)).symm

/-- Wanted jobs of one name that both stand as they are wanted agree. -/
theorem AsWanted.agrees (hjob : AsWanted c ns job) (hother : AsWanted c ns other)
    (hname : nameOf job = nameOf other) : agrees job other = true := by
  obtain ⟨live, hget, hspec, hlabels⟩ := hjob
  obtain ⟨live', hget', hspec', hlabels'⟩ := hother
  obtain rfl : live = live' := Option.some.inj (hget.symm.trans (hname ▸ hget'))
  exact agrees_iff.2 ⟨hspec.symm.trans hspec', hlabels.symm.trans hlabels'⟩

/-- A job that was found agrees with what agrees with the wanted one. -/
theorem Agreed.trans (h : Agreed existing job) (hname : nameOf job = nameOf other)
    (hagrees : agrees job other = true) : Agreed existing other := by
  obtain ⟨found, hfound, hagrees'⟩ := h
  exact ⟨found, hname ▸ hfound, agrees_trans hagrees' hagrees⟩

section

variable (hc : c.Filed) (hcomma : ',' ∉ server.anyName.toList)
include hc hcomma

/-- What stands under a name is found there if it can be found. -/
theorem find?_eq_get? (h : ∀ live, c.get? .cronJob ns name = some live → Discoverable server live) :
    (backupJobs c ns server).find? (·.anyName == name) = c.get? .cronJob ns name := by
  cases hget : c.get? .cronJob ns name with
  | some live =>
    have hlive : live ∈ backupJobs c ns server :=
      mem_backupJobs.2 ⟨⟨name, hget⟩, (discoverable_iff hcomma).1 (h live hget)⟩
    exact find?_of_mem_backupJobs hc hlive (hc _ _ _ _ hget).2
  | none =>
    rw [Option.eq_none_iff_forall_ne_some]
    intro found hfound
    rw [get?_of_find? hc hfound] at hget
    cases hget

/-- What can not be found is not. -/
theorem find?_eq_none (hget : c.get? .cronJob ns name = some live)
    (hhidden : ¬Discoverable server live) :
    (backupJobs c ns server).find? (·.anyName == name) = none := by
  rw [Option.eq_none_iff_forall_ne_some]
  intro found hfound
  obtain rfl := Option.some.inj ((get?_of_find? hc hfound).symm.trans hget)
  have hselects := (mem_backupJobs.1 (List.mem_of_find?_eq_some hfound)).2
  exact hhidden ((discoverable_iff hcomma).2 hselects)

/-- A wanted job stands as it is wanted if it is found like that. -/
theorem agreed_iff (hdesired : Backup.cronJobs server settings = .ok desired)
    (hjob : job ∈ desired) : Agreed (backupJobs c ns server) job ↔ AsWanted c ns job := by
  constructor
  · rintro ⟨found, hfound, hagrees⟩
    obtain ⟨hspec, hlabels⟩ := agrees_iff.1 hagrees
    exact ⟨found, get?_of_find? hc hfound, hspec, hlabels⟩
  · rintro ⟨live, hget, hspec, hlabels⟩
    obtain ⟨backup, hbuild⟩ := mem_cronJobs hdesired hjob
    refine ⟨live, ?_, agrees_iff.2 ⟨hspec, hlabels⟩⟩
    rw [find?_eq_get? hc hcomma, hget]
    intro live' hget'
    obtain rfl := Option.some.inj (hget.symm.trans hget')
    rw [discoverable_iff hcomma, hlabels, labels_cronJob hbuild]
    exact selects_jobLabels hcomma backup

end

/-! ## Rounds that can be made -/

/-- An entry that is no secret. -/
def IsOpen (e : Entry) : Prop := ∀ text, e ≠ .secret text

theorem isOpen_call {r : Request} {a : Except Error r.Reply} : IsOpen (.call r a) :=
  fun _ h => nomatch h

theorem isOpen_event {event : Event} : IsOpen (.event server event) := fun _ h => nomatch h

/-- A child is created in its place when that is free. -/
theorem completes_createOwned_of_free (hjob : Placed ns name job) {reference : OwnerReference}
    (howner : ownerReference server = .ok reference) (hfree : c.get? .cronJob ns name = none) :
    Task.Completes reliable IsOpen (Task.createOwned server job) c
      (stamped (c.revision + 1) (job.withOwner reference))
      (c.store ns name (job.withOwner reference)).2 := by
  have hplaced : Placed ns name (job.withOwner reference) := hjob
  have hcreate : c.answer (.create .cronJob (job.withOwner reference)) =
      (.ok (stamped (c.revision + 1) (job.withOwner reference)),
        (c.store ns name (job.withOwner reference)).2) := by
    rw [answer_create, hplaced.nsOf, hplaced.nameOf]
    exact ⟨hfree, rfl, rfl⟩
  refine Task.completes_bind.2 ⟨reference, c, Task.completes_ofExcept.2 ⟨howner, rfl⟩, ?_⟩
  refine Task.completes_bind.2 ⟨_, _, Task.completes_call.2 ⟨isOpen_call, hcreate⟩, ?_⟩
  refine Task.completes_bind.2 ⟨(), _, Task.completes_requirePlace.2 ?_,
    Task.completes_pure.2 ⟨rfl, rfl⟩⟩
  exact ⟨⟨ns, hjob.1⟩, ⟨name, hjob.2⟩, rfl⟩

/-- A job that agrees, or that is found as it stands, or not at all while its place is free, can be
put in order. -/
theorem exists_round (hjob : Placed ns name job)
    (howner : ∃ reference, ownerReference st.server = .ok reference)
    (hready : Agreed existing job ∨
      existing.find? (·.anyName == name) = c.get? .cronJob ns name) :
    ∃ st' c', Completes reliable IsOpen (reconcileBackup existing job) st c () st' c' := by
  have hrecord (c' : Cluster) : Completes reliable IsOpen (record .cronJob name) st c' ()
      (st.saw [(.cronJob, name)] true) c' :=
    completes_record.2 ⟨rfl, rfl⟩
  cases hfound : existing.find? (·.anyName == name) with
  | some found =>
    unfold Completes
    rw [exec_reconcileBackup hjob hfound]
    cases hagrees : agrees found job with
    | true => exact ⟨_, c, hrecord c⟩
    | false =>
      have hget : c.get? .cronJob ns name = some found := by
        rcases hready with ⟨found', hfound', hagrees'⟩ | hready
        · rw [hjob.nameOf, hfound] at hfound'
          obtain rfl := Option.some.inj hfound'
          rw [hagrees] at hagrees'
          cases hagrees'
        · rw [← hready, hfound]
      obtain ⟨o, c', hgranted⟩ := answer_replacement hjob hget
      exact ⟨_, _, yields_call.2 ⟨.ok o, c', isOpen_call, hgranted, hrecord c'⟩⟩
  | none =>
    have hfree : c.get? .cronJob ns name = none := by
      rcases hready with ⟨found, hfound', -⟩ | hready
      · rw [hjob.nameOf, hfound] at hfound'
        cases hfound'
      · rw [← hready, hfound]
    obtain ⟨reference, howner⟩ := howner
    unfold Completes reconcileBackup
    rw [exec_build_bind (ObjectMeta.requireName_eq_ok.2 hjob.2), hfound]
    have hreported : Completes reliable IsOpen (do
        report .childCreated ("Created CronJob " ++ name)
        record .cronJob name) st (c.store ns name (job.withOwner reference)).2 ()
        (st.saw [(.cronJob, name)] true) (c.store ns name (job.withOwner reference)).2 :=
      completes_bind.2 ⟨(), _, _, completes_report.2 ⟨isOpen_event, rfl, rfl⟩, hrecord _⟩
    exact ⟨_, _, completes_server_bind.2 (completes_liftM_bind.2
      ⟨_, _, completes_createOwned_of_free hjob howner hfree, hreported⟩)⟩

/-- Rounds of jobs that can be put in order one by one can be made one after the other, if those of
one name have nothing to do. -/
theorem exists_rounds (hplaced : ∀ job ∈ desired, Placed ns (nameOf job) job)
    (howner : ∃ reference, ownerReference st.server = .ok reference)
    (hready : ∀ job ∈ desired, Agreed existing job ∨
      existing.find? (·.anyName == nameOf job) = c.get? .cronJob ns (nameOf job))
    (hpairs : desired.Pairwise fun job other => nameOf job = nameOf other →
      Agreed existing job ∧ Agreed existing other) :
    ∃ st' c',
      Completes reliable IsOpen (desired.forM (reconcileBackup existing)) st c () st' c' := by
  induction desired generalizing st c with
  | nil => exact ⟨st, c, completes_pure.2 ⟨rfl, rfl, rfl⟩⟩
  | cons job rest ih =>
    obtain ⟨hjob, hplaced'⟩ := List.forall_mem_cons.1 hplaced
    obtain ⟨hfirst, hready'⟩ := List.forall_mem_cons.1 hready
    obtain ⟨hpair, hpairs'⟩ := List.pairwise_cons.1 hpairs
    obtain ⟨st₁, c₁, hround⟩ := exists_round hjob howner hfirst
    obtain ⟨rfl, hround'⟩ := round_of_completes (hround.mono flaky_of_reliable) hjob
    -- Of the rounds to come, those of this name have nothing to do, and the others find their
    -- places as they were.
    obtain ⟨st', c', hrest⟩ := @ih c₁ (st.saw [(.cronJob, nameOf job)] true) hplaced' howner
      (fun other hother => by
        by_cases hname : nameOf job = nameOf other
        · exact .inl (hpair other hother hname).2
        · rw [hround'.others fun hplace => hname hplace.2.symm]
          exact hready' other hother) hpairs'
    exact ⟨st', c', completes_bind.2 ⟨(), _, c₁, hround, hrest⟩⟩

/-- Jobs that stand in different places can be deleted one after the other. -/
theorem exists_removals
    (hthere : ∀ gone ∈ unwanted existing desired,
      nsOf gone = ns ∧ ∃ live, c.get? .cronJob ns (nameOf gone) = some live)
    (hnames : (existing.map nameOf).Nodup) :
    ∃ st' c', Completes reliable IsOpen (existing.forM (removeBackup desired)) st c () st' c' := by
  induction existing generalizing st c with
  | nil => exact ⟨st, c, completes_pure.2 ⟨rfl, rfl, rfl⟩⟩
  | cons found rest ih =>
    obtain ⟨hfresh, hnames'⟩ := List.nodup_cons.1 hnames
    unfold unwanted at hthere ih
    rw [List.filter_cons] at hthere
    cases hwanted : desired.any (·.metadata.name == some found.anyName) with
    | true =>
      rw [if_neg (by simp [hwanted])] at hthere
      obtain ⟨st', c', hrest⟩ := @ih c st hthere hnames'
      refine ⟨st', c', completes_bind.2 ⟨(), st, c, ?_, hrest⟩⟩
      unfold removeBackup
      rw [if_pos hwanted]
      exact completes_pure.2 ⟨rfl, rfl, rfl⟩
    | false =>
      rw [if_pos (by simp [hwanted])] at hthere
      obtain ⟨⟨hns, hlive⟩, hthere'⟩ := List.forall_mem_cons.1 hthere
      have hgranted : c.answer (.delete .cronJob found) =
          (.ok (), c.remove .cronJob ns (nameOf found)) := by
        rw [answer_delete, hns]
        exact ⟨hlive, rfl⟩
      have hstill (gone : CronJob) (hgone : gone ∈ rest.filter fun found =>
          !desired.any (·.metadata.name == some found.anyName)) :
          nsOf gone = ns ∧ ∃ live,
            (c.remove .cronJob ns (nameOf found)).get? .cronJob ns (nameOf gone) = some live := by
        have hne : nameOf gone ≠ nameOf found := fun hname =>
          hfresh (hname ▸ List.mem_map_of_mem (List.mem_of_mem_filter hgone))
        rw [get?_remove, if_neg fun hplace => hne hplace.2]
        exact hthere' gone hgone
      obtain ⟨st', c', hrest⟩ := @ih (c.remove .cronJob ns (nameOf found))
        { st with children := st.children.remove Kind.cronJob.name found.anyName } hstill hnames'
      refine ⟨st', c', completes_bind.2 ⟨(), _, _, ?_, hrest⟩⟩
      unfold removeBackup
      rw [if_neg (by simp [hwanted])]
      refine completes_liftM_bind.2 ⟨(), _, Task.completes_call.2 ⟨isOpen_call, hgranted⟩, ?_⟩
      exact completes_bind.2 ⟨(), _, _, completes_modify.2 ⟨rfl, rfl⟩,
        completes_report.2 ⟨isOpen_event, rfl, rfl⟩⟩

/-- Where wanted jobs of one name agree, each of them stands as it is wanted once a step has
completed. -/
theorem Left.asWanted (h : Left settings ns server desired c)
    (hagree : desired.Pairwise fun job other =>
      nameOf job = nameOf other → agrees job other = true) :
    ∀ job ∈ desired, AsWanted c ns job := by
  intro job hjob
  obtain ⟨live, hget, other, hother, hname, hlive⟩ := h.holds job hjob
  have hall : ∀ job ∈ desired, ∀ other ∈ desired, nameOf job = nameOf other →
      agrees job other = true :=
    hagree.forall_of_forall_of_flip (fun _ _ _ => agrees_iff.2 ⟨rfl, rfl⟩)
      (hagree.imp fun hpair hname => agrees_symm (hpair hname.symm))
  obtain ⟨hspec, hlabels⟩ := agrees_iff.1 (agrees_trans hlive (hall other hother job hjob hname))
  exact ⟨live, hget, hspec, hlabels⟩

section

variable (hc : c.Filed) (hns : st.server.metadata.ns = some ns)
  (hcomma : ',' ∉ st.server.anyName.toList)
  (hdesired : Backup.cronJobs st.server settings = .ok desired)
include hc hns hcomma hdesired

/-- Where everything can be put in order, a step does so. -/
theorem completes_of_restorable (h : Restorable ns st.server desired c)
    (howner : ∃ reference, ownerReference st.server = .ok reference) {account : ServiceAccount}
    (haccount : c.get? .serviceAccount ns Backup.account = some account) :
    ∃ st' c', Completes reliable IsOpen (reconcileBackups settings) st c () st' c' ∧
      ∀ job ∈ desired, AsWanted c' ns job := by
  have hplaced := placed_cronJobs hdesired hns
  obtain ⟨st₁, c₁, hrounds⟩ : ∃ st₁ c₁, Completes reliable IsOpen
      (desired.forM (reconcileBackup (backupJobs c ns st.server))) st c () st₁ c₁ := by
    refine exists_rounds hplaced howner
      (fun job hjob => .inr (find?_eq_get? hc hcomma (h.discoverable job hjob)))
      (h.settled.imp_of_mem fun hjob hother hpair hname => ?_)
    rw [agreed_iff hc hcomma hdesired hjob, agreed_iff hc hcomma hdesired hother]
    exact hpair hname
  have hprovides := (completes_reconcileBackup_forM (hrounds.mono flaky_of_reliable) hc hplaced
    fun name found hfound => ⟨found, get?_of_find? hc hfound⟩).1
  -- The rounds only touch wanted names, so what is to be deleted after them is still there.
  have hthere (gone : CronJob) (hgone : gone ∈ unwanted (backupJobs c ns st.server) desired) :
      nsOf gone = ns ∧ ∃ live, c₁.get? .cronJob ns (nameOf gone) = some live := by
    obtain ⟨hmem, hnsOf, hunwanted⟩ := (mem_unwanted hc hplaced).1 hgone
    obtain ⟨⟨name, hget⟩, -⟩ := mem_backupJobs.1 hmem
    rw [hprovides.others ns (nameOf gone) fun hplace => hunwanted hplace.2, hc.nameOf hget]
    exact ⟨hnsOf, gone, hget⟩
  obtain ⟨st', c', hremovals⟩ := @exists_removals c₁ ns st₁ _ _ hthere (nodup_nameOf_backupJobs hc)
  have hsync : Completes reliable IsOpen (syncJobs ns st.server desired) st c () st' c' :=
    completes_liftM_bind.2 ⟨_, c, Task.completes_call.2 ⟨isOpen_call, answer_list.2 ⟨rfl, rfl⟩⟩,
      completes_bind.2 ⟨(), st₁, c₁, hrounds, hremovals⟩⟩
  have hstep : Completes reliable IsOpen (reconcileBackups settings) st c () st' c' := by
    unfold Completes
    rw [exec_reconcileBackups hns hdesired]
    split
    · exact hsync
    · exact yields_call.2
        ⟨.ok (some account), c, isOpen_call, answer_get.2 ⟨haccount.symm, rfl⟩, hsync⟩
  have hleft := left_of_completes (hstep.mono flaky_of_reliable) hc hns hdesired
  exact ⟨st', c', hstep, hleft.asWanted (h.settled.imp fun hpair hname =>
    (hpair hname).1.agrees (hpair hname).2 hname)⟩

end

/-! ## Rounds that were made -/

/-- What stands under a name can not be replaced: nothing was found there, or another version. -/
def Barred (existing : List CronJob) (ns name : String) (c : Cluster) : Prop :=
  ∃ live, c.get? .cronJob ns name = some live ∧
    ∀ found, existing.find? (·.anyName == name) = some found → isStale found live = true

/-- Where nothing can be replaced, only what agrees has its round. -/
theorem Round.of_barred (h : Round existing ns (nameOf job) job c c')
    (hbarred : Barred existing ns (nameOf job) c) : c' = c ∧ Agreed existing job := by
  obtain ⟨live, hget, hstale⟩ := hbarred
  cases h with
  | agreed hfound hagrees => exact ⟨rfl, _, hfound, hagrees⟩
  | replaced hfound _ hstored hfresh =>
    obtain rfl := Option.some.inj (hget.symm.trans hstored)
    rw [hstale _ hfound] at hfresh
    cases hfresh
  | created _ _ hfree =>
    rw [hget] at hfree
    cases hfree

theorem agreed_of_rounds
    (h : Completes flaky P (desired.forM (reconcileBackup existing)) st c u st' c')
    (hplaced : ∀ job ∈ desired, Placed ns (nameOf job) job) (hbarred : Barred existing ns name c) :
    ∀ job ∈ desired, nameOf job = name → Agreed existing job := by
  induction desired generalizing st c with
  | nil => simp
  | cons job rest ih =>
    obtain ⟨_, st₁, c₁, hround, hrest⟩ := completes_bind.1 h
    obtain ⟨hjob, hplaced'⟩ := List.forall_mem_cons.1 hplaced
    obtain ⟨-, hround'⟩ := round_of_completes hround hjob
    by_cases hname : nameOf job = name
    · obtain ⟨rfl, hagreed⟩ := hround'.of_barred (hname ▸ hbarred)
      exact List.forall_mem_cons.2 ⟨fun _ => hagreed, ih hrest hplaced' hbarred⟩
    · obtain ⟨live, hget, hstale⟩ := hbarred
      have hkept : c₁.get? .cronJob ns name = some live := by
        rw [hround'.others fun hplace => hname hplace.2.symm, hget]
      exact List.forall_mem_cons.2
        ⟨fun h => absurd h hname, ih hrest hplaced' ⟨live, hkept, hstale⟩⟩

/-- The versions of the jobs that were found have been given. -/
def Given (existing : List CronJob) (c : Cluster) : Prop :=
  ∀ found ∈ existing, ∃ n ≤ c.revision, found.metadata.resourceVersion = some (toString n)

/-- A version that was given before is not the one of what is stored now. -/
theorem isStale_of_given {o : CronJob} (hgiven : Given existing c) (hfound : found ∈ existing) :
    isStale found (stamped (c.revision + 1) o) = true := by
  obtain ⟨n, hle, hversion⟩ := hgiven found hfound
  have hne := ne_version_succ hle hversion
  rw [isStale, hversion, Option.isSome_some, Bool.true_and]
  exact decide_eq_true (hversion ▸ hne)

theorem Round.given (h : Round existing ns name job c c') (hgiven : Given existing c) :
    Given existing c' := by
  have hlater {c₁ : Cluster} (hle : c.revision ≤ c₁.revision) : Given existing c₁ :=
    fun found hfound => (hgiven found hfound).imp fun _ hversion =>
      ⟨Nat.le_trans hversion.1 hle, hversion.2⟩
  cases h with
  | agreed => exact hgiven
  | replaced | created => exact hlater (Nat.le_succ _)

/-- After its round a job agreed before, or no other round of its name can replace it. -/
theorem Round.agreed_or_barred (h : Round existing ns (nameOf job) job c c')
    (hgiven : Given existing c) : Agreed existing job ∨ Barred existing ns (nameOf job) c' := by
  cases h with
  | agreed hfound hagrees => exact .inl ⟨_, hfound, hagrees⟩
  | replaced | created =>
    exact .inr ⟨_, get?_store_self c ns _ _, fun _ hfound =>
      isStale_of_given hgiven (List.mem_of_find?_eq_some hfound)⟩

/-- If rounds were made and each job stands as it is wanted in the end, those of one name had
nothing to do. -/
theorem pairwise_of_rounds {c₂ : Cluster}
    (h : Completes flaky P (desired.forM (reconcileBackup existing)) st c u st' c')
    (hplaced : ∀ job ∈ desired, Placed ns (nameOf job) job) (hgiven : Given existing c)
    (hwanted : ∀ job ∈ desired, AsWanted c₂ ns job) :
    desired.Pairwise fun job other => nameOf job = nameOf other →
      Agreed existing job ∧ Agreed existing other := by
  induction desired generalizing st c with
  | nil => exact .nil
  | cons job rest ih =>
    obtain ⟨_, st₁, c₁, hround, hrest⟩ := completes_bind.1 h
    obtain ⟨hjob, hplaced'⟩ := List.forall_mem_cons.1 hplaced
    obtain ⟨hfirst, hwanted'⟩ := List.forall_mem_cons.1 hwanted
    obtain ⟨-, hround'⟩ := round_of_completes hround hjob
    refine List.pairwise_cons.2 ⟨fun other hother hname => ?_,
      ih hrest hplaced' (hround'.given hgiven) hwanted'⟩
    have hagrees := hfirst.agrees (hwanted' other hother) hname
    -- The two end up alike, so it is enough that one of them agreed with what was found.
    rcases hround'.agreed_or_barred hgiven with hagreed | hbarred
    · exact ⟨hagreed, hagreed.trans hname hagrees⟩
    · have hagreed := agreed_of_rounds hrest hplaced' hbarred other hother hname.symm
      exact ⟨hagreed.trans hname.symm (agrees_symm hagrees), hagreed⟩

section

variable (hc : c.Filed) (hns : st.server.metadata.ns = some ns)
  (hcomma : ',' ∉ st.server.anyName.toList)
  (hdesired : Backup.cronJobs st.server settings = .ok desired)
include hc hns hcomma hdesired

/-- When a step completes, what stood under a wanted name could be found. -/
theorem discoverable_of_completes
    (h : Completes flaky P (reconcileBackups settings) st c u st' c') (hjob : job ∈ desired)
    (hget : c.get? .cronJob ns (nameOf job) = some live) : Discoverable st.server live := by
  by_contra hhidden
  obtain ⟨desired', st₁, c₁, hdesired', -, hrounds, -⟩ := loops_reconcileBackups h hns
  obtain rfl : desired = desired' := Except.ok.inj (hdesired.symm.trans hdesired')
  -- Its round would have to create the job in a place that is not free.
  have hmissing := find?_eq_none hc hcomma hget hhidden
  have hbarred : Barred (backupJobs c ns st.server) ns (nameOf job) c := by
    refine ⟨live, hget, fun found hfound => ?_⟩
    rw [hmissing] at hfound
    cases hfound
  obtain ⟨found, hfound, -⟩ :=
    agreed_of_rounds hrounds (placed_cronJobs hdesired hns) hbarred job hjob rfl
  rw [hmissing] at hfound
  cases hfound

theorem restorable_of_completes (hstamped : c.Stamped)
    (h : Completes flaky P (reconcileBackups settings) st c u st' c')
    (hwanted : ∀ job ∈ desired, AsWanted c' ns job) : Restorable ns st.server desired c := by
  refine ⟨fun job hjob live hget =>
    discoverable_of_completes hc hns hcomma hdesired h hjob hget, ?_⟩
  obtain ⟨desired', st₁, c₁, hdesired', -, hrounds, -⟩ := loops_reconcileBackups h hns
  obtain rfl : desired = desired' := Except.ok.inj (hdesired.symm.trans hdesired')
  have hgiven : Given (backupJobs c ns st.server) c := by
    intro found hfound
    obtain ⟨⟨name, hget⟩, -⟩ := mem_backupJobs.1 hfound
    exact hstamped.version _ _ _ _ hget
  refine (pairwise_of_rounds hrounds (placed_cronJobs hdesired hns) hgiven hwanted).imp_of_mem
    fun hjob hother hpair hname => ?_
  rw [← agreed_iff hc hcomma hdesired hjob, ← agreed_iff hc hcomma hdesired hother]
  exact hpair hname

end

/-! ## Jobs that can not be found -/

/-- A replacement leaves objects of other names alone. -/
theorem get?_replace_of_ne {k : Kind} {o : Object k} {merged : Object k → Object k}
    (h : nameOf o ≠ name) : (c.replace o merged).2.get? k ns name = c.get? k ns name := by
  unfold Cluster.replace
  split
  · rfl
  · split
    · rfl
    · rw [get?_store, if_neg fun hplace => h hplace.2.symm]

/-- What merges the jobs leaves a job alone that stands under a wanted name and was not found. -/
theorem honors_mergeDuties (hmissing : existing.find? (·.anyName == name) = none)
    (hkept : ∀ gone ∈ unwanted existing desired, nameOf gone ≠ name) :
    Interaction.Honors flaky (mergeDuties existing desired).contract
      fun c => c.get? .cronJob ns name = some live := by
  intro r c a c' hget hasks hanswer
  refine ⟨trivial, ?_⟩
  rcases flaky_cases hanswer with rfl | rfl
  · exact hget
  · cases hasks with
    | create reference => exact keeps_of_create c _ .cronJob ns name live hget
    | @update found job _ hfound =>
      have hne : nameOf (replacement found job) ≠ name := by
        intro hname
        rw [show nameOf job = name from hname, hmissing] at hfound
        cases hfound
      exact (get?_replace_of_ne hne).trans hget
    | @delete gone hgone =>
      unfold answer
      dsimp only
      split
      · exact hget
      · rw [get?_remove, if_neg fun hplace => hkept gone hgone hplace.2.symm]
        exact hget

section

variable (hc : c.Filed) (hns : st.server.metadata.ns = some ns)
  (hcomma : ',' ∉ st.server.anyName.toList)
  (hdesired : Backup.cronJobs st.server settings = .ok desired)
include hc hns hcomma hdesired

/-- A job that can not be found, under a wanted name, is not touched, and the step does not
complete. -/
theorem hidden_of_run {o : Option (Except Halt Unit × PassState)} (hjob : job ∈ desired)
    (hget : c.get? .cronJob ns (nameOf job) = some live) (hhidden : ¬Discoverable st.server live)
    (h : Run flaky ((reconcileBackups settings).exec st) c t o c') :
    (∀ st', o ≠ some (.ok (), st')) ∧ c'.get? .cronJob ns (nameOf job) = some live := by
  constructor
  · rintro st' rfl
    exact hhidden (discoverable_of_completes hc hns hcomma hdesired (.of_run h) hjob hget)
  · rcases run_reconcileBackups h hns hdesired with ⟨rfl, -⟩ | ⟨_, t', -, -, hmerge⟩
    · exact hget
    · have hobeys : Obeys (mergeDuties (backupJobs c ns st.server) desired) _
          (mergeJobs (backupJobs c ns st.server) desired) := obeys_mergeJobs
      have hkept (gone : CronJob) (hgone : gone ∈ unwanted (backupJobs c ns st.server) desired) :
          nameOf gone ≠ nameOf job := fun hname =>
        ((mem_unwanted hc (placed_cronJobs hdesired hns)).1 hgone).2.2
          (hname ▸ List.mem_map_of_mem hjob)
      exact ((hobeys st trivial).run
        (honors_mergeDuties (find?_eq_none hc hcomma hget hhidden) hkept) hget hmerge).1

end

/-! ## Edits of single jobs -/

/-- After a step for backups of different names, somebody writes anything over one of the jobs: it
can be put back as long as it can be found. -/
theorem Left.restorable_store_iff (h : Left settings ns server desired c)
    (hcomma : ',' ∉ server.anyName.toList)
    (hdesired : Backup.cronJobs server settings = .ok desired)
    (hnames : (desired.map nameOf).Nodup) (hjob : job ∈ desired) (edited : CronJob) :
    Restorable ns server desired (c.store ns (nameOf job) edited).2 ↔
      Discoverable server edited := by
  constructor
  · intro hrestorable
    have hstored := get?_store_self c ns (nameOf job) edited
    have hfound := hrestorable.discoverable job hjob _ hstored
    exact hfound
  · intro hedited
    refine ⟨fun other hother live hget => ?_, ?_⟩
    · rw [get?_store] at hget
      split at hget
      · obtain rfl := Option.some.inj hget
        exact hedited
      · obtain ⟨found, hfound, hmem, -⟩ := h.exists_found hcomma hdesired hother
        obtain rfl := Option.some.inj (hfound.symm.trans hget)
        exact (discoverable_iff hcomma).2 (mem_backupJobs.1 hmem).2
    · exact (List.pairwise_map.1 hnames).imp fun hne hname => absurd hname hne

/-! ## The main statement -/

/-- Where the account is there and all is in order with the server, a step in a cluster that refuses
nothing completes, in one way only, and leaves every job as it is wanted, if and only if every job
that stands under a wanted name carries the two labels by which it is found, and the backups that
share a name have nothing to do. A job without one of these labels is not put back: whatever else
happens, it stays as it is, and the step does not complete. -/
theorem jobs_restored_iff (settings : Settings) (hc : c.Filed) (hstamped : c.Stamped)
    (hns : st.server.metadata.ns = some ns) (hcomma : ',' ∉ st.server.anyName.toList)
    (howner : ∃ reference, ownerReference st.server = .ok reference) {account : ServiceAccount}
    (haccount : c.get? .serviceAccount ns Backup.account = some account) :
    ∃ desired, List.Forall₂ (fun backup job => Backup.cronJob st.server settings backup = .ok job)
        st.server.spec.backups desired ∧
      ((∃ t st' c', OnlyRun reliable ((reconcileBackups settings).exec st) c t (.ok (), st') c' ∧
        ∀ job ∈ desired, AsWanted c' ns job) ↔ Restorable ns st.server desired c) ∧
      ∀ job ∈ desired, ∀ live, c.get? .cronJob ns (nameOf job) = some live →
        ¬Discoverable st.server live →
          ∀ t o c', Run flaky ((reconcileBackups settings).exec st) c t o c' →
            (∀ st', o ≠ some (.ok (), st')) ∧ c'.get? .cronJob ns (nameOf job) = some live := by
  obtain ⟨desired, hdesired, -⟩ := exists_cronJobs settings hns
  refine ⟨desired, forall₂_of_mapM hdesired, ⟨?_, fun hrestorable => ?_⟩,
    fun job hjob live hget hhidden t o c' hrun =>
      hidden_of_run hc hns hcomma hdesired hjob hget hhidden hrun⟩
  · rintro ⟨t, st', c', ⟨hrun, -⟩, hwanted⟩
    have hcompletes := Completes.of_run (hrun.mono flaky_of_reliable)
    exact restorable_of_completes hc hns hcomma hdesired hstamped hcompletes hwanted
  · obtain ⟨st', c', hstep, hwanted⟩ :=
      completes_of_restorable hc hns hcomma hdesired hrestorable howner haccount
    obtain ⟨t, -, honly⟩ := hstep.onlyRun fun text hopen => hopen text rfl
    exact ⟨t, st', c', honly, hwanted⟩

/-! ## A job that somebody edits -/

/-- What every run leaves true of a cluster whose objects have versions. -/
theorem stamped_of_run {α : Type} {x : Interaction α} {o : Option α} (hc : c.Stamped)
    (h : Run flaky x c t o c') : c'.Stamped := by
  induction h with
  | done | cut => exact hc
  | step hstep _ ih =>
    cases hstep with
    | call hanswer => exact ih ((becomes_of_flaky hc.keyed hanswer).stamped hc)
    | emit | secret => exact ih hc

/-- The step over a server with one backup. -/
def nightlyStep : Interaction (Except Halt Unit × PassState) :=
  (reconcileBackups {}).exec { server := sampleServer "a", stored := none }

/-- The cluster after the first step. -/
def createdCluster : Cluster := (nightlyStep.run (drawing (fun _ => false) "") sampleCluster).2

/-- The job that it has created. -/
def createdJob : CronJob :=
  (createdCluster.get? .cronJob "push" "a-nightly").getD
    { metadata := {}, spec := none, status := none }

/-- Somebody else has taken its spec away and given it other labels. -/
def editedCluster (labels : List (String × String)) : Cluster :=
  (createdCluster.store "push" "a-nightly" { createdJob with
    metadata := { createdJob.metadata with labels := some (Dict.ofList labels) }
    spec := none }).2

theorem run_nightlyStep : ∃ t st',
    Run reliable nightlyStep sampleCluster t (some (.ok (), st')) createdCluster := by
  have hok : (nightlyStep.run (drawing (fun _ => false) "") sampleCluster).1.1.isOk = true := by
    decide +kernel
  unfold createdCluster
  unfold nightlyStep at hok ⊢
  obtain ⟨st', hrun⟩ :=
    @run_drawing_ok reliable (fun _ => false) _ _ _ (fun _ _ => rfl) "" hok
  exact ⟨_, st', hrun⟩

/-- The job as it is wanted. -/
def nightlyJob : CronJob :=
  ((Backup.cronJobs (sampleServer "a") {}).toOption.getD []).headD
    { metadata := {}, spec := none, status := none }

theorem cronJobs_nightly : Backup.cronJobs (sampleServer "a") {} = .ok [nightlyJob] := rfl

theorem left_createdCluster : Left {} "push" (sampleServer "a") [nightlyJob] createdCluster := by
  obtain ⟨t, st', hrun⟩ := run_nightlyStep
  have hcompletes := Completes.of_run (hrun.mono flaky_of_reliable)
  exact left_of_completes hcompletes filed_sampleCluster rfl cronJobs_nightly

theorem get?_createdCluster :
    createdCluster.get? .cronJob "push" "a-nightly" = some createdJob := by
  have hthere : (createdCluster.get? .cronJob "push" "a-nightly").isSome = true := by
    decide +kernel
  obtain ⟨live, hlive⟩ := Option.isSome_iff_exists.1 hthere
  rw [createdJob, hlive, Option.getD_some]

variable (labels : List (String × String))

theorem filed_editedCluster : (editedCluster labels).Filed := by
  obtain ⟨hns, hname⟩ := left_createdCluster.filed _ _ _ _ get?_createdCluster
  exact left_createdCluster.filed.store hns hname

theorem stamped_editedCluster : (editedCluster labels).Stamped := by
  obtain ⟨t, st', hrun⟩ := run_nightlyStep
  obtain ⟨hns, -⟩ := left_createdCluster.filed _ _ _ _ get?_createdCluster
  have hname := left_createdCluster.filed.nameOf get?_createdCluster
  have hbecomes : Becomes createdCluster (editedCluster labels) := becomes_store hns hname
  exact hbecomes.stamped (stamped_of_run stamped_sampleCluster (hrun.mono flaky_of_reliable))

theorem get?_editedCluster : (editedCluster labels).get? .cronJob "push" "a-nightly" =
    some (stamped (createdCluster.revision + 1) { createdJob with
      metadata := { createdJob.metadata with labels := some (Dict.ofList labels) }
      spec := none }) :=
  get?_store_self createdCluster "push" "a-nightly" _

theorem account_editedCluster : ∃ account,
    (editedCluster labels).get? .serviceAccount "push" Backup.account = some account := by
  rw [editedCluster, get?_of_shelf (shelf_store_of_ne _ _ _ _ (by decide)),
    ← Option.isSome_iff_exists]
  decide +kernel

/-- A job that has lost its spec and got another label is put back by the next step. -/
theorem jobs_restored_iff_editedCluster : ∃ t st' t₂ st₂' c₂,
    Run reliable nightlyStep sampleCluster t (some (.ok (), st')) createdCluster ∧
    OnlyRun reliable nightlyStep
      (editedCluster [("app", "a"), ("service", "a-backup"), ("team", "mobile")])
      t₂ (.ok (), st₂') c₂ ∧ AsWanted c₂ "push" nightlyJob := by
  obtain ⟨t, st', hrun⟩ := run_nightlyStep
  obtain ⟨account, haccount⟩ := account_editedCluster
    [("app", "a"), ("service", "a-backup"), ("team", "mobile")]
  obtain ⟨desired, hbuilt, hiff, -⟩ := @jobs_restored_iff _ "push"
    { server := sampleServer "a", stored := none } {} (filed_editedCluster _)
    (stamped_editedCluster _) rfl (by decide) ⟨_, rfl⟩ account haccount
  obtain rfl : desired = [nightlyJob] := by
    obtain _ | ⟨hjob, _ | _⟩ := hbuilt
    exact congrArg (fun job => [job]) (Except.ok.inj (hjob.symm.trans rfl))
  have hrestorable : Restorable "push" (sampleServer "a") [nightlyJob]
      (editedCluster [("app", "a"), ("service", "a-backup"), ("team", "mobile")]) :=
    (left_createdCluster.restorable_store_iff (by decide) cronJobs_nightly (List.nodup_singleton _)
      List.mem_cons_self _).2 ⟨by decide, by decide⟩
  obtain ⟨t₂, st₂', c₂, honly, hwanted⟩ := hiff.2 hrestorable
  exact ⟨t, st', t₂, st₂', c₂, hrun, honly, hwanted _ List.mem_cons_self⟩

/-- A job that has lost one of the two labels stays as somebody else has left it, and no step
completes, whether calls are made to fail or not. -/
theorem unrestored_editedCluster :
    (∃ t st', Run reliable nightlyStep sampleCluster t (some (.ok (), st')) createdCluster) ∧
    AsWanted createdCluster "push" nightlyJob ∧
    (∃ account, (editedCluster [("app", "a")]).get? .serviceAccount "push" Backup.account =
      some account) ∧
    ∀ t o c', Run flaky nightlyStep (editedCluster [("app", "a")]) t o c' →
      (∀ st', o ≠ some (.ok (), st')) ∧ ¬AsWanted c' "push" nightlyJob := by
  refine ⟨run_nightlyStep, ?_, account_editedCluster _, fun t o c' hrun => ?_⟩
  · have hagrees : agrees createdJob nightlyJob = true := by decide +kernel
    obtain ⟨hspec, hlabels⟩ := agrees_iff.1 hagrees
    exact ⟨createdJob, get?_createdCluster, hspec, hlabels⟩
  · obtain ⟨hhalts, hkept⟩ := hidden_of_run (filed_editedCluster _) rfl (by decide) cronJobs_nightly
      List.mem_cons_self (get?_editedCluster _) (fun hfound => absurd hfound.2 (by decide)) hrun
    refine ⟨hhalts, ?_⟩
    rintro ⟨live, hlive, hspec, -⟩
    obtain rfl := Option.some.inj (hkept.symm.trans hlive)
    cases hspec

end Pass

end PushOperator
