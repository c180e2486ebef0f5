import PushOperator.Proofs.Pass.Ownership

/-!
# What a pass deletes, and on what grounds

Two steps of a pass delete objects. The legacy step deletes what it has listed by the name of the
server and has found to belong to it. The backup step deletes the jobs that it has listed by their
labels and that bear the name of no backup, whoever they belong to. Of the kinds that these steps
delete, a pass writes nothing else but jobs that bear the name of a backup (`Request.Clears`).
-/

namespace PushOperator

open Child Cluster

variable {α β : Type} {k : Kind} {settings : Settings} {ns name : String} {server : Server}
  {t : Trace} {pre : Trace → Prop} {r : Request}

/-- What the trace shows of an object that may be deleted. -/
inductive Deletable (server : Server) (t : Trace) : {k : Kind} → Object k → Prop
  /-- It was listed by the name of the server, and belongs to the server. -/
  | legacy {k : Kind} {ns : String} {objects : List (Object k)} {o : Object k} :
    k ∈ Pass.legacyKinds → server.metadata.ns = some ns →
    .call (.list k ns ("app=" ++ server.anyName)) (.ok objects) ∈ t → o ∈ objects →
    o.metadata.isOwnedBy server.metadata.uid = true → Deletable server t o
  /-- A job was listed by the labels of backups, and no backup is called like it. -/
  | backup {ns : String} {existing : List CronJob} {job : CronJob} :
    server.metadata.ns = some ns →
    .call (.list .cronJob ns (selector server backup)) (.ok existing) ∈ t → job ∈ existing →
    (∀ backup ∈ server.spec.backups, backup.name ≠ job.anyName) → Deletable server t job

/-- A job bears the name of a backup. Other objects do not. -/
def NamedForBackup (server : Server) : (k : Kind) → Object k → Prop
  | .cronJob, job => ∃ backup ∈ server.spec.backups, job.metadata.name = some backup.name
  | _, _ => False

/-- Of the kinds of which objects are deleted, only jobs of backups are written, and only what may
be deleted is. -/
def Request.Clears (server : Server) (t : Trace) : Request → Prop
  | .create k o | .update k o => k ∈ Pass.deletedKinds → NamedForBackup server k o
  | .delete k o => k ∈ Pass.deletedKinds → Deletable server t o
  | _ => True

theorem Request.clears_of_not_writes (h : ∀ k ∈ Pass.deletedKinds, ¬r.Writes k) :
    r.Clears server t := by
  cases r with
  | create k o | update k o | delete k o => exact fun hk => absurd rfl (h k hk)
  | get | list | updateStatus | probe => trivial

/-! ## Steps -/

/-- When a call is attempted, its answer is the result. -/
theorem Task.grounds_attempt {grounds : Trace → Request → Prop}
    {post : Except Error r.Reply → Trace → Prop} (hr : ∀ t, pre t → grounds t r)
    (h : ∀ t a, pre t → post a (t ++ [.call r a])) :
    Grounds grounds pre post (call r).attempt := by
  intro t ht
  refine ⟨hr t ht, fun a => ⟨List.subset_append_left t _, ?_⟩⟩
  intro b hb
  obtain rfl := Except.ok.inj hb
  exact h t a ht

namespace Pass

/-- A part of a pass that deletes only what may be deleted. -/
abbrev Clears (server : Server) (pass : Pass α) : Prop :=
  Grounds (Request.Clears server) server (fun _ => True) (fun _ _ => True) pass

/-- The same of a part that comes after an entry. -/
abbrev ClearsAfter (server : Server) (e : Entry) (pass : Pass α) : Prop :=
  Grounds (Request.Clears server) server (e ∈ ·) (fun _ t => e ∈ t) pass

variable {e : Entry}

theorem Clears.after {x : Pass α} (h : Clears server x) : ClearsAfter server e x :=
  ((h.mono (fun _ _ => trivial) fun _ _ h => h).frame (lasting_mem e) fun _ h => h).mono
    (fun _ h => h) fun _ _ h => h.2

theorem clears_pure (a : α) : Clears server (pure a) := grounds_pure fun _ h => h

theorem clears_record : Clears server (record k name) := grounds_record

theorem clears_report {reason : Reason} {message : String} :
    Clears server (report reason message) :=
  grounds_report fun _ _ _ h => h

theorem clears_call (h : ∀ t, r.Clears server t) : Clears server (liftM (Task.call r)) :=
  grounds_call (fun t _ => h t) fun _ _ h => h

theorem clearsAfter_delete {o : Object k} (h : ∀ t, e ∈ t → Deletable server t o) :
    ClearsAfter server e (liftM (Task.call (.delete k o))) :=
  grounds_call (fun t ht _ => h t ht) fun _ _ ht => List.mem_append_left _ ht

theorem clearsAfter_forM {l : List α} {f : α → Pass Unit}
    (hf : ∀ a ∈ l, ClearsAfter server e (f a)) : ClearsAfter server e (l.forM f) :=
  grounds_forM fun _ a _ hsplit => hf a (by simp [hsplit])

/-- A step that does not write these kinds. -/
theorem clears_of_writesOnly {kinds : List Kind} {x : Pass α} (h : WritesOnly kinds x)
    (hkinds : ∀ k ∈ deletedKinds, k ∉ kinds) : Clears server x :=
  (grounds_of_writesOnly h (fun _ _ _ h => h) fun _ _ hwrites _ =>
    Request.clears_of_not_writes fun k hk hk' => hkinds k hk (hwrites k hk')).mono
      (fun _ h => h) fun _ _ h => h

/-- The legacy step filters what it has listed by the owner. -/
theorem clears_removeLegacy (hk : k ∈ legacyKinds) : Clears server (removeLegacy k) := by
  refine (clears_call (r := .probe k.apiVersion) fun _ => trivial).bind fun served => ?_
  split
  · exact clears_pure ()
  refine grounds_server_bind (grounds_build_bind fun ns hns => ?_)
  have hlist : Grounds (Request.Clears server) server (fun _ => True)
      (fun answer t => .call (.list k ns ("app=" ++ server.anyName)) answer ∈ t)
      (liftM (Task.call (.list k ns ("app=" ++ server.anyName))).attempt) :=
    grounds_liftM (Task.grounds_attempt (fun _ _ => trivial) fun _ _ _ => List.mem_concat_self)
  refine hlist.bind ?_
  rintro (error | objects)
  · dsimp only
    split
    · exact grounds_pure fun _ _ => trivial
    · exact grounds_fail
  · refine Justifies.mono (clearsAfter_forM fun object hobject => ?_) (fun _ h => h)
      fun _ _ _ => trivial
    obtain ⟨hmem, howned⟩ := List.mem_filter.1 hobject
    exact (clearsAfter_delete fun t ht =>
      .legacy hk (ObjectMeta.requireNs_eq_ok.1 hns) ht hmem howned).bind
        fun _ => clears_report.after

section

variable {existing desired : List CronJob} {job : CronJob}

/-- The jobs that are created or replaced are those of the backups. -/
theorem clears_reconcileBackup (hjob : NamedForBackup server .cronJob job) :
    Clears server (reconcileBackup existing job) := by
  refine grounds_build_bind fun name _ => ?_
  split
  · split
    · refine Justifies.bind (clears_call (r := .update .cronJob _) fun _ _ => hjob) fun _ => ?_
      exact clears_record
    · exact clears_record
  · refine grounds_server_bind ?_
    have hcreate : Task.Grounds (Request.Clears server) (fun _ => True) (fun _ _ => True)
        (Task.createOwned server job) :=
      Task.grounds_createOwned (fun _ _ _ _ _ => hjob) fun _ _ _ _ _ => trivial
    exact (grounds_liftM hcreate).bind fun _ => clears_report.bind fun _ => clears_record

theorem namedForBackup_cronJobs (hdesired : Backup.cronJobs server settings = .ok desired)
    (hjob : job ∈ desired) : NamedForBackup server .cronJob job := by
  have hname : job.metadata.name ∈ server.spec.backups.map (some ·.name) :=
    names_cronJobs hdesired ▸ List.mem_map_of_mem hjob
  obtain ⟨backup, hbackup, hsame⟩ := List.mem_map.1 hname
  exact ⟨backup, hbackup, hsame.symm⟩

/-- What was listed and bears no backup's name is deleted. Nobody asks for the owner. -/
theorem clearsAfter_removeBackup (hns : server.metadata.ns = some ns)
    (hdesired : Backup.cronJobs server settings = .ok desired) (hjob : job ∈ existing) :
    ClearsAfter server (.call (.list .cronJob ns (selector server backup)) (.ok existing))
      (removeBackup desired job) := by
  unfold removeBackup
  split
  · exact (clears_pure ()).after
  next hunwanted =>
  have hnamed : ∀ backup ∈ server.spec.backups, backup.name ≠ job.anyName := by
    intro backup hbackup heq
    have hwanted : some job.anyName ∈ desired.map (·.metadata.name) := by
      rw [names_cronJobs hdesired, ← heq]
      exact List.mem_map_of_mem (f := fun backup : Backup => some backup.name) hbackup
    obtain ⟨wanted, hmem, hname⟩ := List.mem_map.1 hwanted
    exact hunwanted (List.any_eq_true.2 ⟨wanted, hmem, by simp [hname]⟩)
  refine (clearsAfter_delete fun t ht => .backup hns ht hjob hnamed).bind fun _ => ?_
  have hforget : Clears server (forget .cronJob job.anyName) := grounds_modify fun _ => rfl
  exact hforget.after.bind fun _ => clears_report.after

theorem clears_backupJobs (hns : server.metadata.ns = some ns)
    (hdesired : Backup.cronJobs server settings = .ok desired) : Clears server (do
      let existing ← Task.call (.list .cronJob ns (selector server backup))
      desired.forM (reconcileBackup existing)
      existing.forM (removeBackup desired)) := by
  have hlist : Grounds (Request.Clears server) server (fun _ => True)
      (fun existing t => .call (.list .cronJob ns (selector server backup)) (.ok existing) ∈ t)
      (liftM (Task.call (.list .cronJob ns (selector server backup)))) :=
    grounds_call (fun _ _ => trivial) fun _ _ _ => List.mem_concat_self
  refine hlist.bind fun existing => ?_
  have hrounds : ClearsAfter server
      (.call (.list .cronJob ns (selector server backup)) (.ok existing))
      (desired.forM (reconcileBackup existing)) := clearsAfter_forM fun job hjob =>
    (clears_reconcileBackup (namedForBackup_cronJobs hdesired hjob)).after
  have hremove : ClearsAfter server
      (.call (.list .cronJob ns (selector server backup)) (.ok existing))
      (existing.forM (removeBackup desired)) := clearsAfter_forM fun job hjob =>
    clearsAfter_removeBackup hns hdesired hjob
  exact hrounds.bind fun _ => hremove.mono (fun _ h => h) fun _ _ _ => trivial

end

theorem clears_reconcileBackups : Clears server (reconcileBackups settings) := by
  refine grounds_server_bind (grounds_build_bind fun ns hns => ?_)
  refine grounds_build_bind fun desired hdesired => ?_
  have hjobs := clears_backupJobs (ObjectMeta.requireNs_eq_ok.1 hns) hdesired
  split
  · refine (clears_call (r := .get .serviceAccount ns Backup.account) fun _ => trivial).bind ?_
    intro account
    split
    · exact hjobs
    · exact (grounds_stop fun _ _ => trivial).bind fun _ => hjobs
  · exact hjobs

theorem clears_converge : Clears server (converge settings) := by
  refine (clears_of_writesOnly writesOnly_reconcileBroker (by decide)).bind fun _ => ?_
  have hlegacy : Clears server removeLegacyKinds :=
    (clears_removeLegacy (by decide)).bind fun _ => clears_removeLegacy (by decide)
  refine hlegacy.bind fun _ => ?_
  refine (clears_of_writesOnly writesOnly_reconcileDatabase (by decide)).bind fun _ => ?_
  refine (clears_of_writesOnly writesOnly_reconcileFrontend (by decide)).bind fun _ => ?_
  refine clears_reconcileBackups.bind fun _ => ?_
  exact clears_of_writesOnly writesOnly_reconcileMonitoring (by decide)

end Pass

/-! ## Whole passes -/

theorem Deletable.of_stays {live : Server} {o : Object k} (hstays : server.Stays live)
    (h : Deletable live t o) : Deletable server t o := by
  obtain ⟨⟨⟩, huid⟩ := hstays
  cases h with
  | legacy hk hns hlisted hmem howned => exact .legacy hk hns hlisted hmem (huid ▸ howned)
  | backup hns hlisted hmem hnamed => exact .backup hns hlisted hmem hnamed

theorem Request.Clears.of_stays {live : Server} (hstays : server.Stays live)
    (h : r.Clears live t) : r.Clears server t := by
  cases r with
  | create k o | update k o =>
    intro hk
    have hnamed := h hk
    obtain ⟨⟨⟩, -⟩ := hstays
    cases k <;> exact hnamed
  | delete k o => exact fun hk => Deletable.of_stays hstays (h hk)
  | get | list | updateStatus | probe => trivial

theorem clears_run : (Pass.run settings server).Grounded
    (fun t r => Tells Server.Stays t → r.Clears server t) (fun _ _ => True) t := by
  have hconverge (live : Server) (hstays : server.Stays live) :
      Pass.Grounds (Request.Clears server) live (fun _ => True) (fun _ _ => True)
        (Pass.converge settings) :=
    Pass.clears_converge.imp fun _ _ h => h.of_stays hstays
  have hdefer : Pass.Clears server Pass.deferToActive :=
    Pass.clears_of_writesOnly Pass.writesOnly_deferToActive (by decide)
  exact (Pass.grounded_run Pass.statusBlind_stays (fun _ _ => trivial) (fun _ _ _ h => h)
    (fun _ _ _ h => h) hdefer hconverge trivial).mono fun _ _ _ => trivial

theorem clears_of_steps {σ : Type} {w : World σ} {s s' : σ}
    {next : Except Error r.Reply → Interaction (Except Error Action)}
    (htells : Tells Server.Stays t)
    (h : Steps w (reconcile settings ns name).run s t (.call r next) s') :
    (t = [] ∧ r = .get .unifiedPushServer ns name) ∨
      ∃ server, Fetches ns name server t ∧ r.Clears server t :=
  grounds_of_steps (fun _ => clears_run) htells h

end PushOperator
