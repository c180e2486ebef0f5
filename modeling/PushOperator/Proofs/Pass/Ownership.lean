import PushOperator.Proofs.Pass.Grounds

/-!
# What a pass creates, and for whom

A pass creates a child only after it has looked for it and not found it, in the place where it has
looked, and in the name of its server. A server without a uid can not own children, so the pass over
it fails as soon as one is missing. Both go together (`Owns`): what a step asks for is rightful, and
when it does not fail no child was missing, or the server could own it (`Unmissed`).

Backup jobs are not looked up one by one but listed by their labels, and the loop over them creates
what is not in the list. That the jobs it has created itself do not get in its way is what the names
of the backups are distinct for.
-/

namespace PushOperator

open Child Cluster

variable {α β : Type} {k : Kind} {settings : Settings} {ns name : String} {server : Server}
  {t : Trace} {pre mid : Trace → Prop}

/-! ## Missing children -/

/-- The trace shows that a child was looked for in its place and not found, and nothing has come
there since then. -/
inductive Missing (server : Server) (ns name : String) (t : Trace) : Kind → Prop
  /-- It was the last thing that was looked up. -/
  | looked {k : Kind} {before since : Trace} :
    t = before ++ .call (.get k ns name) (.ok none) :: since → (∀ e ∈ since, e.IsSecret) →
    Missing server ns name t k
  /-- A backup job was not among those that were listed, nor was it created after that. -/
  | listed {before since : Trace} {existing : List CronJob} :
    t = before ++ .call (.list .cronJob ns (selector server backup)) (.ok existing) :: since →
    (∀ found ∈ existing, found.anyName ≠ name) →
    ((server.spec.backups.map (·.name)).Nodup → ∀ (o : CronJob) a,
      .call (.create .cronJob o) a ∈ since → nameOf o ≠ name) →
    Missing server ns name t .cronJob

/-- What is created is a child of the server that is missing. Its one owner is the server. -/
structure OwnedCreation (server : Server) (t : Trace) (o : Object k) : Prop where
  place : ∃ ns name, server.metadata.ns = some ns ∧ Placed ns name o ∧ Missing server ns name t k
  owner : ∃ reference, o.metadata.ownerReferences = some [reference] ∧
    ownerReference server = .ok reference ∧ server.metadata.uid = some reference.uid ∧
      reference.controller = some true

/-- A backup job bears the name of a backup, and the labels that jobs of the server are listed by.
-/
def Labelled (server : Server) : (k : Kind) → Object k → Prop
  | .cronJob, job => ∃ backup : Backup, job.metadata.name = some backup.name ∧
    job.metadata.labelsOrEmpty = Backup.jobLabels server backup
  | _, _ => True

/-- What is created is missing and is the server's own, and backup jobs are written with their
labels. -/
def Request.Rightful (server : Server) (t : Trace) : Request → Prop
  | .create k o => OwnedCreation server t o ∧ Labelled server k o
  | .update k o => Labelled server k o
  | _ => True

/-- A child was looked for and is missing. The account that backups run as is no child. -/
def Entry.Misses (server : Server) : Entry → Prop
  | .call (.get k _ name) (.ok none) => ¬(k = .serviceAccount ∧ name = Backup.account)
  | .call (.list .cronJob _ _) (.ok existing) =>
    ∃ backup ∈ server.spec.backups, ∀ found ∈ existing, found.anyName ≠ backup.name
  | _ => False

/-- No child was missing, unless the server has a uid to own it with. -/
def Unmissed (server : Server) (t : Trace) : Prop :=
  server.metadata.uid = none → ∀ e ∈ t, ¬e.Misses server

theorem labelled_of_ne (hk : k ≠ .cronJob) (o : Object k) : Labelled server k o := by
  cases k with
  | cronJob => exact absurd rfl hk
  | _ => trivial

theorem Missing.secret (h : Missing server ns name t k) (text : String) :
    Missing server ns name (t ++ [.secret text]) k := by
  cases h with
  | @looked _ before since heq hsecrets =>
    subst heq
    refine .looked (List.append_assoc ..) (List.forall_mem_append.2 ⟨hsecrets, ?_⟩)
    exact List.forall_mem_singleton.2 trivial
  | @listed before since existing heq hunlisted hnew =>
    subst heq
    refine .listed (List.append_assoc ..) hunlisted fun hnodup o a hmem => ?_
    rcases List.mem_append.1 hmem with hmem | hmem
    · exact hnew hnodup o a hmem
    · cases List.mem_singleton.1 hmem

theorem unmissed_concat {e : Entry} (h : Unmissed server t) (he : ¬e.Misses server) :
    Unmissed server (t ++ [e]) :=
  fun huid => List.forall_mem_append.2 ⟨h huid, List.forall_mem_singleton.2 he⟩

theorem unmissed_event (t : Trace) (server' : Server) (event : Event) (h : Unmissed server t) :
    Unmissed server (t ++ [.event server' event]) :=
  unmissed_concat h id

/-- Only a server with a name and a uid can own children. -/
theorem ownerReference_eq_ok {reference : OwnerReference} :
    ownerReference server = .ok reference ↔ ∃ name uid,
      server.metadata.name = some name ∧ server.metadata.uid = some uid ∧
        reference = {
          apiVersion := Kind.unifiedPushServer.apiVersion
          kind := Kind.unifiedPushServer.name
          name, uid
          controller := some true } := by
  unfold ownerReference
  cases server.metadata.name <;> cases server.metadata.uid <;> simp [eq_comm]

theorem uid_ne_none_of_owner {reference : OwnerReference}
    (h : ownerReference server = .ok reference) : server.metadata.uid ≠ none := by
  obtain ⟨name, uid, -, huid, -⟩ := ownerReference_eq_ok.1 h
  simp [huid]

theorem unmissed_of_owner {reference : OwnerReference} (h : ownerReference server = .ok reference) :
    Unmissed server t :=
  fun huid => absurd huid (uid_ne_none_of_owner h)

/-- What was built for a place is created there. -/
theorem OwnedCreation.of_placed {o : Object k} {reference : OwnerReference}
    (hns : server.metadata.ns = some ns) (hplaced : Placed ns name o)
    (hmissing : Missing server ns name t k) (howner : ownerReference server = .ok reference) :
    OwnedCreation server t (o.withOwner reference) where
  place := ⟨ns, name, hns, hplaced, hmissing⟩
  owner := by
    obtain ⟨_, _, -, huid, rfl⟩ := ownerReference_eq_ok.1 howner
    exact ⟨_, rfl, howner, huid, rfl⟩

/-! ## Tasks -/

namespace Task

/-- A task that asks for what is rightful. If it succeeds, no child was missing that could not be
owned. -/
abbrev Owns (server : Server) (task : Task α) : Prop :=
  Grounds (Request.Rightful server) (Unmissed server) (fun _ => Unmissed server) task

theorem owns_call {r : Request} (hr : ∀ t, r.Rightful server t)
    (hmisses : ∀ a, ¬(Entry.call r (.ok a)).Misses server) : Owns server (call r) :=
  grounds_call (fun t _ => hr t) fun _ a ht => unmissed_concat ht (hmisses a)

theorem owns_createOwned {desired : Object k}
    (hmid : ∀ reference t, ownerReference server = .ok reference → mid t →
      (Request.create k (desired.withOwner reference)).Rightful server t) :
    Grounds (Request.Rightful server) mid (fun _ => Unmissed server)
      (createOwned server desired) :=
  grounds_createOwned hmid fun _ _ _ howner _ => unmissed_of_owner howner

theorem owns_applyCorrection {corrected : Option (Object k)} (hk : k ≠ .cronJob) :
    Owns server (applyCorrection corrected) := by
  cases corrected with
  | none => exact grounds_pure fun _ h => h
  | some corrected =>
    have hupdate : Owns server (call (.update k corrected)) :=
      owns_call (fun _ => labelled_of_ne hk corrected) fun _ => id
    exact hupdate.bind fun _ => (grounds_requirePlace _).bind fun _ => grounds_pure fun _ h => h

/-- An object that belongs to the server is looked up under its own name. -/
theorem owns_createOrUpdate {desired : Object k} (hk : k ≠ .cronJob)
    (hns : desired.metadata.ns = server.metadata.ns) :
    Owns server (createOrUpdate server desired) := by
  have hplace : Grounds (Request.Rightful server) (Unmissed server)
      (fun ns t => server.metadata.ns = some ns ∧ Unmissed server t)
      (liftM server.metadata.requireNs) :=
    grounds_build fun ns _ h ht => ⟨ObjectMeta.requireNs_eq_ok.1 h, ht⟩
  refine hplace.bind fun ns => ?_
  have hnamed : Grounds (Request.Rightful server)
      (fun t => server.metadata.ns = some ns ∧ Unmissed server t)
      (fun name t => (server.metadata.ns = some ns ∧ Placed ns name desired) ∧ Unmissed server t)
      (liftM desired.metadata.requireName) :=
    grounds_build fun name _ h ht =>
      ⟨⟨ht.1, hns.trans ht.1, ObjectMeta.requireName_eq_ok.1 h⟩, ht.2⟩
  refine hnamed.bind fun name => ?_
  have hlook : Grounds (Request.Rightful server)
      (fun t => (server.metadata.ns = some ns ∧ Placed ns name desired) ∧ Unmissed server t)
      (fun a t => (server.metadata.ns = some ns ∧ Placed ns name desired) ∧
        (a = none → Missing server ns name t k) ∧ ∀ found, a = some found → Unmissed server t)
      (call (.get k ns name)) := by
    refine grounds_call (fun _ _ => trivial) ?_
    rintro t (_ | found) ⟨hplaced, ht⟩
    · exact ⟨hplaced, fun _ => .looked rfl (by simp), nofun⟩
    · exact ⟨hplaced, nofun, fun _ _ => unmissed_concat ht id⟩
  refine hlook.bind ?_
  rintro (_ | found)
  · refine Grounds.bind (owns_createOwned ?_) fun _ => grounds_pure fun _ h => h
    rintro reference t howner ⟨⟨hserver, hplaced⟩, hmissing, -⟩
    exact ⟨.of_placed hserver hplaced (hmissing rfl) howner, labelled_of_ne hk _⟩
  · dsimp only
    split
    · exact grounds_pure fun _ h => h.2.2 found rfl
    · have hupdate : Owns server (call (.update k { found with spec := desired.spec })) :=
        owns_call (fun _ => labelled_of_ne hk _) fun _ => id
      refine (hupdate.mono ?_ fun _ _ h => h).bind fun _ => grounds_pure fun _ h => h
      exact fun _ h => h.2.2 found rfl

end Task

/-! ## Steps -/

namespace Pass

/-- A part of a pass that asks for what is rightful. Unless it fails, no child was missing that
could not be owned. -/
abbrev Owns (server : Server) (pass : Pass α) : Prop :=
  Justifies (Request.Rightful server) (Unmissed server) server (Unmissed server)
    (fun _ => Unmissed server) pass

theorem owns_pure (a : α) : Owns server (pure a) := grounds_pure fun _ h => h

theorem owns_stop {action : Action} : Owns server (stop action : Pass α) :=
  grounds_stop fun _ h => h

theorem owns_call {r : Request} (hr : ∀ t, r.Rightful server t)
    (hmisses : ∀ a, ¬(Entry.call r (.ok a)).Misses server) : Owns server (liftM (Task.call r)) :=
  grounds_liftM (Task.owns_call hr hmisses)

theorem owns_report {reason : Reason} {message : String} :
    Owns server (report reason message) :=
  grounds_report unmissed_event

theorem owns_forM {l : List α} {f : α → Pass Unit} (hf : ∀ a, Owns server (f a)) :
    Owns server (l.forM f) :=
  grounds_forM fun _ a _ _ => hf a

theorem owns_mapM {l : List α} {f : α → Pass β} (hf : ∀ a ∈ l, Owns server (f a)) :
    Owns server (l.mapM f) := by
  induction l with
  | nil => exact owns_pure []
  | cons a l ih =>
    rw [List.mapM_cons]
    refine (hf a List.mem_cons_self).bind fun b => ?_
    exact (ih fun b hb => hf b (List.mem_cons_of_mem a hb)).bind fun bs => owns_pure (b :: bs)

theorem owns_stopCorrected {corrected : Bool} {what : String} :
    Owns server (stopCorrected corrected k name what) := by
  unfold stopCorrected
  split
  · exact owns_report.bind fun _ => owns_stop
  · exact owns_pure ()

/-- One correction, and what follows if it was not needed. -/
theorem owns_correction {corrected : Option (Object k)} {what : String} {f : Unit → Pass α}
    (hk : k ≠ .cronJob) (hf : Owns server (f ())) : Owns server (do
      let did ← (Task.applyCorrection corrected : Task Bool)
      stopCorrected did k name what >>= f) :=
  (grounds_liftM (Task.owns_applyCorrection hk)).bind fun _ =>
    owns_stopCorrected.bind fun _ => hf

theorem owns_noteReady {ready : Bool} : Owns server (noteReady ready) := grounds_modify fun _ => rfl

/-- What is built for a server belongs in its namespace, under a name that is known. -/
def Belongs (server : Server) (name : String) (o : Object k) : Prop :=
  o.metadata.ns = server.metadata.ns ∧ o.metadata.name = some name

theorem belongs_of_places {name : Server → String} {build : Server → Except Error (Object k)}
    (h : Places name build) (server : Server) :
    BuildsOnly (Belongs server (name server)) (liftM (build server)) :=
  buildsOnly_ofExcept (h server)

/-- A child is created where it was looked for. -/
theorem owns_ensure {build : Server → Task (Object k)} (hk : k ≠ .cronJob)
    (hbuild : BuildsOnly (Belongs server name) (build server)) :
    Owns server (ensure name build) := by
  refine grounds_ensure_of (fun o t => Belongs server name o ∧
    ∃ ns, server.metadata.ns = some ns ∧ Missing server ns name t k) ?_ ?_ ?_ ?_ ?_ ?_
  · exact fun _ => unmissed_event
  · exact fun _ _ _ _ => trivial
  · exact fun ns found t _ ht => unmissed_concat ht id
  · intro ns hns
    refine (hbuild _ (fun t => Missing server ns name t k) fun t text h => h.secret text).mono ?_ ?_
    · rintro _ ⟨t, -, rfl⟩
      exact .looked rfl (by simp)
    · rintro o t ⟨ho, hmissing⟩
      exact ⟨ho, ns, hns, hmissing⟩
  · rintro o reference t howner ⟨⟨hns, hname⟩, ns, hserver, hmissing⟩
    exact ⟨.of_placed hserver ⟨hns.trans hserver, hname⟩ hmissing howner, labelled_of_ne hk _⟩
  · exact fun o reference t created howner _ => unmissed_of_owner howner

/-! ### The broker and the legacy kinds -/

theorem owns_reconcileBroker : Owns server reconcileBroker := by
  refine grounds_server_bind ?_
  split
  · exact owns_pure ()
  have hspace := belongs_of_places places_addressSpace server
  refine (owns_ensure (by decide) hspace).bind fun space => ?_
  split
  · exact owns_stop
  · next host _ =>
    have huser (password : String) : BuildsOnly (Belongs server Broker.userName)
        (liftM (Broker.messagingUser server password)) :=
      belongs_of_places (places_messagingUser password) server
    refine (owns_ensure (by decide) (buildsOnly_secret huser)).bind fun user => ?_
    split
    · exact grounds_fail
    · next password _ =>
      refine grounds_server_bind ?_
      have hsecret : BuildsOnly (Belongs server (Broker.secretName server))
          (liftM (Broker.secret server password host)) :=
        belongs_of_places (places_brokerSecret password host) server
      refine (owns_ensure (by decide) hsecret).bind fun _ => ?_
      refine (owns_mapM fun entry hentry => ?_).bind fun ready => ?_
      · have haddress : BuildsOnly (Belongs server (Broker.addressName entry.1))
            (liftM (entry.2 server)) := belongs_of_places (places_catalogue hentry) server
        exact (owns_ensure (by decide) haddress).bind fun _ => owns_pure _
      · split
        · exact owns_stop
        · exact owns_pure ()

theorem owns_removeLegacy (hk : k ≠ .cronJob) : Owns server (removeLegacy k) := by
  refine (owns_call (r := .probe k.apiVersion) (fun _ => trivial) fun _ => id).bind fun served => ?_
  split
  · exact owns_pure ()
  refine grounds_server_bind (grounds_build_bind fun ns _ => ?_)
  have hlist : Task.Owns server
      (Task.call (.list k ns ("app=" ++ server.anyName))).attempt := by
    intro t ht
    refine ⟨trivial, fun answer => ⟨List.subset_append_left t _, fun _ _ => ?_⟩⟩
    refine unmissed_concat ht ?_
    cases answer <;> cases k <;> first | exact id | exact absurd rfl hk
  refine (grounds_liftM hlist).bind ?_
  rintro (error | objects)
  · dsimp only
    split
    · exact owns_pure ()
    · exact grounds_fail
  · refine owns_forM fun object => ?_
    have hdelete : Owns server (liftM (Task.call (.delete k object))) :=
      owns_call (fun _ => trivial) fun _ => id
    exact hdelete.bind fun _ => owns_report

theorem owns_removeLegacyKinds : Owns server removeLegacyKinds :=
  (owns_removeLegacy (by decide)).bind fun _ => owns_removeLegacy (by decide)

/-! ### The database -/

theorem owns_reconcileClaim :
    Owns server (reconcileClaim settings (childName server postgresql)) := by
  have hclaim := belongs_of_places (places_claim settings) server
  refine (owns_ensure (by decide) hclaim).bind fun claim => ?_
  split
  · exact owns_pure ()
  · refine grounds_server_bind (grounds_build_bind fun desired _ => ?_)
    refine (grounds_liftM (Task.owns_applyCorrection (by decide))).bind fun _ => ?_
    exact owns_stopCorrected

theorem owns_reconcileCredentials : Owns server reconcileCredentials := by
  refine grounds_server_bind ?_
  split
  · exact owns_pure ()
  next hneeded =>
  have hname := secretName_eq (eq_false_of_ne_true hneeded)
  have hsecret (password : String) : BuildsOnly (Belongs server (Database.secretName server))
      (liftM (Database.secret server password)) := by
    rw [hname]
    exact belongs_of_places (places_databaseSecret password) server
  have hbuild : BuildsOnly (Belongs server (Database.secretName server)) (do
      let password ← if server.spec.externalDB then pure "" else Task.secret
      Database.secret server password) := by
    split
    · exact hsecret ""
    · exact buildsOnly_secret hsecret
  exact (owns_ensure (by decide) hbuild).bind fun _ => owns_pure ()

theorem owns_noteDeployment {observed : Option Deployment} : Owns server (do
    noteReady (← (Deployment.isReady observed : Task Bool))) :=
  grounds_build_bind fun _ _ => owns_noteReady

theorem owns_reconcileDatabaseDeployment :
    Owns server (reconcileDatabaseDeployment settings (childName server postgresql)) := by
  have hbuild := belongs_of_places (places_databaseDeployment settings) server
  refine (owns_ensure (by decide) hbuild).bind fun deployment => ?_
  split
  · exact owns_noteDeployment
  · refine grounds_server_bind (grounds_build_bind fun desired _ => ?_)
    exact owns_correction (by decide) (owns_correction (by decide) owns_noteDeployment)

theorem owns_reconcileDatabase : Owns server (reconcileDatabase settings) := by
  refine grounds_server_bind (grounds_server_bind ?_)
  dsimp only
  split
  · refine owns_reconcileClaim.bind fun _ => owns_reconcileCredentials.bind fun _ => ?_
    refine owns_reconcileDatabaseDeployment.bind fun _ => ?_
    have hservice := belongs_of_places places_databaseService server
    exact (owns_ensure (by decide) hservice).bind fun _ => owns_pure ()
  · exact owns_reconcileCredentials.bind fun _ => owns_pure ()

/-! ### The server and its proxy -/

theorem owns_reconcileServerDeployment :
    Owns server (reconcileServerDeployment settings server.anyName) := by
  have hbuild (cookieSecret : String) : BuildsOnly (Belongs server server.anyName)
      (liftM (Frontend.deployment server settings cookieSecret)) :=
    belongs_of_places (places_serverDeployment settings cookieSecret) server
  refine (owns_ensure (by decide) (buildsOnly_secret hbuild)).bind fun deployment => ?_
  split
  · exact owns_noteDeployment
  · refine grounds_server_bind (grounds_build_bind fun desired _ => ?_)
    refine owns_correction (by decide) (owns_correction (by decide) ?_)
    exact owns_correction (by decide) owns_noteDeployment

theorem owns_reconcileFrontend : Owns server (reconcileFrontend settings) := by
  refine grounds_server_bind (grounds_server_bind ?_)
  have haccount := belongs_of_places places_serviceAccount server
  have hproxy := belongs_of_places places_proxyService server
  have hservice := belongs_of_places places_serverService server
  have hroute := belongs_of_places places_proxyRoute server
  refine (owns_ensure (by decide) haccount).bind fun _ => ?_
  refine (owns_ensure (by decide) hproxy).bind fun _ => grounds_server_bind ?_
  refine (owns_ensure (by decide) hservice).bind fun _ => ?_
  refine (owns_ensure (by decide) hroute).bind fun route => ?_
  exact owns_noteReady.bind fun _ => owns_reconcileServerDeployment

/-! ### Backups -/

/-- The trace after the listing of the jobs, when some wanted ones have been seen to. The jobs that
were created since are among those, and a server without a uid has found all of them in the list.
-/
inductive Listed (server : Server) (ns : String) (existing seen : List CronJob) (t : Trace) : Prop
  | since (before since : Trace) :
    t = before ++ .call (.list .cronJob ns (selector server backup)) (.ok existing) :: since →
    (∀ (o : CronJob) a, .call (.create .cronJob o) a ∈ since → nameOf o ∈ seen.map nameOf) →
    (server.metadata.uid = none → (∀ e ∈ before ++ since, ¬e.Misses server) ∧
      ∀ job ∈ seen, ∃ found ∈ existing, found.anyName = nameOf job) →
    Listed server ns existing seen t

section

variable {existing seen desired : List CronJob} {job : CronJob}

theorem Listed.concat {e : Entry} (h : Listed server ns existing seen t)
    (hcreate : ∀ (o : CronJob) a, e = .call (.create .cronJob o) a → nameOf o ∈ seen.map nameOf)
    (he : server.metadata.uid = none → ¬e.Misses server) :
    Listed server ns existing seen (t ++ [e]) := by
  obtain ⟨before, since, rfl, hnew, hfound⟩ := h
  refine ⟨before, since ++ [e], List.append_assoc .., fun o a hmem => ?_, fun huid => ?_⟩
  · rcases List.mem_append.1 hmem with hmem | hmem
    · exact hnew o a hmem
    · exact hcreate o a (List.mem_singleton.1 hmem).symm
  · obtain ⟨hunmissed, hseen⟩ := hfound huid
    refine ⟨?_, hseen⟩
    rw [← List.append_assoc]
    exact List.forall_mem_append.2 ⟨hunmissed, List.forall_mem_singleton.2 (he huid)⟩

/-- One more job has been seen to. -/
theorem Listed.next (h : Listed server ns existing seen t)
    (hfound : server.metadata.uid = none → ∃ found ∈ existing, found.anyName = nameOf job) :
    Listed server ns existing (seen ++ [job]) t := by
  obtain ⟨before, since, rfl, hnew, hseen⟩ := h
  refine ⟨before, since, rfl, fun o a hmem => ?_, fun huid => ⟨(hseen huid).1, ?_⟩⟩
  · rw [List.map_append]
    exact List.mem_append_left _ (hnew o a hmem)
  · exact List.forall_mem_append.2 ⟨(hseen huid).2, List.forall_mem_singleton.2 (hfound huid)⟩

/-- When all wanted jobs are found, none was missing. -/
theorem Listed.unmissed (h : Listed server ns existing desired t)
    (hdesired : Backup.cronJobs server settings = .ok desired) : Unmissed server t := by
  intro huid
  obtain ⟨before, since, rfl, -, hfound⟩ := h
  obtain ⟨hrest, hseen⟩ := hfound huid
  obtain ⟨hbefore, hsince⟩ := List.forall_mem_append.1 hrest
  refine List.forall_mem_append.2 ⟨hbefore, List.forall_mem_cons.2 ⟨?_, hsince⟩⟩
  rintro ⟨backup, hbackup, hmissing⟩
  have hwanted : backup.name ∈ desired.map nameOf := by
    rw [map_nameOf_cronJobs hdesired]
    exact List.mem_map_of_mem hbackup
  obtain ⟨job, hjob, hname⟩ := List.mem_map.1 hwanted
  obtain ⟨found, hmem, hsame⟩ := hseen job hjob
  exact hmissing found hmem (hsame.trans hname)

/-- A wanted job that is not in the list is missing, as long as the jobs before it were others. -/
theorem Listed.missing {after : List CronJob} (h : Listed server ns existing seen t)
    (hunlisted : ∀ found ∈ existing, found.anyName ≠ nameOf job)
    (hdesired : Backup.cronJobs server settings = .ok (seen ++ job :: after)) :
    Missing server ns (nameOf job) t .cronJob := by
  obtain ⟨before, since, rfl, hnew, -⟩ := h
  refine .listed rfl hunlisted fun hnodup o a hmem heq => ?_
  rw [← map_nameOf_cronJobs hdesired, List.map_append, List.map_cons] at hnodup
  have hdisjoint := (List.nodup_append.1 hnodup).2.2
  exact hdisjoint _ (heq ▸ hnew o a hmem) _ List.mem_cons_self rfl

/-- One round: a job that is there is put right, one that is missing is created. -/
theorem owns_reconcileBackup {after : List CronJob}
    (hdesired : Backup.cronJobs server settings = .ok (seen ++ job :: after))
    (hns : server.metadata.ns = some ns) :
    Justifies (Request.Rightful server) (Unmissed server) server (Listed server ns existing seen)
      (fun _ => Listed server ns existing (seen ++ [job])) (reconcileBackup existing job) := by
  have hmem : job ∈ seen ++ job :: after := by simp
  have hplaced : Placed ns (nameOf job) job := placed_cronJobs hdesired hns job hmem
  have hlabels : Labelled server .cronJob job := by
    obtain ⟨backup, hbuilt⟩ := mem_cronJobs hdesired hmem
    have hnamed := (places_cronJob settings backup server job hbuilt).2
    exact ⟨backup, hnamed, labels_cronJob hbuilt⟩
  refine grounds_build_bind fun name hname => ?_
  obtain rfl : nameOf job = name :=
    Option.some.inj (hplaced.2.symm.trans (ObjectMeta.requireName_eq_ok.1 hname))
  split
  · next found hfound =>
    have hthere : ∃ found ∈ existing, found.anyName = nameOf job :=
      ⟨found, List.mem_of_find?_eq_some hfound, by simpa using List.find?_some hfound⟩
    split
    · have hupdate : Justifies (Request.Rightful server) (Unmissed server) server
          (Listed server ns existing seen) (fun _ => Listed server ns existing (seen ++ [job]))
          (liftM (Task.call (.update .cronJob (replacement found job)))) := by
        refine grounds_call (fun _ _ => hlabels) fun t a ht => ?_
        exact (ht.next fun _ => hthere).concat (fun _ _ heq => nomatch heq) fun _ => id
      exact hupdate.bind fun _ => grounds_record
    · exact grounds_record.mono (fun t ht => ht.next fun _ => hthere) fun _ _ h => h
  · next hnone =>
    have hunlisted : ∀ found ∈ existing, found.anyName ≠ nameOf job := by
      intro found hfound
      simpa using List.find?_eq_none.1 hnone found hfound
    refine grounds_server_bind ?_
    have hcreate : Task.Grounds (Request.Rightful server) (Listed server ns existing seen)
        (fun _ => Listed server ns existing (seen ++ [job])) (Task.createOwned server job) := by
      refine Task.grounds_createOwned (fun reference t howner ht => ?_)
        fun reference t created howner ht => ?_
      · exact ⟨.of_placed hns hplaced (ht.missing hunlisted hdesired) howner, hlabels⟩
      · have huid := uid_ne_none_of_owner howner
        refine (ht.next fun hnone => absurd hnone huid).concat ?_ fun hnone => absurd hnone huid
        rintro o a heq
        cases heq
        have hseen : nameOf job ∈ (seen ++ [job]).map nameOf :=
          List.mem_map_of_mem (List.mem_append_right _ List.mem_cons_self)
        exact hseen
    refine (grounds_liftM hcreate).bind fun created => ?_
    refine (grounds_report fun t server' event ht => ?_).bind fun _ => grounds_record
    exact ht.concat (fun _ _ heq => nomatch heq) fun _ => id

end

theorem owns_removeBackup (desired : List CronJob) (found : CronJob) :
    Owns server (removeBackup desired found) := by
  unfold removeBackup
  split
  · exact owns_pure ()
  have hdelete : Owns server (liftM (Task.call (.delete .cronJob found))) :=
    owns_call (fun _ => trivial) fun _ => id
  have hforget : Owns server (forget .cronJob found.anyName) := grounds_modify fun _ => rfl
  exact hdelete.bind fun _ => hforget.bind fun _ => owns_report

/-- The jobs are listed, and then seen to in rounds. -/
theorem owns_backupJobs {desired : List CronJob} (hns : server.metadata.ns = some ns)
    (hdesired : Backup.cronJobs server settings = .ok desired) : Owns server (do
      let existing ← Task.call (.list .cronJob ns (selector server backup))
      desired.forM (reconcileBackup existing)
      existing.forM (removeBackup desired)) := by
  have hlist : Justifies (Request.Rightful server) (Unmissed server) server (Unmissed server)
      (fun existing => Listed server ns existing [])
      (liftM (Task.call (.list .cronJob ns (selector server backup)))) := by
    refine grounds_call (fun _ _ => trivial) fun t existing ht => ?_
    refine .since t [] rfl (by simp) fun huid => ⟨?_, by simp⟩
    rw [List.append_nil]
    exact ht huid
  refine hlist.bind fun existing => ?_
  have hrounds : Justifies (Request.Rightful server) (Unmissed server) server
      (Listed server ns existing []) (fun _ => Listed server ns existing desired)
      (desired.forM (reconcileBackup existing)) := by
    refine grounds_forM fun seen job after hsplit => ?_
    exact owns_reconcileBackup (hsplit ▸ hdesired) hns
  refine (hrounds.mono (fun _ h => h) fun _ t h => h.unmissed hdesired).bind fun _ => ?_
  exact owns_forM fun found => owns_removeBackup desired found

theorem owns_reconcileBackups : Owns server (reconcileBackups settings) := by
  refine grounds_server_bind (grounds_build_bind fun ns hns => ?_)
  refine grounds_build_bind fun desired hdesired => ?_
  have hjobs := owns_backupJobs (ObjectMeta.requireNs_eq_ok.1 hns) hdesired
  split
  · have haccount : Owns server (liftM (Task.call (.get .serviceAccount ns Backup.account))) := by
      refine owns_call (fun _ => trivial) ?_
      rintro (_ | account)
      · exact fun h => h ⟨rfl, rfl⟩
      · exact id
    refine haccount.bind fun account => ?_
    split
    · exact hjobs
    · exact owns_stop.bind fun _ => hjobs
  · exact hjobs

/-! ### Monitoring -/

theorem owns_reconcileSpec {name : Server → String} {build : Server → Except Error (Object k)}
    (hk : k ≠ .cronJob) (hbuild : Places name build) : Owns server (reconcileSpec build) := by
  refine grounds_server_bind (grounds_build_bind fun desired hdesired => ?_)
  have hns : desired.metadata.ns = server.metadata.ns := (hbuild server desired hdesired).1
  refine (grounds_liftM (Task.owns_createOrUpdate hk hns)).bind fun ensured => ?_
  exact grounds_track unmissed_event

theorem owns_reconcileMonitoring : Owns server reconcileMonitoring := by
  have hprobe (groupVersion : String) : Owns server (liftM (Task.call (.probe groupVersion))) :=
    owns_call (fun _ => trivial) fun _ => id
  have hdashboard : Owns server (do
      if ← Task.call (.probe Kind.grafanaDashboard.apiVersion) then
        reconcileSpec Monitoring.grafanaDashboard) := by
    refine (hprobe _).bind fun served => ?_
    split
    · exact owns_reconcileSpec (by decide) places_grafanaDashboard
    · exact owns_pure ()
  refine (hprobe _).bind fun served => ?_
  split
  · refine (owns_reconcileSpec (by decide) places_serviceMonitor).bind fun _ => ?_
    exact (owns_reconcileSpec (by decide) places_prometheusRule).bind fun _ => hdashboard
  · exact hdashboard

/-! ### All steps -/

theorem owns_converge : Owns server (converge settings) :=
  owns_reconcileBroker.bind fun _ => owns_removeLegacyKinds.bind fun _ =>
    owns_reconcileDatabase.bind fun _ => owns_reconcileFrontend.bind fun _ =>
      owns_reconcileBackups.bind fun _ => owns_reconcileMonitoring

theorem owns_deferToActive : Owns server deferToActive := by
  refine grounds_server_bind ?_
  split
  · exact owns_pure ()
  refine grounds_build_bind fun ns _ => ?_
  have hlist : Owns server (liftM (Task.call (.list .unifiedPushServer ns ""))) :=
    owns_call (fun _ => trivial) fun _ => id
  refine hlist.bind fun others => ?_
  split
  · exact owns_stop
  · exact owns_pure ()

end Pass

/-! ## Whole passes -/

section

variable {live : Server} (h : server.Stays live)
include h

theorem Missing.of_stays (hmissing : Missing live ns name t k) : Missing server ns name t k := by
  obtain ⟨⟨⟩, -⟩ := h
  cases hmissing with
  | looked heq hsecrets => exact .looked heq hsecrets
  | listed heq hunlisted hnew => exact .listed heq hunlisted hnew

theorem Server.Stays.ownerReference_eq : ownerReference live = ownerReference server := by
  obtain ⟨⟨⟩, huid⟩ := h
  unfold ownerReference
  rw [huid]

theorem OwnedCreation.of_stays {o : Object k} (hcreation : OwnedCreation live t o) :
    OwnedCreation server t o := by
  obtain ⟨⟨ns, name, hns, hplaced, hmissing⟩, howner⟩ := hcreation
  rw [h.1.ns] at hns
  rw [h.ownerReference_eq, h.2] at howner
  exact ⟨⟨ns, name, hns, hplaced, hmissing.of_stays h⟩, howner⟩

theorem Labelled.of_stays {o : Object k} (hlabelled : Labelled live k o) : Labelled server k o := by
  obtain ⟨⟨⟩, -⟩ := h
  cases k <;> exact hlabelled

theorem Request.Rightful.of_stays {r : Request} (hr : r.Rightful live t) :
    r.Rightful server t := by
  cases r with
  | create k o => exact ⟨hr.1.of_stays h, hr.2.of_stays h⟩
  | update k o => exact Labelled.of_stays h hr
  | get | list | updateStatus | delete | probe => trivial

theorem Server.Stays.unmissed_eq : Unmissed live = Unmissed server := by
  unfold Unmissed
  rw [h.2]
  obtain ⟨⟨⟩, -⟩ := h
  rfl

end

/-- Whatever a pass asks for is rightful, as long as the answers show the server that it has
fetched. If it has missed a child that the server could not own, it says that it has failed. -/
theorem owned_run : (Pass.run settings server).Grounded
    (fun t r => Tells Server.Stays t → r.Rightful server t)
    (fun action t => Tells Server.Stays t →
      Unmissed server t ∨ action = .requeue 5 ∧ ∃ e ∈ t, ¬e.IsCalm)
    [.call (.get .unifiedPushServer ns name) (.ok (some server))] := by
  have hstored (t : Trace) (o : Server) (a) (ht : Unmissed server t) :
      Unmissed server (t ++ [.call (.updateStatus .unifiedPushServer o) a]) :=
    unmissed_concat ht id
  have hconverge (live : Server) (hstays : server.Stays live) :
      Pass.Justifies (Request.Rightful server) (Unmissed server) live (Unmissed server)
        (fun _ => Unmissed server) (Pass.converge settings) := by
    have howns : Pass.Owns live (Pass.converge settings) := Pass.owns_converge
    unfold Pass.Owns at howns
    rw [hstays.unmissed_eq] at howns
    exact howns.imp fun t r hr => hr.of_stays hstays
  refine Pass.grounded_run Pass.statusBlind_stays (fun _ _ => trivial) hstored hstored
    Pass.owns_deferToActive hconverge ?_
  exact fun _ => List.forall_mem_singleton.2 id

end PushOperator
