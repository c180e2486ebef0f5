import PushOperator.Proofs.Child.Names
import PushOperator.Proofs.Pass.Ownership

/-!
# What a pass looks for

Of the kinds that are called after their server, a pass looks for and creates nothing but children
that the spec calls for, except that it looks for the account that backups run as
(`Request.LooksFor`). That what it finds is a child of its server is decided by the name alone.
-/

namespace PushOperator

open Child

variable {α β : Type} {k : Kind} {settings : Settings} {ns name : String} {server : Server}
  {t : Trace} {r : Request}

/-- Objects that are called after a server are looked up one by one and created where they were
looked for, and only if the spec calls for them. The account of the backups is somebody else's. -/
def Request.LooksFor (server : Server) : Request → Prop
  | .get k ns name => k ∈ namedKinds → server.metadata.ns = some ns ∧
    (MayHave server k name ∨ k = .serviceAccount ∧ name = Backup.account)
  | .list k _ _ => k ∉ namedKinds
  | .create k o => k ∈ namedKinds → o.metadata.ns = server.metadata.ns ∧
    ∃ name, o.metadata.name = some name ∧ MayHave server k name
  | _ => True

namespace Pass

/-- A part of a pass that looks for nothing else. -/
abbrev Looks (server : Server) (pass : Pass α) : Prop :=
  Grounds (fun _ r => r.LooksFor server) server (fun _ => True) (fun _ _ => True) pass

theorem looks_pure (a : α) : Looks server (pure a) := grounds_pure fun _ h => h

theorem looks_call (h : r.LooksFor server) : Looks server (liftM (Task.call r)) :=
  grounds_call (fun _ _ => h) fun _ _ h => h

theorem looks_stop {action : Action} : Looks server (stop action : Pass α) :=
  grounds_stop fun _ h => h

theorem looks_report {reason : Reason} {message : String} :
    Looks server (report reason message) :=
  grounds_report fun _ _ _ h => h

theorem looks_noteReady {ready : Bool} : Looks server (noteReady ready) :=
  grounds_modify fun _ => rfl

theorem looks_probe (groupVersion : String) :
    Looks server (liftM (Task.call (.probe groupVersion))) :=
  grounds_call (fun _ _ => trivial) fun _ _ h => h

theorem looks_forM {l : List α} {f : α → Pass Unit} (hf : ∀ a, Looks server (f a)) :
    Looks server (l.forM f) :=
  grounds_forM fun _ a _ _ => hf a

theorem looks_mapM {l : List α} {f : α → Pass β} (hf : ∀ a ∈ l, Looks server (f a)) :
    Looks server (l.mapM f) := by
  induction l with
  | nil => exact looks_pure []
  | cons a l ih =>
    rw [List.mapM_cons]
    refine (hf a List.mem_cons_self).bind fun b => ?_
    exact (ih fun b hb => hf b (List.mem_cons_of_mem a hb)).bind fun bs => looks_pure (b :: bs)

theorem looks_createOwned {desired : Object k} (h : k ∈ namedKinds →
      desired.metadata.ns = server.metadata.ns ∧
        ∃ name, desired.metadata.name = some name ∧ MayHave server k name) :
    Looks server (liftM (Task.createOwned server desired)) :=
  grounds_liftM (Task.grounds_createOwned (fun _ _ _ _ => h) fun _ _ _ _ _ => trivial)

theorem looks_applyCorrection {corrected : Option (Object k)} :
    Looks server (liftM (Task.applyCorrection corrected)) := by
  cases corrected with
  | none => exact looks_pure false
  | some corrected =>
    have hupdate : Task.Grounds (fun _ r => r.LooksFor server) (fun _ => True) (fun _ _ => True)
        (Task.call (.update k corrected)) := Task.grounds_call (fun _ _ => trivial) fun _ _ h => h
    refine grounds_liftM (hupdate.bind fun _ => ?_)
    exact (Task.grounds_requirePlace _).bind fun _ => Task.grounds_pure fun _ h => h

theorem looks_stopCorrected {corrected : Bool} {what : String} :
    Looks server (stopCorrected corrected k name what) := by
  unfold stopCorrected
  split
  · exact looks_report.bind fun _ => looks_stop
  · exact looks_pure ()

/-- One correction, and what follows if it was not needed. -/
theorem looks_correction {corrected : Option (Object k)} {what : String} {f : Unit → Pass α}
    (hf : Looks server (f ())) : Looks server (do
      let did ← (Task.applyCorrection corrected : Task Bool)
      stopCorrected did k name what >>= f) :=
  looks_applyCorrection.bind fun _ => looks_stopCorrected.bind fun _ => hf

/-- A child is looked up under its name, and created under it. -/
theorem looks_ensure {build : Server → Task (Object k)}
    (hname : k ∈ namedKinds → MayHave server k name)
    (hbuild : BuildsOnly (Belongs server name) (build server)) :
    Looks server (ensure name build) := by
  refine Justifies.mono (grounds_ensure (fun _ _ _ h => h) hbuild ?_ ?_) (fun _ h => h)
    fun _ _ _ => trivial
  · exact fun ns t hns _ hk => ⟨hns, .inl (hname hk)⟩
  · exact fun ns o reference t hns ho _ _ _ hk => ⟨ho.1, _, ho.2, hname hk⟩

/-! ## The broker and the legacy kinds -/

theorem looks_reconcileBroker : Looks server reconcileBroker := by
  refine grounds_server_bind ?_
  split
  · exact looks_pure ()
  next hbroker =>
  have hon : server.spec.useMessageBroker = true := by simpa using hbroker
  have hspace := belongs_of_places places_addressSpace server
  refine (looks_ensure (fun hk => absurd hk (by decide)) hspace).bind fun space => ?_
  split
  · exact looks_stop
  next host _ =>
  have huser (password : String) : BuildsOnly (Belongs server Broker.userName)
      (liftM (Broker.messagingUser server password)) :=
    belongs_of_places (places_messagingUser password) server
  refine (looks_ensure (fun hk => absurd hk (by decide)) (buildsOnly_secret huser)).bind
    fun user => ?_
  split
  · exact grounds_fail
  next password _ =>
  refine grounds_server_bind ?_
  have hsecret : BuildsOnly (Belongs server (Broker.secretName server))
      (liftM (Broker.secret server password host)) :=
    belongs_of_places (places_brokerSecret password host) server
  have hname : MayHave server .secret (Broker.secretName server) := .brokerSecret hon
  refine (looks_ensure (fun _ => hname) hsecret).bind fun _ => ?_
  refine Justifies.bind (looks_mapM fun entry hentry => ?_) fun ready => ?_
  · have haddress : BuildsOnly (Belongs server (Broker.addressName entry.1))
        (liftM (entry.2 server)) := belongs_of_places (places_catalogue hentry) server
    exact (looks_ensure (fun hk => absurd hk (by decide)) haddress).bind fun _ => looks_pure _
  · split
    · exact looks_stop
    · exact looks_pure ()

theorem looks_removeLegacy (hk : k ∉ namedKinds) : Looks server (removeLegacy k) := by
  refine (looks_probe k.apiVersion).bind fun served => ?_
  split
  · exact looks_pure ()
  refine grounds_server_bind (grounds_build_bind fun ns _ => ?_)
  have hlist :
      Looks server (liftM (Task.call (.list k ns ("app=" ++ server.anyName))).attempt) := by
    refine grounds_liftM fun t _ => ⟨hk, fun answer => ?_⟩
    exact ⟨List.subset_append_left t _, fun _ _ => trivial⟩
  refine hlist.bind ?_
  rintro (error | objects)
  · dsimp only
    split
    · exact looks_pure ()
    · exact grounds_fail
  · refine looks_forM fun object => ?_
    exact (looks_call (r := .delete k object) trivial).bind fun _ => looks_report

/-! ## The database -/

theorem looks_reconcileClaim (hown : server.spec.externalDB = false) :
    Looks server (reconcileClaim settings (childName server postgresql)) := by
  have hclaim := belongs_of_places (places_claim settings) server
  refine (looks_ensure (fun _ => .claim hown) hclaim).bind fun claim => ?_
  split
  · exact looks_pure ()
  · refine grounds_server_bind (grounds_build_bind fun desired _ => ?_)
    exact looks_applyCorrection.bind fun _ => looks_stopCorrected

theorem looks_reconcileCredentials : Looks server reconcileCredentials := by
  refine grounds_server_bind ?_
  split
  · exact looks_pure ()
  next hneeded =>
  have hneeded' := eq_false_of_ne_true hneeded
  have hname : MayHave server .secret (Database.secretName server) := by
    rw [secretName_eq hneeded']
    exact .databaseSecret (needsSecret_iff.1 hneeded')
  have hsecret (password : String) : BuildsOnly (Belongs server (Database.secretName server))
      (liftM (Database.secret server password)) := by
    rw [secretName_eq hneeded']
    exact belongs_of_places (places_databaseSecret password) server
  have hbuild : BuildsOnly (Belongs server (Database.secretName server)) (do
      let password ← if server.spec.externalDB then pure "" else Task.secret
      Database.secret server password) := by
    split
    · exact hsecret ""
    · exact buildsOnly_secret hsecret
  exact (looks_ensure (fun _ => hname) hbuild).bind fun _ => looks_pure ()

theorem looks_noteDeployment {observed : Option Deployment} : Looks server (do
    noteReady (← (Deployment.isReady observed : Task Bool))) :=
  grounds_build_bind fun _ _ => looks_noteReady

theorem looks_reconcileDatabaseDeployment (hown : server.spec.externalDB = false) :
    Looks server (reconcileDatabaseDeployment settings (childName server postgresql)) := by
  have hbuild := belongs_of_places (places_databaseDeployment settings) server
  refine (looks_ensure (fun _ => .databaseDeployment hown) hbuild).bind fun deployment => ?_
  split
  · exact looks_noteDeployment
  · refine grounds_server_bind (grounds_build_bind fun desired _ => ?_)
    exact looks_correction (looks_correction looks_noteDeployment)

theorem looks_reconcileDatabase : Looks server (reconcileDatabase settings) := by
  refine grounds_server_bind (grounds_server_bind ?_)
  dsimp only
  split
  · next hexternal =>
    have hown : server.spec.externalDB = false := by simpa using hexternal
    refine (looks_reconcileClaim hown).bind fun _ => looks_reconcileCredentials.bind fun _ => ?_
    refine (looks_reconcileDatabaseDeployment hown).bind fun _ => ?_
    have hservice := belongs_of_places places_databaseService server
    exact (looks_ensure (fun _ => .databaseService hown) hservice).bind fun _ => looks_pure ()
  · exact looks_reconcileCredentials.bind fun _ => looks_pure ()

/-! ## The server and its proxy -/

theorem looks_reconcileServerDeployment :
    Looks server (reconcileServerDeployment settings server.anyName) := by
  have hbuild (cookieSecret : String) : BuildsOnly (Belongs server server.anyName)
      (liftM (Frontend.deployment server settings cookieSecret)) :=
    belongs_of_places (places_serverDeployment settings cookieSecret) server
  refine (looks_ensure (fun _ => .serverDeployment) (buildsOnly_secret hbuild)).bind
    fun deployment => ?_
  split
  · exact looks_noteDeployment
  · refine grounds_server_bind (grounds_build_bind fun desired _ => ?_)
    exact looks_correction (looks_correction (looks_correction looks_noteDeployment))

theorem looks_reconcileFrontend : Looks server (reconcileFrontend settings) := by
  refine grounds_server_bind (grounds_server_bind ?_)
  have haccount := belongs_of_places places_serviceAccount server
  have hproxy := belongs_of_places places_proxyService server
  have hservice := belongs_of_places places_serverService server
  have hroute := belongs_of_places places_proxyRoute server
  refine (looks_ensure (fun _ => .serviceAccount) haccount).bind fun _ => ?_
  refine (looks_ensure (fun _ => .proxyService) hproxy).bind fun _ => grounds_server_bind ?_
  refine (looks_ensure (fun _ => .serverService) hservice).bind fun _ => ?_
  refine (looks_ensure (fun _ => .route) hroute).bind fun route => ?_
  exact looks_noteReady.bind fun _ => looks_reconcileServerDeployment

/-! ## Backups and monitoring -/

theorem looks_reconcileBackup {existing : List CronJob} {desired : CronJob} :
    Looks server (reconcileBackup existing desired) := by
  have hrecord {name : String} : Looks server (record .cronJob name) := grounds_record
  refine grounds_build_bind fun name _ => ?_
  split
  · split
    · exact Justifies.bind (looks_call (r := .update .cronJob _) trivial) fun _ => hrecord
    · exact hrecord
  · refine grounds_server_bind ?_
    have hjob : Kind.cronJob ∉ namedKinds := by decide
    refine (looks_createOwned fun hk => absurd hk hjob).bind fun _ => ?_
    exact looks_report.bind fun _ => hrecord

theorem looks_removeBackup {desired : List CronJob} {found : CronJob} :
    Looks server (removeBackup desired found) := by
  have hforget {name : String} : Looks server (forget .cronJob name) := grounds_modify fun _ => rfl
  unfold removeBackup
  split
  · exact looks_pure ()
  · refine (looks_call (r := .delete .cronJob found) trivial).bind fun _ => ?_
    exact hforget.bind fun _ => looks_report

theorem looks_reconcileBackups : Looks server (reconcileBackups settings) := by
  refine grounds_server_bind (grounds_build_bind fun ns hns => ?_)
  refine grounds_build_bind fun desired _ => ?_
  have hjobs : Looks server (do
      let existing ← Task.call (.list .cronJob ns (selector server backup))
      desired.forM (reconcileBackup existing)
      existing.forM (removeBackup desired)) := by
    have hlist : Kind.cronJob ∉ namedKinds := by decide
    refine (looks_call (r := .list .cronJob ns (selector server backup)) hlist).bind
      fun existing => ?_
    refine (looks_forM fun _ => looks_reconcileBackup).bind fun _ => ?_
    exact looks_forM fun _ => looks_removeBackup
  split
  · have haccount : Request.LooksFor server (.get .serviceAccount ns Backup.account) :=
      fun _ => ⟨ObjectMeta.requireNs_eq_ok.1 hns, .inr ⟨rfl, rfl⟩⟩
    refine (looks_call haccount).bind fun account => ?_
    split
    · exact hjobs
    · exact looks_stop.bind fun _ => hjobs
  · exact hjobs

theorem looks_reconcileSpec {name : Server → String} {build : Server → Except Error (Object k)}
    (hname : MayHave server k (name server)) (hbuild : Places name build) :
    Looks server (reconcileSpec build) := by
  refine grounds_server_bind (grounds_build_bind fun desired hdesired => ?_)
  obtain ⟨hplace, hobject⟩ := hbuild server desired hdesired
  have hupsert : Looks server (liftM (Task.createOrUpdate server desired)) := by
    simp only [Task.createOrUpdate, liftM_bind]
    refine grounds_build_bind fun ns hns => grounds_build_bind fun name' hname' => ?_
    obtain rfl : name' = name server :=
      Option.some.inj ((ObjectMeta.requireName_eq_ok.1 hname').symm.trans hobject)
    have hget : Request.LooksFor server (.get k ns (name server)) :=
      fun _ => ⟨ObjectMeta.requireNs_eq_ok.1 hns, .inl hname⟩
    refine (looks_call hget).bind ?_
    rintro (_ | found)
    · simp only [liftM_bind]
      exact (looks_createOwned fun _ => ⟨hplace, _, hobject, hname⟩).bind fun _ => looks_pure _
    · dsimp only
      split
      · exact looks_pure _
      · simp only [liftM_bind]
        exact Justifies.bind (looks_call (r := .update k _) trivial) fun _ => looks_pure _
  exact hupsert.bind fun ensured => grounds_track fun _ _ _ h => h

theorem looks_reconcileMonitoring : Looks server reconcileMonitoring := by
  have hdashboard : Looks server (do
      if ← Task.call (.probe Kind.grafanaDashboard.apiVersion) then
        reconcileSpec Monitoring.grafanaDashboard) := by
    refine (looks_probe _).bind fun served => ?_
    split
    · exact looks_reconcileSpec (.grafanaDashboard rfl) places_grafanaDashboard
    · exact looks_pure ()
  refine (looks_probe _).bind fun served => ?_
  split
  · refine (looks_reconcileSpec (.serviceMonitor rfl) places_serviceMonitor).bind fun _ => ?_
    refine (looks_reconcileSpec (.prometheusRule rfl) places_prometheusRule).bind fun _ => ?_
    exact hdashboard
  · exact hdashboard

/-! ## All steps -/

theorem looks_converge : Looks server (converge settings) := by
  refine looks_reconcileBroker.bind fun _ => ?_
  have hlegacy : Looks server removeLegacyKinds :=
    (looks_removeLegacy (by decide)).bind fun _ => looks_removeLegacy (by decide)
  refine hlegacy.bind fun _ => looks_reconcileDatabase.bind fun _ => ?_
  refine looks_reconcileFrontend.bind fun _ => looks_reconcileBackups.bind fun _ => ?_
  exact looks_reconcileMonitoring

theorem looks_deferToActive : Looks server deferToActive := by
  refine grounds_server_bind ?_
  split
  · exact looks_pure ()
  refine grounds_build_bind fun ns _ => ?_
  have hlist : Kind.unifiedPushServer ∉ namedKinds := by decide
  refine (looks_call (r := .list .unifiedPushServer ns "") hlist).bind fun others => ?_
  split
  · exact looks_stop
  · exact looks_pure ()

end Pass

/-! ## Whole passes -/

theorem mayHave_of_remains {live : Server} (h : server.Remains live)
    (hhas : MayHave live k name) : MayHave server k name := by
  have hwanted := mem_wanted_iff.2 hhas
  rw [Pass.wanted_of_remains h] at hwanted
  exact mem_wanted_iff.1 hwanted

theorem Request.LooksFor.of_remains {live : Server} (h : server.Remains live)
    (hr : r.LooksFor live) : r.LooksFor server := by
  cases r with
  | get k ns name =>
    intro hk
    obtain ⟨hns, hhas⟩ := hr hk
    exact ⟨h.ns ▸ hns, hhas.imp (mayHave_of_remains h) id⟩
  | list k ns selector => exact hr
  | create k o =>
    intro hk
    obtain ⟨hns, name, hname, hhas⟩ := hr hk
    exact ⟨hns.trans h.ns, name, hname, mayHave_of_remains h hhas⟩
  | update | updateStatus | delete | probe => trivial

theorem looks_run : (Pass.run settings server).Grounded
    (fun t r => Told t → r.LooksFor server) (fun _ _ => True) t := by
  have hconverge (live : Server) (hremains : server.Remains live) :
      Pass.Grounds (fun _ r => r.LooksFor server) live (fun _ => True) (fun _ _ => True)
        (Pass.converge settings) :=
    Pass.looks_converge.imp fun _ _ h => h.of_remains hremains
  exact (Pass.grounded_run Pass.statusBlind_remains (fun _ _ => trivial) (fun _ _ _ h => h)
    (fun _ _ _ h => h) Pass.looks_deferToActive hconverge trivial).mono fun _ _ _ => trivial

theorem looks_of_steps {σ : Type} {w : World σ} {s s' : σ}
    {next : Except Error r.Reply → Interaction (Except Error Action)} (htold : Told t)
    (h : Steps w (reconcile settings ns name).run s t (.call r next) s') :
    (t = [] ∧ r = .get .unifiedPushServer ns name) ∨
      ∃ server, Fetches ns name server t ∧ r.LooksFor server :=
  grounds_of_steps (fun _ => looks_run) htold h

end PushOperator
