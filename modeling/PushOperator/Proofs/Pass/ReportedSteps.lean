import PushOperator.Proofs.Cluster.Versions
import PushOperator.Proofs.Pass.Backups
import PushOperator.Proofs.Pass.Reports

/-!
# Every step reports what it changes

Each step of a pass over a server in a namespace asks for nothing outside of that namespace, and has
reported all of its changes in the end.
-/

namespace PushOperator

open Child Cluster Interaction

variable {α β : Type} {k : Kind} {settings : Settings} {ns : String} {server : Server}
  {owed : Option Entry}

/-! ## Children that are built -/

namespace Task

/-- A task that builds a child into the namespace. -/
abbrev BuildsIn (ns : String) (build : Task (Object k)) : Prop :=
  Reports ns none (fun o owed => owed = none ∧ ∃ name, Placed ns name o) build

theorem buildsIn_of_places {name : Server → String} {build : Server → Except Error (Object k)}
    (h : Places name build) (hns : server.metadata.ns = some ns) :
    BuildsIn ns (liftM (build server) : Task (Object k)) :=
  reports_build fun _ ho => ⟨rfl, name server, h.placed hns ho⟩

theorem buildsIn_secret {build : String → Task (Object k)}
    (h : ∀ text, BuildsIn ns (build text)) : BuildsIn ns (secret >>= build) := by
  refine reports_secret.bind ?_
  rintro text _ rfl
  exact h text

end Task

namespace Pass

/-! ## The broker and the legacy kinds -/

theorem tidy_reconcileBroker (hserver : nsOf server = ns) :
    Tidy ns server reconcileBroker := by
  refine reports_server_bind ?_
  split
  · exact tidy_pure ()
  refine (reports_ensure hserver (Task.buildsIn_of_places places_addressSpace)).bind ?_
  rintro space _ ⟨rfl, -⟩
  split
  · exact reports_stop
  next host _ =>
  refine (reports_ensure hserver fun hns => Task.buildsIn_secret fun password =>
    Task.buildsIn_of_places (places_messagingUser password) hns).bind ?_
  rintro user _ ⟨rfl, -⟩
  split
  · exact reports_throw
  next password _ =>
  refine reports_server_bind ?_
  refine (reports_ensure hserver
    (Task.buildsIn_of_places (places_brokerSecret password host))).bind ?_
  rintro _ _ ⟨rfl, -⟩
  refine Tidy.bind (tidy_mapM fun entry hentry => ?_) fun ready => ?_
  · refine (reports_ensure hserver (Task.buildsIn_of_places (places_catalogue hentry))).bind ?_
    rintro _ _ ⟨rfl, -⟩
    exact tidy_pure _
  · split
    · exact reports_stop
    · exact tidy_pure ()

theorem tidy_removeLegacyObject {object : Object k} (hk : k ≠ .cronJob)
    (hobject : nsOf object = ns) : Tidy ns server (removeLegacyObject object) := by
  refine (reports_liftM (Task.reports_call (r := .delete k object) hobject)).bind ?_
  rintro _ _ ⟨rfl, -⟩
  rw [owed_of_due rfl rfl]
  exact reports_report (by simp [Notices.TellsOf, seenChanges, changes, hk])

theorem tidy_removeLegacy (hserver : nsOf server = ns) (hk : k ≠ .cronJob) :
    Tidy ns server (removeLegacy k) := by
  refine reports_call_bind (r := .probe k.apiVersion) trivial (fun _ => rfl) fun served _ => ?_
  split
  · exact tidy_pure ()
  refine reports_server_bind (reports_build_bind fun ns' hns => ?_)
  obtain rfl : ns' = ns :=
    (nsOf_of_eq_some (ObjectMeta.requireNs_eq_ok.1 hns)).symm.trans hserver
  have hlist : Reports ns' server none (fun answer owed => owed = none ∧
        ∀ objects, answer = .ok objects → ∀ o ∈ objects, nsOf o = ns')
      (liftM (Task.call (.list k ns' ("app=" ++ server.anyName))).attempt) := by
    refine reports_liftM ⟨rfl, rfl, ?_⟩
    rintro (error | objects) ha
    · exact ⟨rfl, by simp⟩
    · refine ⟨rfl, ?_⟩
      rintro _ ⟨⟩
      exact ha
  refine hlist.bind ?_
  rintro (error | objects) _ ⟨rfl, hobjects⟩
  · dsimp only
    split
    · exact tidy_pure ()
    · exact reports_throw
  · exact tidy_forM fun object hobject =>
      tidy_removeLegacyObject hk (hobjects objects rfl object (List.mem_of_mem_filter hobject))

theorem tidy_removeLegacyKinds (hserver : nsOf server = ns) : Tidy ns server removeLegacyKinds :=
  (tidy_removeLegacy hserver (by decide)).bind fun _ => tidy_removeLegacy hserver (by decide)

/-! ## The database -/

theorem tidy_reconcileClaim (hserver : nsOf server = ns) :
    Tidy ns server (reconcileClaim settings (childName server postgresql)) := by
  refine (reports_ensure hserver (Task.buildsIn_of_places (places_claim settings))).bind ?_
  rintro claim _ ⟨rfl, hfound⟩
  split
  · exact tidy_pure ()
  next found hobserved =>
  refine reports_server_bind (reports_build_bind fun desired _ => ?_)
  exact tidy_lastCorrection (by decide) (hfound found hobserved) (by decide)
    fun o => Claim.metadata_of_storageDrift

theorem tidy_reconcileCredentials (hserver : nsOf server = ns) :
    Tidy ns server reconcileCredentials := by
  refine reports_server_bind ?_
  split
  · exact tidy_pure ()
  have hbuild (hns : server.metadata.ns = some ns) : Task.BuildsIn ns (do
      let password ← if server.spec.externalDB then pure "" else Task.secret
      Database.secret server password) := by
    split
    · exact Task.buildsIn_of_places (places_databaseSecret "") hns
    · exact Task.buildsIn_secret fun password =>
        Task.buildsIn_of_places (places_databaseSecret password) hns
  refine (reports_ensure hserver hbuild).bind ?_
  rintro _ _ ⟨rfl, -⟩
  exact tidy_pure ()

theorem tidy_noteDeployment {observed : Option Deployment} : Tidy ns server (do
    noteReady (← (Deployment.isReady observed : Task Bool))) :=
  reports_build_bind fun _ _ => reports_noteReady

theorem tidy_reconcileDatabaseDeployment (hserver : nsOf server = ns) :
    Tidy ns server (reconcileDatabaseDeployment settings (childName server postgresql)) := by
  refine (reports_ensure hserver
    (Task.buildsIn_of_places (places_databaseDeployment settings))).bind ?_
  rintro deployment _ ⟨rfl, hfound⟩
  split
  · exact tidy_noteDeployment
  next found hobserved =>
  have hplace := hfound found hobserved
  refine reports_server_bind (reports_build_bind fun desired _ => ?_)
  refine reports_correction (by decide) hplace (by decide)
    (fun _ => Deployment.metadata_of_resourcesDrift) ?_
  exact reports_correction (by decide) hplace (by decide)
    (fun _ => Deployment.metadata_of_imageDrift) tidy_noteDeployment

theorem tidy_reconcileDatabase (hserver : nsOf server = ns) :
    Tidy ns server (reconcileDatabase settings) := by
  refine reports_server_bind (reports_server_bind ?_)
  dsimp only
  split
  · refine (tidy_reconcileClaim hserver).bind fun _ => ?_
    refine (tidy_reconcileCredentials hserver).bind fun _ => ?_
    refine (tidy_reconcileDatabaseDeployment hserver).bind fun _ => ?_
    refine (reports_ensure hserver (Task.buildsIn_of_places places_databaseService)).bind ?_
    rintro _ _ ⟨rfl, -⟩
    exact tidy_pure ()
  · exact (tidy_reconcileCredentials hserver).bind fun _ => tidy_pure ()

/-! ## The server and its proxy -/

theorem tidy_reconcileServerDeployment (hserver : nsOf server = ns) :
    Tidy ns server (reconcileServerDeployment settings server.anyName) := by
  refine (reports_ensure hserver fun hns => Task.buildsIn_secret fun cookieSecret =>
    Task.buildsIn_of_places (places_serverDeployment settings cookieSecret) hns).bind ?_
  rintro deployment _ ⟨rfl, hfound⟩
  split
  · exact tidy_noteDeployment
  next found hobserved =>
  have hplace := hfound found hobserved
  refine reports_server_bind (reports_build_bind fun desired _ => ?_)
  refine reports_correction (by decide) hplace (by decide)
    (fun _ => Deployment.metadata_of_resourcesDrift) ?_
  refine reports_correction (by decide) hplace (by decide)
    (fun _ => Deployment.metadata_of_imageDrift) ?_
  exact reports_correction (by decide) hplace (by decide)
    (fun _ => Deployment.metadata_of_imageDrift) tidy_noteDeployment

theorem tidy_reconcileFrontend (hserver : nsOf server = ns) :
    Tidy ns server (reconcileFrontend settings) := by
  refine reports_server_bind (reports_server_bind ?_)
  refine (reports_ensure hserver (Task.buildsIn_of_places places_serviceAccount)).bind ?_
  rintro _ _ ⟨rfl, -⟩
  refine (reports_ensure hserver (Task.buildsIn_of_places places_proxyService)).bind ?_
  rintro _ _ ⟨rfl, -⟩
  refine reports_server_bind ?_
  refine (reports_ensure hserver (Task.buildsIn_of_places places_serverService)).bind ?_
  rintro _ _ ⟨rfl, -⟩
  refine (reports_ensure hserver (Task.buildsIn_of_places places_proxyRoute)).bind ?_
  rintro route _ ⟨rfl, -⟩
  exact Tidy.bind reports_noteReady fun _ => tidy_reconcileServerDeployment hserver

/-! ## Backups and monitoring -/

theorem tidy_reconcileBackup {existing : List CronJob} {desired : CronJob}
    (hplaced : Placed ns (nameOf desired) desired) :
    Tidy ns server (reconcileBackup existing desired) := by
  have hrecord {name : String} : Tidy ns server (record .cronJob name) := reports_record
  refine reports_build_bind fun name hname => ?_
  split
  · next found _ =>
    split
    · have hinside : Request.Inside ns (.update .cronJob (replacement found desired)) :=
        hplaced.nsOf (o := replacement found desired)
      exact reports_call_bind hinside (fun _ => rfl) fun _ _ => hrecord
    · exact hrecord
  · refine reports_server_bind ?_
    refine (reports_liftM (Task.reports_createOwned hplaced)).bind ?_
    rintro created _ ⟨howes, hcreated⟩
    have hname' : created.anyName = name := by
      rw [anyName_of_name hcreated, nameOf, ObjectMeta.requireName_eq_ok.1 hname, Option.getD_some]
    cases howes with
    | created o _ _ =>
      have htells : seenChanges.TellsOf (.call (.create .cronJob o) (.ok created))
          { reason := .childCreated, message := "Created CronJob " ++ name } := by
        rw [← hname']
        exact rfl
      refine (reports_report htells).bind ?_
      rintro _ _ rfl
      exact hrecord

theorem tidy_removeBackup {desired : List CronJob} {found : CronJob} (hfound : nsOf found = ns) :
    Tidy ns server (removeBackup desired found) := by
  unfold removeBackup
  split
  · exact tidy_pure ()
  · refine (reports_liftM (Task.reports_call (r := .delete .cronJob found) hfound)).bind ?_
    rintro _ _ ⟨rfl, -⟩
    rw [owed_of_due rfl rfl]
    refine (reports_forget).bind ?_
    rintro _ _ rfl
    exact reports_report rfl

theorem tidy_reconcileBackups (hserver : nsOf server = ns) :
    Tidy ns server (reconcileBackups settings) := by
  refine reports_server_bind (reports_build_bind fun ns' hns => ?_)
  have hns' := ObjectMeta.requireNs_eq_ok.1 hns
  obtain rfl : ns' = ns := (nsOf_of_eq_some hns').symm.trans hserver
  refine reports_build_bind fun desired hdesired => ?_
  have hjobs : Tidy ns' server (do
      let existing ← Task.call (.list .cronJob ns' (selector server backup))
      desired.forM (reconcileBackup existing)
      existing.forM (removeBackup desired)) := by
    refine reports_call_bind (r := .list .cronJob ns' (selector server backup)) rfl
      (fun _ => rfl) fun existing hexisting => ?_
    refine (tidy_forM fun job hjob => ?_).bind fun _ => tidy_forM fun found hfound => ?_
    · exact tidy_reconcileBackup (placed_cronJobs hdesired hns' job hjob)
    · exact tidy_removeBackup (hexisting found hfound)
  split
  · refine reports_call_bind (r := .get .serviceAccount ns' Backup.account) rfl
      (fun _ => rfl) fun account _ => ?_
    split
    · exact hjobs
    · exact Tidy.bind reports_stop fun _ => hjobs
  · exact hjobs

theorem tidy_reconcileSpec {name : Server → String} {build : Server → Except Error (Object k)}
    (hserver : nsOf server = ns) (hk : k ∉ correctedKinds) (hbuild : Places name build) :
    Tidy ns server (reconcileSpec build) := by
  refine reports_server_bind (reports_build_bind fun desired hdesired => ?_)
  refine (reports_liftM (Task.reports_createOrUpdate hserver hk fun hns =>
    hbuild.placed hns hdesired)).bind ?_
  intro ensured owed howes
  exact (reports_track howes).mono fun _ _ h => h.1

theorem tidy_reconcileMonitoring (hserver : nsOf server = ns) :
    Tidy ns server reconcileMonitoring := by
  have hdashboard : Tidy ns server (do
      if ← Task.call (.probe Kind.grafanaDashboard.apiVersion) then
        reconcileSpec Monitoring.grafanaDashboard) := by
    refine reports_call_bind (r := .probe _) trivial (fun _ => rfl) fun served _ => ?_
    split
    · exact tidy_reconcileSpec hserver (by decide) places_grafanaDashboard
    · exact tidy_pure ()
  refine reports_call_bind (r := .probe _) trivial (fun _ => rfl) fun served _ => ?_
  split
  · refine (tidy_reconcileSpec hserver (by decide) places_serviceMonitor).bind fun _ => ?_
    refine (tidy_reconcileSpec hserver (by decide) places_prometheusRule).bind fun _ => ?_
    exact hdashboard
  · exact hdashboard

/-! ## All steps -/

theorem tidy_converge (hserver : nsOf server = ns) : Tidy ns server (converge settings) := by
  refine (tidy_reconcileBroker hserver).bind fun _ => ?_
  refine (tidy_removeLegacyKinds hserver).bind fun _ => ?_
  refine (tidy_reconcileDatabase hserver).bind fun _ => ?_
  refine (tidy_reconcileFrontend hserver).bind fun _ => ?_
  exact (tidy_reconcileBackups hserver).bind fun _ => tidy_reconcileMonitoring hserver

theorem tidy_deferToActive (hserver : nsOf server = ns) : Tidy ns server deferToActive := by
  refine reports_server_bind ?_
  split
  · exact tidy_pure ()
  refine reports_build_bind fun ns' hns => ?_
  obtain rfl : ns' = ns :=
    (nsOf_of_eq_some (ObjectMeta.requireNs_eq_ok.1 hns)).symm.trans hserver
  refine reports_call_bind (r := .list .unifiedPushServer ns' "") rfl (fun _ => rfl)
    fun others _ => ?_
  split
  · exact reports_stop
  · exact tidy_pure ()

/-! ## Whole passes -/

/-- A part of a pass that leaves nothing to report and keeps to its namespace, whichever server it
has in mind. -/
def StaysIn (ns : String) (pass : Pass α) : Prop :=
  ∀ st, nsOf st.server = ns → (pass.exec st).Reports (insideOf ns) seenChanges
    (fun p owed => owed = none ∧ nsOf p.2.server = ns) none

theorem staysIn_of_tidy {pass : Pass α} (h : ∀ server, nsOf server = ns → Tidy ns server pass) :
    StaysIn ns pass := by
  intro st hserver
  refine (h st.server hserver st rfl).mono ?_
  rintro ⟨halt | a, st'⟩ owed ⟨hsame, howed⟩
  · exact ⟨howed, hsame ▸ hserver⟩
  · exact ⟨howed, hsame ▸ hserver⟩

theorem StaysIn.bind {x : Pass α} {f : α → Pass β} (hx : StaysIn ns x)
    (hf : ∀ a, StaysIn ns (f a)) : StaysIn ns (x >>= f) := by
  intro st hserver
  rw [exec_bind]
  refine Interaction.reports_bind (hx st hserver) ?_
  rintro ⟨halt | a, st'⟩ _ ⟨rfl, hserver'⟩
  · exact ⟨rfl, hserver'⟩
  · exact hf a st' hserver'

theorem staysIn_persist : StaysIn ns persist := by
  intro st hserver
  rw [exec_persist]
  split
  · exact ⟨rfl, hserver⟩
  · refine ⟨rfl, hserver, ?_⟩
    rintro (error | updated) hanswer
    · exact ⟨rfl, hserver⟩
    · have hupdated : nsOf updated = ns := Eq.trans hanswer hserver
      rw [owed_of_not_due rfl]
      dsimp only
      split
      · exact ⟨rfl, hupdated⟩
      · exact ⟨rfl, hserver⟩

theorem staysIn_start : StaysIn ns start := by
  intro st hserver
  rw [exec_start]
  split
  · next hnew =>
    refine staysIn_persist { st with server := Server.start st.server } ?_
    show nsOf (Server.start st.server) = ns
    unfold Server.start
    rw [if_pos hnew]
    exact hserver
  · exact ⟨rfl, hserver⟩

theorem staysIn_succeed : StaysIn ns succeed := fun st hserver =>
  staysIn_persist { st with
    server := Server.succeed st.server st.ready st.children
    children := ∅ } hserver

theorem staysIn_body (settings : Settings) : StaysIn ns (body settings) := by
  rw [body_eq]
  refine (staysIn_of_tidy fun server => tidy_deferToActive).bind fun _ => ?_
  refine staysIn_start.bind fun _ => ?_
  refine (staysIn_of_tidy fun server => tidy_converge).bind fun _ => ?_
  exact staysIn_succeed.bind fun _ _ hserver => ⟨rfl, hserver⟩

/-- What a failed pass has left to do stays in the namespace as well. -/
theorem inside_conclude {error : Error} {st : PassState} (hserver : nsOf st.server = ns) :
    (conclude error st).Obeys (insideOf ns) fun _ => True := by
  have hpersist := staysIn_persist { st with server := Server.fail st.server error } hserver
  exact Interaction.obeys_bind_iff.2 (hpersist.obeys.mono (fun _ h => h) (fun _ _ h => h)
    fun _ _ => trivial)

theorem inside_run (hserver : nsOf server = ns) :
    (run settings server).Obeys (insideOf ns) fun _ => True := by
  rw [run_eq, Interaction.obeys_bind_iff]
  refine (staysIn_body settings { server, stored := server.status } hserver).obeys.mono
    (fun _ h => h) (fun _ _ h => h) ?_
  rintro ⟨(error | action) | action, st⟩ ⟨_, -, hserver'⟩
  · exact inside_conclude hserver'
  · exact trivial
  · exact trivial

end Pass

/-- A cluster whose objects are where they are stored answers with what is in its place. -/
theorem answeredInPlace_of_flaky {r : Request} {a : Except Error r.Reply} {c c' : Cluster}
    (hc : c.Keyed) (h : flaky r c a c') : r.AnsweredInPlace a := by
  cases a with
  | error error => cases r <;> trivial
  | ok reply =>
    have hanswer := flaky_ok_iff.1 h
    cases r with
    | get k ns name =>
      cases reply with
      | none => trivial
      | some o => exact (inPlace_of_flaky hc h :)
    | updateStatus k o => exact (inPlace_of_flaky hc h :).1
    | list k ns selector =>
      obtain ⟨rfl, -⟩ := answer_list.1 hanswer
      intro o ho
      obtain ⟨name, hget⟩ := mem_values_objects.1 (List.mem_filter.1 ho).1
      exact (hc k ns name o hget).1
    | create k o =>
      obtain ⟨-, rfl, -⟩ := answer_create.1 hanswer
      exact ⟨rfl, rfl⟩
    | update | delete | probe => trivial

theorem honors_insideOf (ns : String) : Honors flaky (insideOf ns) Keyed :=
  fun _ _ _ _ hc _ h => ⟨answeredInPlace_of_flaky hc h, (becomes_of_flaky hc h).keyed hc⟩

/-- Whatever a pass in a namespace asks for is in the namespace. -/
theorem inside_of_reconcile {name : String} :
    (reconcile settings ns name).run.Obeys (insideOf ns) fun _ => True := by
  cases hwatched : settings.watches ns with
  | false =>
    rw [run_reconcile_of_unwatched hwatched]
    trivial
  | true =>
    rw [run_reconcile hwatched]
    refine ⟨rfl, ?_⟩
    rintro (error | _ | server) hanswer
    · trivial
    · trivial
    · refine Interaction.obeys_bind_iff.2 ?_
      exact (Pass.inside_run hanswer.1).mono (fun _ h => h) (fun _ _ h => h) fun _ _ => trivial

end PushOperator
