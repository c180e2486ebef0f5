import PushOperator.Proofs.Interaction.Grounds
import PushOperator.Proofs.Pass.Outcome

/-!
# What a pass writes, and why

Whatever a pass writes is warranted by what it has seen: a child is created as it was built, an
update is a live object of which a little was changed, and a status is that of the server as it was
last fetched or written (`Warrant`). Once a correction has been accepted there are no calls any
more, and this is when the pass asks to be run again after a second. Which cluster gives the
answers, and who else is at work on it, does not matter (`grounded_reconcile`).
-/

namespace PushOperator

open Child

variable {α β : Type} {k : Kind} {settings : Settings} {ns name : String} {server : Server}
  {t : Trace}

/-! ## What a write may be -/

namespace Pass

/-- What is created is what was built. Servers are not created. -/
def Builds (settings : Settings) (server : Server) : (k : Kind) → Object k → Prop
  | .persistentVolumeClaim, o => Database.claim server settings = .ok o
  | .deployment, o =>
    (server.spec.externalDB = false ∧ Database.deployment server settings = .ok o) ∨
    ∃ cookieSecret, Frontend.deployment server settings cookieSecret = .ok o
  | .unifiedPushServer, _ => False
  | _, _ => True

/-- A live child called `name` with one of its drifted fields put right. -/
inductive Corrects (settings : Settings) (server : Server) :
    {k : Kind} → String → Object k → Object k → Prop
  | storage {found desired o : Claim} : server.spec.externalDB = false →
    Database.claim server settings = .ok desired → Claim.storageDrift found desired = some o →
    Corrects settings server (childName server postgresql) found o
  | database {found desired o : Deployment} : server.spec.externalDB = false →
    Database.deployment server settings = .ok desired →
    (Deployment.resourcesDrift found desired = some o ∨
      Deployment.imageDrift found desired settings.postgresContainerName = some o) →
    Corrects settings server (childName server postgresql) found o
  | frontend {found desired o : Deployment} :
    Frontend.deployment server settings "" = .ok desired →
    (Deployment.resourcesDrift found desired = some o ∨
      Deployment.imageDrift found desired settings.upsContainerName = some o ∨
        Deployment.imageDrift found desired settings.oauthProxyContainerName = some o) →
    Corrects settings server server.anyName found o

/-- The kinds of which the whole spec is the operator's. -/
def specKinds : List Kind := [.serviceMonitor, .prometheusRule, .grafanaDashboard]

/-- The kinds of which objects are deleted. -/
def deletedKinds : List Kind := [.deploymentConfig, .imageStream, .cronJob]

/-- What a write comes from, over a server and after a trace. -/
inductive Warrant (settings : Settings) (server : Server) (t : Trace) : Request → Prop
  | create {k : Kind} {o : Object k} (reference : OwnerReference) :
    Builds settings server k o → Warrant settings server t (.create k (o.withOwner reference))
  | correct {k : Kind} {ns name : String} {found o : Object k} : server.metadata.ns = some ns →
    .call (.get k ns name) (.ok (some found)) ∈ t → Corrects settings server name found o →
    Warrant settings server t (.update k o)
  | spec {k : Kind} {ns name : String} {found : Object k} (spec : k.Spec) : k ∈ specKinds →
    .call (.get k ns name) (.ok (some found)) ∈ t →
    Warrant settings server t (.update k { found with spec })
  | job {ns selector : String} {existing : List CronJob} {found desired : CronJob} :
    .call (.list .cronJob ns selector) (.ok existing) ∈ t → found ∈ existing →
    Cluster.Placed ns (Cluster.nameOf desired) desired →
    Warrant settings server t (.update .cronJob (replacement found desired))
  | status (status : Option ServerStatus) :
    Warrant settings server t (.updateStatus .unifiedPushServer { server with status })
  | delete {k : Kind} (o : Object k) : k ∈ deletedKinds → Warrant settings server t (.delete k o)

theorem Warrant.mono {t' : Trace} {r : Request} (h : Warrant settings server t r) (ht : t ⊆ t') :
    Warrant settings server t' r := by
  cases h with
  | create reference hbuilds => exact .create reference hbuilds
  | correct hns hfound hcorrects => exact .correct hns (ht hfound) hcorrects
  | spec spec hk hfound => exact .spec spec hk (ht hfound)
  | job hlisted hfound hplaced => exact .job (ht hlisted) hfound hplaced
  | status status => exact .status status
  | delete o hk => exact .delete o hk

end Pass

/-- The server as a pass knows it: as it was fetched or as a write of its status was answered, and
maybe with another status in mind. -/
inductive Fetched (ns name : String) (t : Trace) : Server → Prop
  | get {server : Server} : .call (.get .unifiedPushServer ns name) (.ok (some server)) ∈ t →
    Fetched ns name t server
  | written {server updated : Server} : Fetched ns name t server →
    .call (.updateStatus .unifiedPushServer server) (.ok updated) ∈ t → Fetched ns name t updated
  | withStatus {server : Server} (status : Option ServerStatus) : Fetched ns name t server →
    Fetched ns name t { server with status }

theorem Fetched.mono {t' : Trace} (h : Fetched ns name t server) (ht : t ⊆ t') :
    Fetched ns name t' server := by
  induction h with
  | get hget => exact .get (ht hget)
  | written _ hwritten ih => exact .written ih (ht hwritten)
  | withStatus status _ ih => exact .withStatus status ih

/-- The kinds of children that are put right field by field. -/
def correctedKinds : List Kind := [.persistentVolumeClaim, .deployment]

theorem not_corrected_of_spec : ∀ k ∈ Pass.specKinds, k ∉ correctedKinds := by decide

theorem not_corrected_of_deleted : ∀ k ∈ Pass.deletedKinds, k ∉ correctedKinds := by decide

/-- A correction that was accepted, of a child that says where it is. -/
def Entry.Corrects : Entry → Prop
  | .call (.update k o) (.ok _) => k ∈ correctedKinds ∧ Pass.placed o.metadata = .ok ()
  | _ => False

/-- A correction was accepted. -/
def Corrected (t : Trace) : Prop := ∃ e ∈ t, e.Corrects

theorem not_corrected_nil : ¬Corrected [] := by
  simp [Corrected]

theorem corrected_append {t' : Trace} : Corrected (t ++ t') ↔ Corrected t ∨ Corrected t' := by
  simp [Corrected, or_and_right, exists_or]

theorem corrected_concat {e : Entry} : Corrected (t ++ [e]) ↔ Corrected t ∨ e.Corrects := by
  rw [corrected_append]
  simp [Corrected]

theorem not_corrects_of_read {r : Request} {a : Except Error r.Reply} (h : r.isWrite = false) :
    ¬(Entry.call r a).Corrects := by
  cases r with
  | get | list | probe => exact id
  | create | update | updateStatus | delete => cases h

/-- A request of a pass over the server of a name: there was no correction before, and if it writes,
that is warranted. -/
def Warranted (settings : Settings) (ns name : String) (t : Trace) (r : Request) : Prop :=
  ¬Corrected t ∧
    (r.isWrite = true → ∃ server, Fetched ns name t server ∧ Pass.Warrant settings server t r)

theorem warranted_read {r : Request} (hclear : ¬Corrected t) (h : r.isWrite = false) :
    Warranted settings ns name t r :=
  ⟨hclear, fun hwrite => by simp [h] at hwrite⟩

variable {known : List Entry}

/-! ## Tasks -/

namespace Task

/-- Where some entries are known, a task over a server asks for what is warranted. It corrects
nothing, and its result is as `post` says. -/
def Warrants (settings : Settings) (ns name : String) (server : Server) (known : List Entry)
    (post : α → Prop) (task : Task α) : Prop :=
  ∀ t, known ⊆ t → ¬Corrected t → Fetched ns name t server →
    task.run.Grounded (Warranted settings ns name)
      (fun r t' => t ⊆ t' ∧ ¬Corrected t' ∧ ∀ a, r = .ok a → post a) t

variable {post : α → Prop}

theorem warrants_pure {a : α} (h : post a) :
    Warrants settings ns name server known post (pure a) := by
  intro t _ hclear _
  refine ⟨List.Subset.refl t, hclear, ?_⟩
  rintro b hb
  exact Except.ok.inj hb ▸ h

theorem Warrants.bind {mid : α → Prop} {post : β → Prop} {x : Task α} {f : α → Task β}
    (hx : Warrants settings ns name server known mid x)
    (hf : ∀ a, mid a → Warrants settings ns name server known post (f a)) :
    Warrants settings ns name server known post (x >>= f) := by
  intro t hknown hclear hfetched
  rw [run_bind]
  refine Interaction.grounded_bind (hx t hknown hclear hfetched) ?_
  rintro (error | a) t₁ ⟨hsub, hclear₁, hmid⟩
  · refine ⟨hsub, hclear₁, ?_⟩
    intro b hb
    cases hb
  · have hknown₁ : known ⊆ t₁ := List.Subset.trans hknown hsub
    refine (hf a (hmid a rfl) t₁ hknown₁ hclear₁ (hfetched.mono hsub)).mono ?_
    rintro r t₂ ⟨hsub₂, hclear₂, hpost⟩
    exact ⟨List.Subset.trans hsub hsub₂, hclear₂, hpost⟩

theorem warrants_build {e : Except Error α} (h : ∀ a, e = .ok a → post a) :
    Warrants settings ns name server known post (liftM e : Task α) :=
  fun t _ hclear _ => ⟨List.Subset.refl t, hclear, h⟩

theorem warrants_secret : Warrants settings ns name server known (fun _ => True) secret := by
  intro t _ hclear _ text
  refine ⟨List.subset_append_left t _, ?_, fun _ _ => trivial⟩
  rw [corrected_concat]
  exact not_or.2 ⟨hclear, id⟩

/-- A call that is no correction. -/
theorem warrants_call (r : Request)
    (hwarrant : r.isWrite = true → Pass.Warrant settings server known r)
    (hcorrects : ∀ a, ¬(Entry.call r a).Corrects) :
    Warrants settings ns name server known (fun _ => True) (call r) := by
  intro t hknown hclear hfetched
  refine ⟨⟨hclear, fun hwrite => ⟨server, hfetched, (hwarrant hwrite).mono hknown⟩⟩, fun a => ?_⟩
  refine ⟨List.subset_append_left t _, ?_, fun _ _ => trivial⟩
  rw [corrected_concat]
  exact not_or.2 ⟨hclear, hcorrects a⟩

/-- What was read is known in what follows. -/
theorem warrants_read_bind {post : β → Prop} {r : Request} {f : r.Reply → Task β}
    (hread : r.isWrite = false)
    (hf : ∀ a, Warrants settings ns name server (.call r (.ok a) :: known) post (f a)) :
    Warrants settings ns name server known post (call r >>= f) := by
  intro t hknown hclear hfetched
  rw [run_bind]
  refine ⟨warranted_read hclear hread, fun a => ?_⟩
  have hsub : t ⊆ t ++ [.call r a] := List.subset_append_left t _
  have hclear' : ¬Corrected (t ++ [.call r a]) := by
    rw [corrected_concat]
    exact not_or.2 ⟨hclear, not_corrects_of_read hread⟩
  cases a with
  | error error =>
    refine ⟨hsub, hclear', ?_⟩
    intro b hb
    cases hb
  | ok a =>
    have hknown' : .call r (.ok a) :: known ⊆ t ++ [.call r (.ok a)] :=
      List.cons_subset.2 ⟨by simp, List.Subset.trans hknown hsub⟩
    refine (hf a _ hknown' hclear' (hfetched.mono hsub)).mono ?_
    rintro result t' ⟨hsub', hclear'', hpost⟩
    exact ⟨List.Subset.trans hsub hsub', hclear'', hpost⟩

theorem warrants_requirePlace (m : ObjectMeta) :
    Warrants settings ns name server known (fun _ => True) (requirePlace m) :=
  (warrants_build fun _ _ => trivial).bind fun _ _ =>
    (warrants_build fun _ _ => trivial).bind fun _ _ => warrants_pure trivial

theorem warrants_createOwned {owner : Server} {desired : Object k}
    (hbuilds : Pass.Builds settings server k desired) :
    Warrants settings ns name server known (fun _ => True) (createOwned owner desired) := by
  refine (warrants_build fun _ _ => trivial).bind fun reference _ => ?_
  have hcreate : Pass.Warrant settings server known (.create k (desired.withOwner reference)) :=
    .create reference hbuilds
  refine (warrants_call (.create k _) (fun _ => hcreate) fun _ => id).bind fun created _ => ?_
  exact (warrants_requirePlace _).bind fun _ _ => warrants_pure trivial

theorem warrants_createOrUpdate {desired : Object k} (hk : k ∈ Pass.specKinds)
    (hbuilds : Pass.Builds settings server k desired) :
    Warrants settings ns name server known (fun _ => True) (createOrUpdate server desired) := by
  refine (warrants_build fun _ _ => trivial).bind fun ns' _ => ?_
  refine (warrants_build fun _ _ => trivial).bind fun name' _ => ?_
  refine warrants_read_bind rfl fun found => ?_
  cases found with
  | none => exact (warrants_createOwned hbuilds).bind fun _ _ => warrants_pure trivial
  | some found =>
    dsimp only
    split
    · exact warrants_pure trivial
    · refine (warrants_call (.update k _) ?_ ?_).bind fun _ _ => warrants_pure trivial
      · exact fun _ => .spec desired.spec hk List.mem_cons_self
      · -- The kinds of which the spec is replaced are none of those that are corrected.
        rintro (error | updated) hcorrects
        · exact hcorrects
        · exact not_corrected_of_spec k hk hcorrects.1

end Task

/-! ## Steps -/

namespace Pass

/-- Where some entries are known, a step over a server asks for what is warranted. It leaves the
server alone and halts for a second exactly after a correction. -/
def Warrants (settings : Settings) (ns name : String) (server : Server) (known : List Entry)
    (pass : Pass α) : Prop :=
  ∀ st t, st.server = server → known ⊆ t → ¬Corrected t → Fetched ns name t server →
    (pass.exec st).Grounded (Warranted settings ns name)
      (fun p t' => p.2.server = server ∧ t ⊆ t' ∧
        (Corrected t' ↔ p.1 = .error (.early (.requeue 1)))) t

theorem warrants_pure (a : α) : Warrants settings ns name server known (pure a) := by
  intro st t hserver _ hclear _
  refine ⟨hserver, List.Subset.refl t, ?_⟩
  simp [hclear]

theorem Warrants.bind {x : Pass α} {f : α → Pass β}
    (hx : Warrants settings ns name server known x)
    (hf : ∀ a, Warrants settings ns name server known (f a)) :
    Warrants settings ns name server known (x >>= f) := by
  intro st t hserver hknown hclear hfetched
  rw [exec_bind]
  refine Interaction.grounded_bind (hx st t hserver hknown hclear hfetched) ?_
  rintro ⟨halt | a, st₁⟩ t₁ ⟨hserver₁, hsub, hcorrected⟩
  · refine ⟨hserver₁, hsub, ?_⟩
    simpa using hcorrected
  · have hclear₁ : ¬Corrected t₁ := mt hcorrected.1 (by simp)
    have hknown₁ : known ⊆ t₁ := List.Subset.trans hknown hsub
    refine (hf a st₁ t₁ hserver₁ hknown₁ hclear₁ (hfetched.mono hsub)).mono ?_
    rintro p t₂ ⟨hserver₂, hsub₂, hcorrected₂⟩
    exact ⟨hserver₂, List.Subset.trans hsub hsub₂, hcorrected₂⟩

theorem warrants_server_bind {f : Server → Pass β}
    (hf : Warrants settings ns name server known (f server)) :
    Warrants settings ns name server known (Pass.server >>= f) := by
  rintro st t rfl
  exact hf st t rfl

/-- A task in front of a step. -/
theorem warrants_task_bind {post : α → Prop} {task : Task α} {f : α → Pass β}
    (htask : Task.Warrants settings ns name server known post task)
    (hf : ∀ a, post a → Warrants settings ns name server known (f a)) :
    Warrants settings ns name server known (liftM task >>= f) := by
  intro st t hserver hknown hclear hfetched
  rw [exec_bind, exec_liftM, Interaction.bind_assoc]
  refine Interaction.grounded_bind (htask t hknown hclear hfetched) ?_
  rintro (error | a) t₁ ⟨hsub, hclear₁, hpost⟩
  · refine ⟨hserver, hsub, ?_⟩
    simp [hclear₁]
  · refine (hf a (hpost a rfl) st t₁ hserver (List.Subset.trans hknown hsub) hclear₁
      (hfetched.mono hsub)).mono ?_
    rintro p t₂ ⟨hserver₂, hsub₂, hcorrected₂⟩
    exact ⟨hserver₂, List.Subset.trans hsub hsub₂, hcorrected₂⟩

theorem warrants_build_bind {e : Except Error α} {f : α → Pass β}
    (hf : ∀ a, e = .ok a → Warrants settings ns name server known (f a)) :
    Warrants settings ns name server known (liftM (liftM e : Task α) >>= f) :=
  warrants_task_bind (Task.warrants_build fun _ ha => ha) hf

theorem warrants_read_bind {r : Request} {f : r.Reply → Pass β} (hread : r.isWrite = false)
    (hf : ∀ a, Warrants settings ns name server (.call r (.ok a) :: known) (f a)) :
    Warrants settings ns name server known (liftM (Task.call r) >>= f) := by
  intro st t hserver hknown hclear hfetched
  rw [exec_bind, exec_liftM]
  refine ⟨warranted_read hclear hread, fun a => ?_⟩
  have hsub : t ⊆ t ++ [.call r a] := List.subset_append_left t _
  have hclear' : ¬Corrected (t ++ [.call r a]) := by
    rw [corrected_concat]
    exact not_or.2 ⟨hclear, not_corrects_of_read hread⟩
  cases a with
  | error error =>
    refine ⟨hserver, hsub, ?_⟩
    simp [hclear']
  | ok a =>
    have hknown' : .call r (.ok a) :: known ⊆ t ++ [.call r (.ok a)] :=
      List.cons_subset.2 ⟨by simp, List.Subset.trans hknown hsub⟩
    refine (hf a st _ hserver hknown' hclear' (hfetched.mono hsub)).mono ?_
    rintro p t' ⟨hserver', hsub', hcorrected⟩
    exact ⟨hserver', List.Subset.trans hsub hsub', hcorrected⟩

theorem warrants_modify {f : PassState → PassState} (hserver : ∀ st, (f st).server = st.server) :
    Warrants settings ns name server known (modify f : Pass Unit) := by
  intro st t hst _ hclear _
  refine ⟨(hserver st).trans hst, List.Subset.refl t, ?_⟩
  simp [hclear]

theorem warrants_record {name' : String} :
    Warrants settings ns name server known (record k name') :=
  warrants_modify fun _ => rfl

theorem warrants_forget {name' : String} :
    Warrants settings ns name server known (forget k name') :=
  warrants_modify fun _ => rfl

theorem warrants_noteReady {ready : Bool} :
    Warrants settings ns name server known (noteReady ready) :=
  warrants_modify fun _ => rfl

/-- Halting for other reasons than a correction. -/
theorem warrants_throw {halt : Halt} (h : halt ≠ .early (.requeue 1)) :
    Warrants settings ns name server known (throw halt : Pass α) := by
  intro st t hserver _ hclear _
  refine ⟨hserver, List.Subset.refl t, iff_of_false hclear ?_⟩
  intro heq
  exact h (Except.error.inj heq)

theorem warrants_fail {error : Error} :
    Warrants settings ns name server known (throw (.failed error) : Pass α) :=
  warrants_throw (by simp)

theorem warrants_stop {action : Action} (h : action ≠ .requeue 1) :
    Warrants settings ns name server known (stop action : Pass α) :=
  warrants_throw fun heq => h (Halt.early.inj heq)

theorem warrants_report {reason : Reason} {message : String} :
    Warrants settings ns name server known (report reason message) := by
  intro st t hserver _ hclear _
  refine ⟨hserver, List.subset_append_left t _, ?_⟩
  rw [corrected_concat]
  exact iff_of_false (not_or.2 ⟨hclear, id⟩) (by simp)

theorem warrants_forM {l : List α} {f : α → Pass Unit}
    (hf : ∀ a ∈ l, Warrants settings ns name server known (f a)) :
    Warrants settings ns name server known (l.forM f) := by
  induction l with
  | nil => exact warrants_pure ()
  | cons a l ih =>
    refine (hf a List.mem_cons_self).bind fun _ => ih fun b hb => ?_
    exact hf b (List.mem_cons_of_mem a hb)

theorem warrants_mapM {l : List α} {f : α → Pass β}
    (hf : ∀ a ∈ l, Warrants settings ns name server known (f a)) :
    Warrants settings ns name server known (l.mapM f) := by
  induction l with
  | nil => exact warrants_pure []
  | cons a l ih =>
    rw [List.mapM_cons]
    refine (hf a List.mem_cons_self).bind fun b => ?_
    exact (ih fun b hb => hf b (List.mem_cons_of_mem a hb)).bind fun bs => warrants_pure (b :: bs)

theorem warrants_track (ensured : Ensured k) :
    Warrants settings ns name server known (track ensured) := by
  refine warrants_build_bind fun name' _ => warrants_record.bind fun _ => ?_
  split
  · exact warrants_report
  · exact warrants_pure ()

/-! ## Making sure of one child, and putting it right -/

theorem liftM_bind (x : Task α) (f : α → Task β) :
    (liftM (x >>= f) : Pass β) = liftM x >>= fun a => liftM (f a) := by
  refine congrArg ExceptT.mk (funext fun st => ?_)
  show ((x >>= f).run.bind _) = (liftM x >>= fun a => (liftM (f a) : Pass β)).exec st
  rw [Task.run_bind, exec_bind, exec_liftM, Interaction.bind_assoc, Interaction.bind_assoc]
  refine congrArg (Interaction.bind x.run) (funext fun r => ?_)
  cases r <;> rfl

/-- A child that was built may be created, and one that was found is known to be there. -/
theorem warrants_ensure_bind {name' : String} {build : Server → Task (Object k)}
    {f : Ensured k → Pass β}
    (hbuild : ∀ known, Task.Warrants settings ns name server known (Builds settings server k)
      (build server))
    (hcreated : ∀ o known, Warrants settings ns name server known (f (.created o)))
    (hfound : ∀ found ns', server.metadata.ns = some ns' →
      Warrants settings ns name server (.call (.get k ns' name') (.ok (some found)) :: known)
        (f (.found found))) :
    Warrants settings ns name server known (ensure name' build >>= f) := by
  simp only [ensure, Task.ensureExists, liftM_bind, bind_assoc, pure_bind]
  refine warrants_server_bind (warrants_build_bind fun ns' hns => warrants_read_bind rfl ?_)
  rintro (_ | found)
  · simp only [liftM_bind, bind_assoc]
    refine warrants_task_bind (hbuild _) fun desired hbuilds => ?_
    refine warrants_task_bind (Task.warrants_createOwned hbuilds) fun o _ => ?_
    exact (warrants_track _).bind fun _ => hcreated o _
  · exact (warrants_track _).bind fun _ => hfound found ns' (ObjectMeta.requireNs_eq_ok.1 hns)

theorem warrants_ensure {name' : String} {build : Server → Task (Object k)}
    (hbuild : ∀ known, Task.Warrants settings ns name server known (Builds settings server k)
      (build server)) :
    Warrants settings ns name server known (ensure name' build) := by
  rw [← bind_pure (ensure name' build)]
  exact warrants_ensure_bind hbuild (fun o _ => warrants_pure _) fun found _ _ => warrants_pure _

/-- A correction that is accepted ends the pass; without one it goes on. -/
theorem warrants_correction {name' ns' what : String} {found : Object k}
    {corrected : Option (Object k)} {f : Unit → Pass α} (hk : k ∈ correctedKinds)
    (hns : server.metadata.ns = some ns')
    (hknown : .call (.get k ns' name') (.ok (some found)) ∈ known)
    (hcorrects : ∀ o, corrected = some o → Corrects settings server name' found o)
    (hf : Warrants settings ns name server known (f ())) :
    Warrants settings ns name server known (do
      let did ← (Task.applyCorrection corrected : Task Bool)
      stopCorrected did k name' what >>= f) := by
  cases corrected with
  | none => exact hf
  | some o =>
    intro st t hserver hsub hclear hfetched
    rw [exec_bind, exec_liftM, Interaction.bind_assoc]
    refine ⟨⟨hclear, fun _ => ⟨server, hfetched, ?_⟩⟩, fun answer => ?_⟩
    · exact .correct hns (hsub hknown) (hcorrects o rfl)
    have hsub' : t ⊆ t ++ [.call (.update k o) answer] := List.subset_append_left t _
    rcases answer with error | updated
    · refine ⟨hserver, hsub', ?_⟩
      rw [corrected_concat]
      exact iff_of_false (not_or.2 ⟨hclear, id⟩) (by simp)
    -- What is left after the update is to see where the child is, and to report.
    show (Interaction.bind (Task.requirePlace o.metadata >>= fun _ => pure true : Task Bool).run
      _).Grounded _ _ _
    rw [Task.run_bind, run_requirePlace]
    cases hplaced : placed o.metadata with
    | error error =>
      refine ⟨hserver, hsub', ?_⟩
      rw [corrected_concat]
      refine iff_of_false (not_or.2 ⟨hclear, fun hdid => ?_⟩) (by simp)
      rw [hdid.2] at hplaced
      cases hplaced
    | ok u =>
      refine ⟨hserver, List.Subset.trans hsub' (List.subset_append_left _ _), ?_⟩
      rw [corrected_concat, corrected_concat]
      exact iff_of_true (.inl (.inr ⟨hk, hplaced⟩)) rfl

theorem warrants_lastCorrection {name' ns' what : String} {found : Object k}
    {corrected : Option (Object k)} (hk : k ∈ correctedKinds)
    (hns : server.metadata.ns = some ns')
    (hknown : .call (.get k ns' name') (.ok (some found)) ∈ known)
    (hcorrects : ∀ o, corrected = some o → Corrects settings server name' found o) :
    Warrants settings ns name server known (do
      stopCorrected (← (Task.applyCorrection corrected : Task Bool)) k name' what) := by
  have hthen : Warrants settings ns name server known (do
      let did ← (Task.applyCorrection corrected : Task Bool)
      stopCorrected did k name' what >>= pure) :=
    warrants_correction hk hns hknown hcorrects (warrants_pure ())
  simpa only [bind_pure] using hthen

end Pass

end PushOperator
