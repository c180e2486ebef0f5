import PushOperator.Pass.Run
import PushOperator.Proofs.Child.Explains
import PushOperator.Proofs.Interaction.Heeds
import PushOperator.Proofs.Pass.Completes
import PushOperator.Proofs.Pass.Legacy
import PushOperator.Proofs.Registry

/-!
# What a pass heeds

A part of a pass fails when a call is refused, when a child can not be built, when the broker user
has no password and when a deployment has failed. `flaw` says which answers these are, and the rules
here follow the way in which parts are put together: no part passes over such an answer. What a part
records on the way it records once.
-/

namespace PushOperator

open Child

/-- The listing of legacy objects may be refused because there is no such kind. -/
def Request.Tolerates : Request → Error → Prop
  | .list k _ _, error => k ∈ Pass.legacyKinds ∧ error.isNotFound = true
  | _, _ => False

namespace Pass

/-- What stands in the way when a deployment is looked up. One that is missing has to be built. One
that is there is compared with the wanted one first; it is put right if it differs, which leaves no
room for another failure, and else it may be seen to have failed. -/
def deploymentDefect (wanted : Except Error Deployment) (containers : List String) :
    Option Deployment → Error → Prop
  | none, error => wanted = .error error
  | some found, error => wanted = .error error ∨ ∃ desired, wanted = .ok desired ∧
      Deployment.resourcesDrift found desired = none ∧
      (∀ container ∈ containers, Deployment.imageDrift found desired container = none) ∧
      Deployment.isReady (some found) = .error error

/-- The error of a broker user without a password. -/
def noPassword : Error := .userInput ("MessagingUser " ++ Broker.userName ++ " has no password")

/-- What stands in the way when a child is looked up under a name and found or not found. The
children that are not mentioned can be built whenever they can be looked up. -/
def childDefect (settings : Settings) (server : Server) :
    (k : Kind) → String → Option (Object k) → Error → Prop
  | .messagingUser, name, some found, error =>
    name = Broker.userName ∧ MessagingUser.password? found = none ∧ error = noPassword
  | .persistentVolumeClaim, name, _, error =>
    name = childName server postgresql ∧ Database.claim server settings = .error error
  | .secret, name, none, error =>
    name = childName server postgresql ∧ Database.secret server "" = .error error
  | .deployment, name, found, error =>
    name = childName server postgresql ∧ deploymentDefect (Database.deployment server settings)
      [settings.postgresContainerName] found error ∨
    name = server.anyName ∧ deploymentDefect (Frontend.deployment server settings "")
      [settings.upsContainerName, settings.oauthProxyContainerName] found error
  | _, _, _, _ => False

/-- The answers that make a pass over a server fail: refusals, but for the one that is tolerated,
and defects of its children. -/
def flaw (settings : Settings) (server : Server) : Flaw
  | r, .error error, error' => ¬r.Tolerates error ∧ error' = error
  | .get k _ name, .ok found, error =>
    (∀ o, found = some o → ∃ name', o.metadata.name = some name') ∧
      childDefect settings server k name found error
  | _, .ok _, _ => False

end Pass

variable {α β : Type} {k : Kind} {settings : Settings} {server : Server} {refusal : Error → Prop}
  {name : String}

/-! ## Tasks -/

namespace Task

/-- A task fails when there is an answer in its way, and else only with words. -/
def Heeds (settings : Settings) (server : Server) (refusal : Error → Prop) (task : Task α) : Prop :=
  task.run.Heeds (Pass.flaw settings server) refusal (fun error r => r = .error error)
    fun r => ∀ error, r = .error error → error.message ≠ "" ∨ refusal error

theorem heeds_pure (a : α) : Heeds settings server refusal (pure a) := by
  intro error h
  cases h

theorem Heeds.bind {x : Task α} {f : α → Task β} (hx : Heeds settings server refusal x)
    (hf : ∀ a, Heeds settings server refusal (f a)) : Heeds settings server refusal (x >>= f) := by
  unfold Heeds
  rw [run_bind]
  refine Interaction.heeds_bind hx ?_ ?_
  · rintro (e | a) hr
    · intro error h
      exact hr error (congrArg Except.error (Except.error.inj h))
    · exact hf a
  · rintro error r rfl
    rfl

theorem heeds_build {e : Except Error α} (h : Explains e) :
    Heeds settings server refusal (liftM e : Task α) :=
  fun error herror => .inl (h error herror)

theorem heeds_secret : Heeds settings server refusal secret := by
  intro text error h
  cases h

/-- A call that nothing stands in the way of but its refusal. -/
theorem heeds_call (r : Request)
    (h : ∀ a error, Pass.flaw settings server r (.ok a) error → False) :
    Heeds settings server refusal (call r) := by
  intro a ha
  refine ⟨fun error heq => .inr (ha error heq), fun error hflaw => ?_⟩
  cases a with
  | error e => exact congrArg Except.error hflaw.2.symm
  | ok a => exact (h a error hflaw).elim

theorem heeds_requirePlace (m : ObjectMeta) : Heeds settings server refusal (requirePlace m) :=
  (heeds_build m.explains_requireNs).bind fun _ =>
    (heeds_build m.explains_requireName).bind fun _ => heeds_pure ()

theorem heeds_createOwned (owner : Server) (desired : Object k) :
    Heeds settings server refusal (createOwned owner desired) := by
  refine (heeds_build (explains_ownerReference owner)).bind fun reference => ?_
  refine (heeds_call (.create k _) fun _ _ h => h).bind fun created => ?_
  exact (heeds_requirePlace _).bind fun _ => heeds_pure created

theorem heeds_applyCorrection (corrected : Option (Object k)) :
    Heeds settings server refusal (applyCorrection corrected) := by
  cases corrected with
  | none => exact heeds_pure false
  | some corrected =>
    refine (heeds_call (.update k corrected) fun _ _ h => h).bind fun _ => ?_
    exact (heeds_requirePlace _).bind fun _ => heeds_pure true

theorem heeds_createOrUpdate {owner : Server} {desired : Object k}
    (hk : ∀ name found error, ¬Pass.childDefect settings server k name found error) :
    Heeds settings server refusal (createOrUpdate owner desired) := by
  refine (heeds_build owner.metadata.explains_requireNs).bind fun ns => ?_
  refine (heeds_build desired.metadata.explains_requireName).bind fun name => ?_
  refine (heeds_call (.get k ns name) fun live error h => hk name live error h.2).bind fun _ => ?_
  split
  · exact (heeds_createOwned owner desired).bind fun created => heeds_pure _
  · split
    · exact heeds_pure _
    · exact (heeds_call (.update k _) fun _ _ h => h).bind fun _ => heeds_pure _

/-- The first thing to be done for a child is to look it up. -/
theorem run_ensureExists (owner : Server) (name : String) (build : Task (Object k)) :
    (ensureExists owner name build).run = match owner.metadata.requireNs with
      | .error error => .done (.error error)
      | .ok ns => .call (.get k ns name) fun
        | .error error => .done (.error error)
        | .ok (some found) => .done (.ok (.found found))
        | .ok none =>
          (do return .created (← createOwned owner (← build)) : Task (Ensured k)).run := by
  unfold ensureExists
  cases owner.metadata.requireNs with
  | error error => rfl
  | ok ns =>
    refine congrArg (Interaction.call _) (funext fun answer => ?_)
    rcases answer with error | _ | found <;> rfl

end Task

/-! ## Parts of passes -/

namespace Pass

/-- A part of a pass over a server fails when there is an answer in its way, and else only with
words. It leaves the server alone and records every child once. -/
def Heeds (settings : Settings) (server : Server) (refusal : Error → Prop) (pass : Pass α) : Prop :=
  ∀ st, st.server = server → st.children.Distinct →
    (pass.exec st).Heeds (flaw settings server) refusal
      (fun error p => p.1 = .error (.failed error))
      fun p => p.2.server = server ∧ p.2.children.Distinct ∧
        ∀ error, p.1 = .error (.failed error) → error.message ≠ "" ∨ refusal error

theorem heeds_pure (a : α) : Heeds settings server refusal (pure a) := by
  intro st hserver hdistinct
  refine ⟨hserver, hdistinct, ?_⟩
  intro error h
  cases h

theorem Heeds.bind {x : Pass α} {f : α → Pass β} (hx : Heeds settings server refusal x)
    (hf : ∀ a, Heeds settings server refusal (f a)) : Heeds settings server refusal (x >>= f) := by
  intro st hserver hdistinct
  rw [exec_bind]
  refine Interaction.heeds_bind (hx st hserver hdistinct) ?_ ?_
  · rintro ⟨halt | a, st'⟩ ⟨hserver', hdistinct', hwords⟩
    · refine ⟨hserver', hdistinct', ?_⟩
      intro error h
      exact hwords error (congrArg Except.error (Except.error.inj h))
    · exact hf a st' hserver' hdistinct'
  · rintro error ⟨r, st'⟩ rfl
    rfl

theorem heeds_liftM {task : Task α} (h : Task.Heeds settings server refusal task) :
    Heeds settings server refusal (liftM task : Pass α) := by
  intro st hserver hdistinct
  rw [exec_liftM]
  refine Interaction.heeds_bind h ?_ ?_
  · rintro (e | a) hwords
    · refine ⟨hserver, hdistinct, ?_⟩
      intro error heq
      obtain rfl := Halt.failed.inj (Except.error.inj heq)
      exact hwords _ rfl
    · refine ⟨hserver, hdistinct, ?_⟩
      intro error heq
      cases heq
  · rintro error r rfl
    rfl

theorem heeds_build {e : Except Error α} (h : Explains e) :
    Heeds settings server refusal (liftM (liftM e : Task α) : Pass α) :=
  heeds_liftM (Task.heeds_build h)

/-- A part that begins by looking at the server. -/
theorem heeds_server_bind {f : Server → Pass β} (hf : Heeds settings server refusal (f server)) :
    Heeds settings server refusal (Pass.server >>= f) := by
  rintro st rfl hdistinct
  exact hf st rfl hdistinct

theorem heeds_modify {f : PassState → PassState} (hserver : ∀ st, (f st).server = st.server)
    (hchildren : ∀ st, st.children.Distinct → (f st).children.Distinct) :
    Heeds settings server refusal (modify f : Pass Unit) := by
  intro st hst hdistinct
  refine ⟨(hserver st).trans hst, hchildren st hdistinct, ?_⟩
  intro error h
  cases h

theorem heeds_record : Heeds settings server refusal (record k name) :=
  heeds_modify (fun _ => rfl) fun _ hdistinct => hdistinct.add k.name name

theorem heeds_forget : Heeds settings server refusal (forget k name) :=
  heeds_modify (fun _ => rfl) fun _ hdistinct => hdistinct.remove k.name name

theorem heeds_noteReady {ready : Bool} : Heeds settings server refusal (noteReady ready) :=
  heeds_modify (fun _ => rfl) fun _ hdistinct => hdistinct

theorem heeds_fail {error : Error} (h : error.message ≠ "" ∨ refusal error) :
    Heeds settings server refusal (throw (.failed error) : Pass α) := by
  intro st hserver hdistinct
  refine ⟨hserver, hdistinct, ?_⟩
  intro error' heq
  obtain rfl := Halt.failed.inj (Except.error.inj heq)
  exact h

theorem heeds_stop {action : Action} :
    Heeds settings server refusal (stop action : Pass α) := by
  intro st hserver hdistinct
  refine ⟨hserver, hdistinct, ?_⟩
  intro error h
  cases h

theorem heeds_report {reason : Reason} {message : String} (h : reason ≠ .reconcileFailed) :
    Heeds settings server refusal (report reason message) := by
  intro st hserver hdistinct
  refine ⟨h, hserver, hdistinct, ?_⟩
  intro error heq
  cases heq

theorem heeds_forM {l : List α} {f : α → Pass Unit}
    (hf : ∀ a ∈ l, Heeds settings server refusal (f a)) :
    Heeds settings server refusal (l.forM f) := by
  induction l with
  | nil => exact heeds_pure ()
  | cons a l ih =>
    refine (hf a List.mem_cons_self).bind fun _ => ih fun b hb => ?_
    exact hf b (List.mem_cons_of_mem a hb)

theorem heeds_mapM {l : List α} {f : α → Pass β}
    (hf : ∀ a ∈ l, Heeds settings server refusal (f a)) :
    Heeds settings server refusal (l.mapM f) := by
  induction l with
  | nil => exact heeds_pure []
  | cons a l ih =>
    rw [List.mapM_cons]
    refine (hf a List.mem_cons_self).bind fun b => ?_
    exact (ih fun b hb => hf b (List.mem_cons_of_mem a hb)).bind fun bs => heeds_pure (b :: bs)

theorem heeds_track (ensured : Ensured k) : Heeds settings server refusal (track ensured) := by
  refine (heeds_build ensured.object.metadata.explains_requireName).bind fun name => ?_
  refine heeds_record.bind fun _ => ?_
  split
  · exact heeds_report (by decide)
  · exact heeds_pure ()

theorem heeds_stopCorrected {corrected : Bool} {what : String} :
    Heeds settings server refusal (stopCorrected corrected k name what) := by
  unfold stopCorrected
  split
  · exact (heeds_report (by decide)).bind fun _ => heeds_stop
  · exact heeds_pure ()

/-! ## Making sure of one child -/

/-- A part of a pass over a server stops with a failure. -/
def StopsWith (server : Server) (error : Error) (pass : Pass α) : Prop :=
  ∀ st, st.server = server → (pass.exec st).Stops fun p => p.1 = .error (.failed error)

theorem stops_server_bind {f : Server → Pass β} {error : Error}
    (h : StopsWith server error (f server)) : StopsWith server error (Pass.server >>= f) := by
  rintro st rfl
  exact h st rfl

theorem stops_build_bind {e : Except Error α} {f : α → Pass β} {error : Error}
    (h : e = .error error) : StopsWith server error (liftM (liftM e : Task α) >>= f) := by
  subst h
  exact fun _ _ => rfl

/-- What has failed is not reached before it is known that there is nothing to correct. -/
theorem stops_correction {corrected : Option (Object k)} {what : String} {f : Unit → Pass α}
    {error : Error} (hnone : corrected = none) (hf : StopsWith server error (f ())) :
    StopsWith server error (do
      let did ← (Task.applyCorrection corrected : Task Bool)
      stopCorrected did k name what >>= f) := by
  subst hnone
  exact hf

theorem exec_ensure_bind (name : String) (build : Server → Task (Object k))
    (f : Ensured k → Pass β) (st : PassState) : (ensure name build >>= f).exec st =
      (Task.ensureExists st.server name (build st.server)).run.bind fun
        | .ok ensured => (track ensured >>= fun _ => f ensured).exec st
        | .error error => .done (.error (.failed error), st) := by
  have hassoc : ensure name build >>= f = Pass.server >>= fun server =>
      (liftM (Task.ensureExists server name (build server)) : Pass (Ensured k)) >>= fun ensured =>
        track ensured >>= fun _ => f ensured := by
    simp only [ensure, bind_assoc, pure_bind]
  rw [hassoc]
  show ((liftM (Task.ensureExists st.server name (build st.server)) : Pass (Ensured k)) >>= _).exec
    st = _
  rw [exec_bind, exec_liftM, Interaction.bind_assoc]
  refine congrArg (Interaction.bind _) (funext fun r => ?_)
  cases r <;> rfl

/-- What stands in the way of a child that is missing stops it from being built, and what stands in
the way of one that is there stops what follows. -/
theorem heeds_ensure_bind {build : Server → Task (Object k)} {f : Ensured k → Pass β}
    (hbuild : Task.Heeds settings server refusal (build server))
    (hmissing : ∀ error, childDefect settings server k name none error →
      (build server).run.Stops fun r => r = .error error)
    (hthere : ∀ found error, childDefect settings server k name (some found) error →
      StopsWith server error (f (.found found)))
    (hf : ∀ ensured, Heeds settings server refusal (f ensured)) :
    Heeds settings server refusal (ensure name build >>= f) := by
  rintro st rfl hdistinct
  have hrest (ensured : Ensured k) :
      Heeds settings st.server refusal (track ensured >>= fun _ => f ensured) :=
    (heeds_track ensured).bind fun _ => hf ensured
  rw [exec_ensure_bind, Task.run_ensureExists]
  cases hns : st.server.metadata.requireNs with
  | error error =>
    refine ⟨rfl, hdistinct, ?_⟩
    intro error' heq
    obtain rfl := Halt.failed.inj (Except.error.inj heq)
    exact .inl (st.server.metadata.explains_requireNs _ hns)
  | ok ns =>
    rintro (error | _ | found) hanswer
    · refine ⟨⟨rfl, hdistinct, ?_⟩, ?_⟩
      · intro error' heq
        obtain rfl := Halt.failed.inj (Except.error.inj heq)
        exact .inr (hanswer _ rfl)
      · rintro _ ⟨-, rfl⟩
        rfl
    · have hcreate : Task.Heeds settings st.server refusal
          (do return .created (← Task.createOwned st.server (← build st.server)) :
            Task (Ensured k)) :=
        hbuild.bind fun desired => (Task.heeds_createOwned st.server desired).bind fun created =>
          Task.heeds_pure _
      refine ⟨Interaction.heeds_bind hcreate ?_ ?_, ?_⟩
      · rintro (error | ensured) hwords
        · refine ⟨rfl, hdistinct, ?_⟩
          intro error' heq
          obtain rfl := Halt.failed.inj (Except.error.inj heq)
          exact hwords _ rfl
        · exact hrest ensured st rfl hdistinct
      · rintro error r rfl
        rfl
      · rintro error ⟨-, hdefect⟩
        have hstops : (do return .created (← Task.createOwned st.server (← build st.server)) :
            Task (Ensured k)).run.Stops fun r => r = .error error := by
          rw [Task.run_bind]
          refine (hmissing error hdefect).bind ?_
          rintro r rfl
          rfl
        refine hstops.bind ?_
        rintro r rfl
        rfl
    · refine ⟨hrest (.found found) st rfl hdistinct, ?_⟩
      rintro error ⟨hnamed, hdefect⟩
      obtain ⟨name', hname⟩ := hnamed found rfl
      have htrack : (track (Ensured.found found)).exec st =
          .done (.ok (), { st with children := st.children.add k.name name' }) := by
        unfold track
        rw [Ensured.object, ObjectMeta.requireName_eq_ok.2 hname]
        rfl
      show ((track (Ensured.found found) >>= fun _ => f (.found found)).exec st).Stops _
      rw [exec_bind, htrack]
      exact hthere found error hdefect _ rfl

/-- A child that nothing stands in the way of once it can be looked up. -/
theorem heeds_ensure {build : Server → Task (Object k)}
    (hk : ∀ found error, ¬childDefect settings server k name found error)
    (hbuild : Task.Heeds settings server refusal (build server)) :
    Heeds settings server refusal (ensure name build) := by
  rw [← bind_pure (ensure name build)]
  exact heeds_ensure_bind hbuild (fun error h => (hk none error h).elim)
    (fun found error h => (hk (some found) error h).elim) heeds_pure

end Pass

end PushOperator
