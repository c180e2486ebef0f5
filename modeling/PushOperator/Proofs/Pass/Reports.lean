import PushOperator.Proofs.Corrections
import PushOperator.Proofs.Interaction.Reports
import PushOperator.Proofs.Pass.Warrants

/-!
# Passes stay in their namespace and report what they change

A pass over a server asks for nothing outside the namespace of the server, and before it asks for
anything else it reports what it has changed: what it has created, put right or deleted. The rules
here follow the way in which parts are put together. They rely on answers that show objects where
they were asked for.
-/

namespace PushOperator

open Child Cluster

variable {α β : Type} {k : Kind} {settings : Settings} {ns name : String} {server : Server}
  {owed : Option Entry} {r : Request}

/-! ## What is asked, and what is reported -/

/-- A request stays in a namespace. A probe is about the cluster as a whole. -/
def Request.Inside (ns : String) : Request → Prop
  | .probe _ => True
  | r => r.ns = ns

/-- Objects are where they were asked for, and what is written stays where it is. -/
def Request.AnsweredInPlace : (r : Request) → Except Error r.Reply → Prop
  | .get _ ns name, .ok (some o) => nsOf o = ns ∧ nameOf o = name
  | .list _ ns _, .ok objects => ∀ o ∈ objects, nsOf o = ns
  | .create _ o, .ok created =>
    created.metadata.ns = o.metadata.ns ∧ created.metadata.name = o.metadata.name
  | .updateStatus _ o, .ok updated => nsOf updated = nsOf o
  | _, _ => True

/-- The contract of a pass in a namespace. -/
def insideOf (ns : String) : Contract where
  rely := Request.AnsweredInPlace
  asks := Request.Inside ns

/-- What is put right, as events say it. -/
def restored : List String := ["storage size", "resources", "image"]

/-- The changes that are reported: what is created or deleted, and what is put right. -/
def changes : Notices where
  due
    | .create _ _, _ | .delete _ _, _ => true
    | .update k _, _ => decide (k ∈ correctedKinds)
    | _, _ => false
  tells
    | .create k _, created, event =>
      event = { reason := .childCreated, message := "Created " ++ k.name ++ " " ++ created.anyName }
    | .update k o, _, event => ∃ what ∈ restored, event =
      { reason := .driftCorrected,
        message := "Restored " ++ what ++ " of " ++ k.name ++ " " ++ o.anyName }
    | .delete k o, _, event => event =
      { reason := if k = .cronJob then .backupRemoved else .legacyResourceRemoved,
        message := "Deleted " ++ k.name ++ " " ++ o.anyName }
    | _, _, _ => False

/-- What is updated says where it is. -/
def Request.isPlaced : Request → Bool
  | .update _ o => (Pass.placed o.metadata).isOk
  | _ => true

/-- The changes that a pass gets to report: it checks the place of what it has put right before. -/
def seenChanges : Notices :=
  { changes with due := fun r reply => changes.due r reply && r.isPlaced }

theorem owed_of_not_due {a : r.Reply} (h : changes.due r a = false) :
    seenChanges.owed (.call r (.ok a)) = none := by
  refine if_neg (ne_true_of_eq_false ?_)
  show (changes.due r a && r.isPlaced) = false
  rw [h, Bool.false_and]

theorem owed_of_due {a : r.Reply} (h : changes.due r a = true) (hplaced : r.isPlaced = true) :
    seenChanges.owed (.call r (.ok a)) = some (.call r (.ok a)) := by
  refine if_pos ?_
  show (changes.due r a && r.isPlaced) = true
  rw [h, hplaced, Bool.true_and]

/-- What is owed for a child that was made sure of: a report, if it was created. -/
inductive Ensured.Owes : Ensured k → Option Entry → Prop
  | found (o : Object k) : Owes (.found o) none
  | created (o created : Object k) : Pass.placed created.metadata = .ok () →
    Owes (.created created) (some (.call (.create k o) (.ok created)))

/-! ## Tasks -/

namespace Task

/-- From what is owed before it, a task comes to a result and to what is owed then, as `post` says.
When it fails, nothing is owed. -/
def Reports (ns : String) (owed : Option Entry) (post : α → Option Entry → Prop)
    (task : Task α) : Prop :=
  task.run.Reports (insideOf ns) seenChanges (fun r owed' => match r with
    | .ok a => post a owed'
    | .error _ => owed' = none) owed

variable {post : α → Option Entry → Prop}

theorem reports_pure {a : α} (h : post a owed) : Reports ns owed post (pure a) := h

theorem Reports.bind {post' : β → Option Entry → Prop} {x : Task α} {f : α → Task β}
    (hx : Reports ns owed post x) (hf : ∀ a owed', post a owed' → Reports ns owed' post' (f a)) :
    Reports ns owed post' (x >>= f) := by
  unfold Reports
  rw [run_bind]
  refine Interaction.reports_bind hx ?_
  rintro (error | a) owed' h
  · exact h
  · exact hf a owed' h

theorem Reports.mono {post' : α → Option Entry → Prop} {x : Task α} (h : Reports ns owed post x)
    (hpost : ∀ a owed', post a owed' → post' a owed') : Reports ns owed post' x := by
  refine Interaction.Reports.mono h ?_
  rintro (error | a) owed' h
  · exact h
  · exact hpost a owed' h

/-- What can be found out without the cluster may fail when nothing is owed. -/
theorem reports_build {e : Except Error α} (h : ∀ a, e = .ok a → post a none) :
    Reports ns none post (liftM e : Task α) := by
  cases e with
  | error error => exact rfl
  | ok a => exact h a rfl

theorem reports_build_bind {post' : β → Option Entry → Prop} {e : Except Error α}
    {f : α → Task β} (hf : ∀ a, e = .ok a → Reports ns none post' (f a)) :
    Reports ns none post' (liftM e >>= f) := by
  cases e with
  | error error => exact rfl
  | ok a => exact hf a rfl

theorem reports_secret : Reports ns none (fun _ owed => owed = none) secret := fun _ => rfl

theorem reports_call (hasks : r.Inside ns) : Reports ns none
    (fun a owed => owed = seenChanges.owed (.call r (.ok a)) ∧ r.AnsweredInPlace (.ok a))
    (call r) := by
  refine ⟨rfl, hasks, ?_⟩
  rintro (error | a) ha
  · exact rfl
  · exact ⟨rfl, ha⟩

/-- A call that needs no report. -/
theorem reports_quiet_call (hasks : r.Inside ns) (hdue : ∀ a, changes.due r a = false) :
    Reports ns none (fun a owed => owed = none ∧ r.AnsweredInPlace (.ok a)) (call r) :=
  (reports_call hasks).mono fun a _ h => ⟨h.1.trans (owed_of_not_due (hdue a)), h.2⟩

/-- What is owed stays so while a place is checked. Where there is none, nothing must be owed. -/
theorem reports_requirePlace {m : ObjectMeta} (h : owed = none ∨ Pass.placed m = .ok ()) :
    Reports ns owed (fun _ owed' => owed' = owed ∧ Pass.placed m = .ok ()) (requirePlace m) := by
  unfold Reports
  rw [Pass.run_requirePlace]
  cases hplaced : Pass.placed m with
  | error error => exact h.resolve_right (by simp [hplaced])
  | ok u => exact ⟨rfl, rfl⟩

/-- A child in the namespace is created there, and has to be reported. -/
theorem reports_createOwned {owner : Server} {desired : Object k}
    (hplaced : Placed ns name desired) :
    Reports ns none (fun created owed => (Ensured.created created).Owes owed ∧
      created.metadata.name = some name) (createOwned owner desired) := by
  refine reports_build_bind fun reference _ => ?_
  have hinside : Request.Inside ns (.create k (desired.withOwner reference)) :=
    hplaced.nsOf (o := desired.withOwner reference)
  refine (reports_call hinside).bind ?_
  rintro created _ ⟨rfl, hns, hname⟩
  have hplace : Pass.placed created.metadata = .ok () :=
    Pass.placed_eq_ok ⟨ns, hns.trans hplaced.1⟩ ⟨name, hname.trans hplaced.2⟩
  refine (reports_requirePlace (.inr hplace)).bind ?_
  rintro _ _ ⟨rfl, -⟩
  rw [owed_of_due rfl rfl]
  exact ⟨.created _ created hplace, hname.trans hplaced.2⟩

/-- A child that was made sure of is in the namespace under its name, or is yet to be reported. -/
theorem reports_ensureExists {owner : Server} {build : Task (Object k)} (howner : nsOf owner = ns)
    (hbuild : owner.metadata.ns = some ns →
      Reports ns none (fun o owed => owed = none ∧ ∃ name, Placed ns name o) build) :
    Reports ns none (fun ensured owed => ensured.Owes owed ∧
      ∀ found, ensured.observed = some found → nsOf found = ns ∧ nameOf found = name)
      (ensureExists owner name build) := by
  refine reports_build_bind fun ns' hns' => ?_
  have hns := ObjectMeta.requireNs_eq_ok.1 hns'
  obtain rfl : ns' = ns := (nsOf_of_eq_some hns).symm.trans howner
  refine (reports_quiet_call (r := .get k ns' name) rfl fun _ => rfl).bind ?_
  rintro (_ | found) _ ⟨rfl, hfound⟩
  · refine (hbuild hns).bind ?_
    rintro desired _ ⟨rfl, place, hplaced⟩
    refine (reports_createOwned hplaced).bind fun created owed' howes => ?_
    exact reports_pure ⟨howes.1, by simp [Ensured.observed]⟩
  · refine reports_pure ⟨.found found, ?_⟩
    rintro _ ⟨⟩
    exact hfound

/-- Of a child whose spec is put right nothing is reported, unless it was created. -/
theorem reports_createOrUpdate {owner : Server} {desired : Object k} (howner : nsOf owner = ns)
    (hk : k ∉ correctedKinds) (hplaced : owner.metadata.ns = some ns → Placed ns name desired) :
    Reports ns none (fun ensured => ensured.Owes) (createOrUpdate owner desired) := by
  refine reports_build_bind fun ns' hns' => ?_
  have hns := ObjectMeta.requireNs_eq_ok.1 hns'
  obtain rfl : ns' = ns := (nsOf_of_eq_some hns).symm.trans howner
  refine reports_build_bind fun name' _ => ?_
  refine (reports_quiet_call (r := .get k ns' name') rfl fun _ => rfl).bind ?_
  rintro (_ | found) _ ⟨rfl, hfound⟩
  · exact (reports_createOwned (hplaced hns)).bind fun created _ h => reports_pure h.1
  · dsimp only
    split
    · exact reports_pure (.found found)
    · have hinside : Request.Inside ns' (.update k { found with spec := desired.spec }) := hfound.1
      refine (reports_quiet_call hinside fun _ => decide_eq_false hk).bind ?_
      rintro updated _ ⟨rfl, -⟩
      exact reports_pure (.found updated)

/-- A child that was put right is yet to be reported. -/
theorem reports_applyCorrection {found : Object k} {corrected : Option (Object k)}
    (hk : k ∈ correctedKinds) (hfound : nsOf found = ns)
    (hcorrected : ∀ o, corrected = some o → o.metadata = found.metadata) :
    Reports ns none (fun did owed => match did with
        | false => owed = none
        | true => ∃ o updated : Object k, o.metadata = found.metadata ∧
          owed = some (.call (.update k o) (.ok updated)))
      (applyCorrection corrected) := by
  cases corrected with
  | none => exact reports_pure rfl
  | some corrected =>
    have hmetadata := hcorrected corrected rfl
    have hinside : Request.Inside ns (.update k corrected) := by
      show nsOf corrected = ns
      rw [nsOf, hmetadata]
      exact hfound
    refine (reports_call hinside).bind ?_
    rintro updated _ ⟨rfl, -⟩
    have hdue (a : Object k) : changes.due (.update k corrected) a = true := decide_eq_true hk
    cases hplaced : Pass.placed corrected.metadata with
    | ok u =>
      have hok : (Request.update k corrected).isPlaced = true := by
        simp [Request.isPlaced, hplaced, Except.isOk, Except.toBool]
      rw [owed_of_due (hdue updated) hok]
      refine (reports_requirePlace (.inr hplaced)).bind ?_
      rintro _ _ ⟨rfl, -⟩
      exact reports_pure ⟨corrected, updated, hmetadata, rfl⟩
    | error error =>
      have hnot : seenChanges.owed (.call (.update k corrected) (.ok updated)) = none := by
        simp [Notices.owed, Notices.isDue, seenChanges, Request.isPlaced, hplaced, Except.isOk,
          Except.toBool]
      rw [hnot]
      -- The call has failed by now, so what comes after a found place does not matter.
      refine (reports_requirePlace (.inl rfl)).bind ?_
      rintro _ _ ⟨-, hok⟩
      simp [hplaced] at hok

end Task

/-! ## Steps -/

namespace Pass

/-- From what is owed before it, a step over a server comes to a result and to what is owed then, as
`post` says. When it halts, nothing is owed. -/
def Reports (ns : String) (server : Server) (owed : Option Entry)
    (post : α → Option Entry → Prop) (pass : Pass α) : Prop :=
  ∀ st, st.server = server → (pass.exec st).Reports (insideOf ns) seenChanges
    (fun p owed' => p.2.server = server ∧ match p.1 with
      | .ok a => post a owed'
      | .error _ => owed' = none) owed

/-- A step that leaves nothing to report. -/
abbrev Tidy (ns : String) (server : Server) (pass : Pass α) : Prop :=
  Reports ns server none (fun _ owed => owed = none) pass

variable {post : α → Option Entry → Prop}

theorem reports_pure {a : α} (h : post a owed) : Reports ns server owed post (pure a) :=
  fun _ hserver => ⟨hserver, h⟩

theorem Reports.bind {post' : β → Option Entry → Prop} {x : Pass α} {f : α → Pass β}
    (hx : Reports ns server owed post x)
    (hf : ∀ a owed', post a owed' → Reports ns server owed' post' (f a)) :
    Reports ns server owed post' (x >>= f) := by
  intro st hserver
  rw [exec_bind]
  refine Interaction.reports_bind (hx st hserver) ?_
  rintro ⟨halt | a, st'⟩ owed' ⟨hserver', h⟩
  · exact ⟨hserver', h⟩
  · exact hf a owed' h st' hserver'

theorem Reports.mono {post' : α → Option Entry → Prop} {x : Pass α}
    (h : Reports ns server owed post x) (hpost : ∀ a owed', post a owed' → post' a owed') :
    Reports ns server owed post' x := by
  intro st hserver
  refine (h st hserver).mono ?_
  rintro ⟨halt | a, st'⟩ owed' ⟨hserver', h⟩
  · exact ⟨hserver', h⟩
  · exact ⟨hserver', hpost a owed' h⟩

theorem reports_server_bind {post' : β → Option Entry → Prop} {f : Server → Pass β}
    (hf : Reports ns server owed post' (f server)) :
    Reports ns server owed post' (Pass.server >>= f) := by
  rintro st rfl
  exact hf st rfl

theorem reports_liftM {task : Task α} (h : Task.Reports ns owed post task) :
    Reports ns server owed post (liftM task : Pass α) := by
  intro st hserver
  rw [exec_liftM]
  refine Interaction.reports_bind h ?_
  rintro (error | a) owed' h'
  · exact ⟨hserver, h'⟩
  · exact ⟨hserver, h'⟩

theorem reports_build_bind {post' : β → Option Entry → Prop} {e : Except Error α}
    {f : α → Pass β} (hf : ∀ a, e = .ok a → Reports ns server none post' (f a)) :
    Reports ns server none post' (liftM (liftM e : Task α) >>= f) := by
  cases e with
  | error error => exact fun _ hserver => ⟨hserver, rfl⟩
  | ok a => exact hf a rfl

theorem reports_modify {f : PassState → PassState} (hserver : ∀ st, (f st).server = st.server) :
    Reports ns server owed (fun _ owed' => owed' = owed) (modify f : Pass Unit) :=
  fun st hst => ⟨(hserver st).trans hst, rfl⟩

theorem reports_record {name' : String} :
    Reports ns server owed (fun _ owed' => owed' = owed) (record k name') :=
  reports_modify fun _ => rfl

theorem reports_forget {name' : String} :
    Reports ns server owed (fun _ owed' => owed' = owed) (forget k name') :=
  reports_modify fun _ => rfl

theorem reports_noteReady {ready : Bool} :
    Reports ns server owed (fun _ owed' => owed' = owed) (noteReady ready) :=
  reports_modify fun _ => rfl

theorem reports_throw {halt : Halt} : Reports ns server none post (throw halt : Pass α) :=
  fun _ hserver => ⟨hserver, rfl⟩

theorem reports_stop {action : Action} : Reports ns server none post (stop action : Pass α) :=
  reports_throw

/-- What is owed is told. -/
theorem reports_report {e : Entry} {reason : Reason} {message : String}
    (h : seenChanges.TellsOf e { reason, message }) :
    Reports ns server (some e) (fun _ owed => owed = none) (report reason message) :=
  fun _ hserver => ⟨⟨e, rfl, h⟩, hserver, rfl⟩

theorem tidy_pure (a : α) : Tidy ns server (pure a) := reports_pure rfl

theorem Tidy.bind {post' : β → Option Entry → Prop} {x : Pass α} {f : α → Pass β}
    (hx : Tidy ns server x) (hf : ∀ a, Reports ns server none post' (f a)) :
    Reports ns server none post' (x >>= f) := by
  refine Reports.bind hx ?_
  rintro a _ rfl
  exact hf a

/-- A call that needs no report. -/
theorem reports_call_bind {post' : β → Option Entry → Prop} {f : r.Reply → Pass β}
    (hasks : r.Inside ns) (hdue : ∀ a, changes.due r a = false)
    (hf : ∀ a, r.AnsweredInPlace (.ok a) → Reports ns server none post' (f a)) :
    Reports ns server none post' (liftM (Task.call r) >>= f) := by
  refine (reports_liftM (Task.reports_quiet_call hasks hdue)).bind ?_
  rintro a _ ⟨rfl, ha⟩
  exact hf a ha

theorem tidy_forM {l : List α} {f : α → Pass Unit} (hf : ∀ a ∈ l, Tidy ns server (f a)) :
    Tidy ns server (l.forM f) := by
  induction l with
  | nil => exact tidy_pure ()
  | cons a l ih =>
    refine (hf a List.mem_cons_self).bind fun _ => ih fun b hb => ?_
    exact hf b (List.mem_cons_of_mem a hb)

theorem tidy_mapM {l : List α} {f : α → Pass β} (hf : ∀ a ∈ l, Tidy ns server (f a)) :
    Tidy ns server (l.mapM f) := by
  induction l with
  | nil => exact tidy_pure []
  | cons a l ih =>
    rw [List.mapM_cons]
    refine (hf a List.mem_cons_self).bind fun b => ?_
    exact (ih fun b hb => hf b (List.mem_cons_of_mem a hb)).bind fun bs => tidy_pure (b :: bs)

/-- A child that was created is reported when it is recorded. What is recorded has a name. -/
theorem reports_track {ensured : Ensured k} (h : ensured.Owes owed) :
    Reports ns server owed
      (fun _ owed => owed = none ∧ ∃ name, ensured.object.metadata.name = some name)
      (track ensured) := by
  cases h with
  | found o =>
    refine reports_build_bind fun name' hname => reports_record.bind ?_
    rintro _ _ rfl
    exact reports_pure ⟨rfl, name', ObjectMeta.requireName_eq_ok.1 hname⟩
  | created o created hplaced =>
    obtain ⟨-, -, hrest⟩ := bind_eq_ok.1 hplaced
    obtain ⟨name', hname, -⟩ := bind_eq_ok.1 hrest
    have hname' := ObjectMeta.requireName_eq_ok.1 hname
    have htells : seenChanges.TellsOf (.call (.create k o) (.ok created))
        { reason := .childCreated, message := "Created " ++ k.name ++ " " ++ name' } := by
      rw [← anyName_of_name hname']
      exact rfl
    have hnamed : Reports ns server (some (.call (.create k o) (.ok created)))
        (fun found owed => found = name' ∧ owed = some (.call (.create k o) (.ok created)))
        (liftM (liftM created.metadata.requireName : Task String)) := by
      rw [hname]
      exact reports_pure ⟨rfl, rfl⟩
    refine hnamed.bind ?_
    rintro _ _ ⟨rfl, rfl⟩
    refine reports_record.bind ?_
    rintro _ _ rfl
    exact (reports_report htells).mono fun _ _ h => ⟨h, _, hname'⟩

/-- A child that is to be there is in the namespace under its name. -/
theorem reports_ensure {build : Server → Task (Object k)} (hserver : nsOf server = ns)
    (hbuild : server.metadata.ns = some ns →
      Task.Reports ns none (fun o owed => owed = none ∧ ∃ name, Placed ns name o) (build server)) :
    Reports ns server none (fun ensured owed => owed = none ∧
      ∀ found, ensured.observed = some found →
        nsOf found = ns ∧ found.metadata.name = some name)
      (ensure name build) := by
  refine reports_server_bind ?_
  refine (reports_liftM (Task.reports_ensureExists hserver hbuild)).bind ?_
  rintro ensured owed' ⟨howes, hfound⟩
  refine (reports_track howes).bind ?_
  rintro _ _ ⟨rfl, name', hname'⟩
  refine reports_pure ⟨rfl, fun found hobserved => ?_⟩
  obtain ⟨hns, hname⟩ := hfound found hobserved
  obtain ⟨o⟩ | ⟨o⟩ := ensured
  · obtain rfl := Option.some.inj hobserved
    refine ⟨hns, Eq.trans hname' (congrArg some ?_)⟩
    rw [← hname, nameOf, show o.metadata.name = some name' from hname', Option.getD_some]
  · cases hobserved

/-- One correction, and what follows if it was not needed. -/
theorem reports_correction {post' : β → Option Entry → Prop} {found : Object k}
    {corrected : Option (Object k)} {what : String} {f : Unit → Pass β} (hk : k ∈ correctedKinds)
    (hfound : nsOf found = ns ∧ found.metadata.name = some name) (hwhat : what ∈ restored)
    (hcorrected : ∀ o, corrected = some o → o.metadata = found.metadata)
    (hf : Reports ns server none post' (f ())) :
    Reports ns server none post' (do
      let did ← (Task.applyCorrection corrected : Task Bool)
      stopCorrected did k name what >>= f) := by
  refine (reports_liftM (Task.reports_applyCorrection hk hfound.1 hcorrected)).bind ?_
  rintro (_ | _) owed' h
  · obtain rfl := h
    exact hf
  · obtain ⟨o, updated, hmetadata, rfl⟩ := h
    have htells : seenChanges.TellsOf (.call (.update k o) (.ok updated))
        { reason := .driftCorrected,
          message := "Restored " ++ what ++ " of " ++ k.name ++ " " ++ name } := by
      have hname : o.metadata.name = some name := hmetadata ▸ hfound.2
      rw [← anyName_of_name hname]
      exact ⟨what, hwhat, rfl⟩
    have hstop : Reports ns server (some (.call (.update k o) (.ok updated)))
        (fun (_ : Unit) owed => owed = none) (stopCorrected true k name what) := by
      refine (reports_report htells).bind ?_
      rintro _ _ rfl
      exact reports_stop
    refine hstop.bind ?_
    rintro _ _ rfl
    exact hf

theorem tidy_lastCorrection {found : Object k} {corrected : Option (Object k)} {what : String}
    (hk : k ∈ correctedKinds) (hfound : nsOf found = ns ∧ found.metadata.name = some name)
    (hwhat : what ∈ restored)
    (hcorrected : ∀ o, corrected = some o → o.metadata = found.metadata) :
    Tidy ns server (do
      stopCorrected (← (Task.applyCorrection corrected : Task Bool)) k name what) := by
  have hthen : Tidy ns server (do
      let did ← (Task.applyCorrection corrected : Task Bool)
      stopCorrected did k name what >>= pure) :=
    reports_correction hk hfound hwhat hcorrected (tidy_pure ())
  simpa only [bind_pure] using hthen

end Pass

end PushOperator
