import PushOperator.Proofs.Pass.Converge
import PushOperator.Proofs.Pass.Status

/-!
# Whole passes

A whole pass of the operator over the server of a name: of all the servers it writes the status of
this one only, whatever the cluster answers, and when it asks to be run again after thirty seconds,
all of its parts have completed.
-/

namespace PushOperator

open Cluster

variable {settings : Settings} {ns name : String}

/-! ## The beginning of a pass -/

/-- A namespace that is not watched is left alone. -/
theorem run_reconcile_of_unwatched (h : settings.watches ns = false) :
    (reconcile settings ns name).run = .done (.ok .awaitChange) := by
  unfold reconcile
  rw [h]
  rfl

/-- In a watched one the pass begins by fetching the server. -/
theorem run_reconcile (h : settings.watches ns = true) :
    (reconcile settings ns name).run = .call (.get .unifiedPushServer ns name) fun
      | .error error => .done (.error error)
      | .ok none => .done (.ok .awaitChange)
      | .ok (some server) =>
        (Pass.run settings server).bind fun action => .done (.ok action) := by
  unfold reconcile
  rw [h]
  refine congrArg (Interaction.call _) (funext fun answer => ?_)
  rcases answer with error | _ | server <;> rfl

/-- What a pass does that does not defer. -/
def Pass.proceed (settings : Settings) : Pass Action := do
  start
  converge settings
  succeed
  return .requeue 30

theorem Pass.body_eq (settings : Settings) :
    Pass.body settings = deferToActive >>= fun _ => proceed settings := rfl

/-- How a pass ends: one that has failed says so. -/
def Pass.finish : Except Halt Action × PassState → Interaction Action
  | (.ok action, _) | (.error (.early action), _) => .done action
  | (.error (.failed error), state) => conclude error state

theorem Pass.run_eq (settings : Settings) (server : Server) : Pass.run settings server =
    ((Pass.body settings).exec { server, stored := server.status }).bind Pass.finish := by
  refine congrArg (Interaction.bind _) (funext fun p => ?_)
  rcases p with ⟨(_ | _) | _, _⟩ <;> rfl

/-! ## Which server is written -/

/-- The contract of a pass over one server: of the servers it writes only the status of this one,
and only statuses of a certain sort. It relies on being answered with the server that it has
written. -/
def ownStatus (ns name : String) (allowed : Phase → Prop) : Contract where
  asks
    | .updateStatus .unifiedPushServer o => nsOf o = ns ∧ nameOf o = name ∧ allowed (Server.phase o)
    | r => ¬r.Writes .unifiedPushServer
  rely
    | .updateStatus .unifiedPushServer o, .ok o' => nsOf o' = nsOf o ∧ nameOf o' = nameOf o
    | _, _ => True

namespace Pass

variable {allowed : Phase → Prop}

/-- The duties of a pass over one server: until it fails, it makes the server nothing but active. -/
def passDuties (ns name : String) : Duties where
  contract := ownStatus ns name fun phase => phase.isActive = true
  keeps server _ := nsOf server = ns ∧ nameOf server = name
  stops action := action ≠ .requeue 30

/-- A request that does not write servers at all. -/
theorem asks_of_not_writes {r : Request} (h : ¬r.Writes .unifiedPushServer) :
    (ownStatus ns name allowed).asks r := by
  cases r with
  | updateStatus k o =>
    cases k with
    | unifiedPushServer => exact absurd rfl h
    | _ => exact h
  | _ => exact h

theorem asks_mono {allowed' : Phase → Prop} (h : ∀ phase, allowed phase → allowed' phase)
    {r : Request} (hasks : (ownStatus ns name allowed).asks r) :
    (ownStatus ns name allowed').asks r := by
  cases r with
  | updateStatus k o =>
    cases k with
    | unifiedPushServer => exact ⟨hasks.1, hasks.2.1, h _ hasks.2.2⟩
    | _ => exact hasks
  | _ => exact hasks

theorem obeys_taskPersist {server : Server} {previous : Option ServerStatus}
    (hns : nsOf server = ns) (hname : nameOf server = name)
    (hallowed : allowed (Server.phase server.observe)) :
    Task.Obeys (ownStatus ns name allowed) (fun o => nsOf o = ns ∧ nameOf o = name)
      (Task.persist server previous) := by
  unfold Task.persist
  dsimp only
  split
  · exact Task.obeys_pure ⟨hns, hname⟩
  · have hbuild {α : Type} {e : Except Error α} :
        Task.Obeys (ownStatus ns name allowed) (fun _ => True) (liftM e : Task α) :=
      Task.obeys_ofExcept fun _ _ => trivial
    refine Task.obeys_bind (Task.obeys_call ⟨hns, hname, hallowed⟩) fun updated hupdated => ?_
    obtain ⟨hns', hname'⟩ := hupdated
    have hplace (m : ObjectMeta) :
        Task.Obeys (ownStatus ns name allowed) (fun _ => True) (Task.requirePlace m) :=
      Task.obeys_bind hbuild fun _ _ => Task.obeys_bind hbuild fun _ _ => Task.obeys_pure trivial
    refine Task.obeys_bind (hplace _) fun _ _ => ?_
    exact Task.obeys_pure ⟨hns'.trans hns, hname'.trans hname⟩

/-- Storing the status keeps to the server. -/
theorem obeys_persist {st : PassState} (hns : nsOf st.server = ns) (hname : nameOf st.server = name)
    (hallowed : allowed (Server.phase st.server.observe)) :
    (persist.exec st).Obeys (ownStatus ns name allowed) fun p =>
      (nsOf p.2.server = ns ∧ nameOf p.2.server = name) ∧
        ∀ action, p.1 ≠ .error (.early action) := by
  unfold persist
  rw [exec_bind, exec_get]
  show ((do
    let server ← Task.persist st.server st.stored
    set { st with server, stored := server.status } : Pass Unit).exec st).Obeys _ _
  rw [exec_bind, Interaction.obeys_bind_iff, exec_liftM, Interaction.obeys_bind_iff]
  refine (obeys_taskPersist hns hname hallowed).mono (fun _ h => h) (fun _ _ h => h) ?_
  rintro (error | server) hserver
  · exact ⟨⟨hns, hname⟩, by simp⟩
  · exact ⟨hserver server rfl, by simp⟩

/-- Storing that the server is active. -/
theorem obeys_setPersist {st' : PassState} (hst' : (passDuties ns name).keeps st'.server st'.stored)
    (hactive : (Server.phase st'.server.observe).isActive = true) :
    Obeys (passDuties ns name) (fun _ => True) (do set st'; persist) := by
  intro st _
  rw [exec_bind, exec_set]
  have hpersist : (persist.exec st').Obeys
      (ownStatus ns name fun phase => phase.isActive = true) _ :=
    obeys_persist hst'.1 hst'.2 hactive
  refine hpersist.mono (fun _ h => h) (fun _ _ h => h) ?_
  rintro ⟨result, st''⟩ ⟨hkeeps, hearly⟩
  exact ⟨hkeeps, fun _ _ => trivial, fun action h => absurd h (hearly action)⟩

theorem obeys_deferToActive : Obeys (passDuties ns name) (fun _ => True) deferToActive := by
  refine obeys_bind obeys_server fun server _ => ?_
  split
  · exact obeys_pure trivial
  · refine obeys_bind (obeys_liftM (Task.obeys_ofExcept fun _ _ => trivial)) fun ns' _ => ?_
    have hread : (ownStatus ns name fun phase => phase.isActive = true).asks
        (.list .unifiedPushServer ns' "") := asks_of_not_writes id
    have hlist : Task.Obeys (passDuties ns name).contract _ (Task.call _) := Task.obeys_call hread
    refine obeys_bind (obeys_liftM hlist) fun others _ => ?_
    split
    · exact obeys_stop (by simp [passDuties])
    · exact obeys_pure trivial

theorem obeys_start : Obeys (passDuties ns name) (fun _ => True) start := by
  refine obeys_bind obeys_get fun st hst => ?_
  split
  · next hnew =>
    have hstart : (passDuties ns name).keeps (Server.start st.server) st.stored := by
      unfold Server.start
      rw [if_pos hnew]
      exact hst
    refine obeys_setPersist hstart ?_
    rw [Server.phase_start hnew]
    rfl
  · exact obeys_pure trivial

theorem obeys_converge : Obeys (passDuties ns name) (fun _ => True) (converge settings) := by
  intro st hst
  have hwrites : WritesOnly childKinds (converge settings) := writesOnly_converge
  refine (hwrites st.server st.stored st ⟨rfl, rfl⟩).mono ?_ (fun _ _ _ => trivial) ?_
  · intro r hr
    show (ownStatus ns name fun phase => phase.isActive = true).asks r
    exact asks_of_not_writes fun hserver => absurd (hr _ hserver) (by decide)
  · rintro ⟨result, st'⟩ ⟨⟨hserver, hstored⟩, -, hstops⟩
    refine ⟨?_, fun _ _ => trivial, hstops⟩
    rw [hserver]
    exact hst

theorem obeys_succeed : Obeys (passDuties ns name) (fun _ => True) succeed := by
  refine obeys_bind obeys_get fun st hst => ?_
  exact obeys_setPersist hst (Server.isActive_succeed st.server st.ready st.children)

theorem obeys_proceed : Obeys (passDuties ns name) (fun _ => True) (proceed settings) := by
  refine obeys_bind obeys_start fun _ _ => obeys_bind obeys_converge fun _ _ => ?_
  exact obeys_bind obeys_succeed fun _ _ => obeys_pure trivial

/-- The body of a pass only comes to the thirty seconds when all of it has completed. -/
theorem obeys_body : Obeys (passDuties ns name) (fun _ => True) (body settings) := by
  rw [body_eq]
  exact obeys_bind obeys_deferToActive fun _ _ => obeys_proceed

/-- A pass that has failed only says so. -/
theorem obeys_conclude {error : Error} {st : PassState} (hns : nsOf st.server = ns)
    (hname : nameOf st.server = name) :
    (conclude error st).Obeys (ownStatus ns name (· = .failing)) fun action =>
      action = .requeue 5 := by
  have hpersist : (persist.exec { st with server := Server.fail st.server error }).Obeys
      (ownStatus ns name (· = .failing)) _ :=
    obeys_persist hns hname (Server.phase_fail st.server error)
  show (Interaction.bind _ _).Obeys _ _
  rw [Interaction.obeys_bind_iff]
  exact hpersist.mono (fun _ h => h) (fun _ _ h => h) fun _ _ => rfl

/-- Of its end, a pass makes the server nothing but failing. -/
theorem obeys_finish {p : Except Halt Action × PassState} (hns : nsOf p.2.server = ns)
    (hname : nameOf p.2.server = name) :
    (finish p).Obeys (ownStatus ns name (· = .failing)) fun _ => True := by
  rcases p with ⟨(error | action) | action, st⟩
  · have hconclude : (conclude error st).Obeys (ownStatus ns name (· = .failing)) _ :=
      obeys_conclude hns hname
    exact hconclude.mono (fun _ h => h) (fun _ _ h => h) fun _ _ => trivial
  · trivial
  · trivial

/-- What keeps the duties of a pass keeps to its server to the end. -/
theorem Obeys.finish {x : Pass Action} (h : Obeys (passDuties ns name) (fun _ => True) x)
    {st : PassState} (hns : nsOf st.server = ns) (hname : nameOf st.server = name) :
    ((x.exec st).bind finish).Obeys (ownStatus ns name fun _ => True) fun _ => True := by
  have hcontract : (x.exec st).Obeys (ownStatus ns name fun phase => phase.isActive = true) _ :=
    h st ⟨hns, hname⟩
  rw [Interaction.obeys_bind_iff]
  refine hcontract.mono (fun _ => asks_mono fun _ _ => trivial) (fun _ _ h => h) ?_
  rintro p ⟨⟨hns', hname'⟩, -, -⟩
  exact (obeys_finish hns' hname').mono (fun _ => asks_mono fun _ _ => trivial) (fun _ _ h => h)
    fun _ h => h

end Pass

namespace Cluster

variable {allowed allowed' : Phase → Prop} {c₀ c c' : Cluster}

/-- Since the cluster `c₀`, of the servers only the status of one may have changed. -/
structure OwnOnly (ns name : String) (allowed : Phase → Prop) (c₀ c : Cluster) : Prop where
  filed : c.FiledOf .unifiedPushServer
  others : ∀ ns' name', (ns', name') ≠ (ns, name) →
    c.get? .unifiedPushServer ns' name' = c₀.get? .unifiedPushServer ns' name'
  own : c.get? .unifiedPushServer ns name = c₀.get? .unifiedPushServer ns name ∨
    ∃ o, c.get? .unifiedPushServer ns name = some o ∧ allowed (Server.phase o)

theorem OwnOnly.refl (hc : c.FiledOf .unifiedPushServer) : OwnOnly ns name allowed c c :=
  ⟨hc, fun _ _ _ => rfl, .inl rfl⟩

theorem OwnOnly.mono (h : OwnOnly ns name allowed c₀ c)
    (hallowed : ∀ phase, allowed phase → allowed' phase) : OwnOnly ns name allowed' c₀ c := by
  refine ⟨h.filed, h.others, ?_⟩
  rcases h.own with hsame | ⟨o, ho, hphase⟩
  · exact .inl hsame
  · exact .inr ⟨o, ho, hallowed _ hphase⟩

theorem OwnOnly.of_shelf (h : OwnOnly ns name allowed c₀ c)
    (hshelf : c'.shelf .unifiedPushServer = c.shelf .unifiedPushServer) :
    OwnOnly ns name allowed c₀ c' := by
  have hget (ns' name' : String) := get?_of_shelf hshelf ns' name'
  refine ⟨?_, ?_, ?_⟩
  · intro ns' name' o ho
    exact h.filed ns' name' o (hget ns' name' ▸ ho)
  · intro ns' name' hne
    rw [hget, h.others ns' name' hne]
  · rw [hget]
    exact h.own

/-- Storing a status in place of that of the server. -/
theorem OwnOnly.store (h : OwnOnly ns name allowed c₀ c) {stored : Server}
    (hstored : c.get? .unifiedPushServer ns name = some stored) (status : Option ServerStatus)
    (hallowed : allowed (Server.phase { stored with status })) :
    OwnOnly ns name allowed c₀ (c.store ns name { stored with status }).2 := by
  obtain ⟨hns, hname⟩ := h.filed _ _ stored hstored
  refine ⟨h.filed.store hns hname, ?_, ?_⟩
  · intro ns' name' hne
    rw [get?_store, if_neg fun hplace => hne (Prod.ext hplace.1 hplace.2)]
    exact h.others ns' name' hne
  · exact .inr ⟨_, get?_store_self c ns name _, hallowed⟩

theorem OwnOnly.answer_updateStatus (h : OwnOnly ns name allowed c₀ c) {o : Server}
    (hns : nsOf o = ns) (hname : nameOf o = name) (hallowed : allowed (Server.phase o)) :
    OwnOnly ns name allowed c₀ (c.answer (.updateStatus .unifiedPushServer o)).2 := by
  show OwnOnly ns name allowed c₀ (c.replace o _).2
  unfold Cluster.replace
  rw [hns, hname]
  split
  · exact h
  · next stored hstored =>
    split
    · exact h
    · exact h.store hstored o.status hallowed

/-- What a pass may ask changes no other server, whether it is seen to be answered or not. -/
theorem OwnOnly.answer {r : Request} (h : OwnOnly ns name allowed c₀ c)
    (hasks : (ownStatus ns name allowed).asks r) :
    OwnOnly ns name allowed c₀ (c.answer r).2 := by
  by_cases hwrites : r.Writes .unifiedPushServer
  · cases r with
    | updateStatus k o =>
      obtain rfl : k = .unifiedPushServer := hwrites
      exact h.answer_updateStatus hasks.1 hasks.2.1 hasks.2.2
    | get | list | probe => exact hwrites.elim
    | create | update | delete => exact absurd hwrites hasks
  · exact h.of_shelf (shelf_answer c hwrites)

end Cluster

/-- A cluster keeps its side, and other servers stay as they are. -/
theorem honors_ownStatus {allowed : Phase → Prop} (c₀ : Cluster) :
    Interaction.Honors flaky (ownStatus ns name allowed) (OwnOnly ns name allowed c₀) := by
  rintro r c a c' hc hasks hanswer
  refine ⟨?_, ?_⟩
  · cases r with
    | updateStatus k o =>
      cases k with
      | unifiedPushServer =>
        cases a with
        | error => trivial
        | ok o' =>
          obtain ⟨stored, hstored, -, rfl, -⟩ :=
            Cluster.answer_updateStatus.1 (flaky_ok_iff.1 hanswer)
          have hname : nameOf stored = nameOf o := hc.filed.nameOf hstored
          exact ⟨(hc.filed _ _ stored hstored).1, hname⟩
      | _ => trivial
    | _ => trivial
  · rcases hanswer with hanswer | ⟨error, -, rfl | rfl⟩
    · obtain rfl : (c.answer r).2 = c' := by rw [hanswer]
      exact hc.answer hasks
    · exact hc
    · exact hc.answer hasks

/-! ## The end of a pass -/

/-- A pass that comes to the thirty seconds has gone through its whole body: a part that stops early
asks for another time, and so does a pass that has failed. -/
theorem completes_of_reconcile {w : World Cluster} (hw : ∀ r c a c', w r c a c' → flaky r c a c')
    {c c' : Cluster} {t : Trace} (hc : c.Filed)
    (h : Run w (reconcile settings ns name).run c t (some (.ok (.requeue 30))) c') :
    settings.watches ns = true ∧
      ∃ server st', c.get? .unifiedPushServer ns name = some server ∧
        Pass.Completes w (fun _ => True) (Pass.body settings) { server, stored := server.status } c
          (.requeue 30) st' c' := by
  cases hwatched : settings.watches ns with
  | false =>
    rw [run_reconcile_of_unwatched hwatched] at h
    obtain ⟨heq, -, -⟩ := run_done_some.1 h
    cases heq
  | true =>
    rw [run_reconcile hwatched] at h
    obtain ⟨answer, c₁, t₁, hget, hrest, -⟩ := run_call_some.1 h
    rcases answer with error | _ | server
    · cases (run_done_some.1 hrest).1
    · cases (run_done_some.1 hrest).1
    obtain ⟨hserver, rfl⟩ := answer_get.1 (flaky_ok_iff.1 (hw _ _ _ _ hget))
    obtain ⟨hns, -⟩ := hc _ _ _ _ hserver.symm
    have hname := hc.nameOf hserver.symm
    obtain ⟨action, c₂, t₂, t₃, hpass, hdone, -⟩ := run_bind_iff.1 hrest
    obtain ⟨heq, -, rfl⟩ := run_done_some.1 hdone
    obtain rfl := Except.ok.inj heq
    rw [Pass.run_eq] at hpass
    obtain ⟨⟨result, st'⟩, c₃, t₄, t₅, hbody, hend, -⟩ := run_bind_iff.1 hpass
    have hobeys : Pass.Obeys (Pass.passDuties ns name) _ (Pass.body settings) := Pass.obeys_body
    have hhonors : Interaction.Honors flaky (Pass.passDuties ns name).contract
        (OwnOnly ns name (fun phase => phase.isActive = true) c₁) := honors_ownStatus c₁
    obtain ⟨hown, hpost, -⟩ := (hobeys { server, stored := server.status } ⟨hns, hname⟩).run
      hhonors (Cluster.OwnOnly.refl (hc _)) (hbody.mono hw)
    obtain ⟨⟨hns', hname'⟩, -, hstops⟩ := hpost _ rfl
    refine ⟨rfl, server, st', hserver.symm, t₄, fun _ _ => trivial, ?_⟩
    -- Of the three ways in which the body can end, two do not lead to the thirty seconds.
    rcases result with (error | action) | action
    · have hconclude : (Pass.conclude error st').Obeys (ownStatus ns name (· = .failing)) _ :=
        Pass.obeys_conclude hns' hname'
      obtain ⟨-, hfive, -⟩ :=
        hconclude.run (honors_ownStatus c₃) (Cluster.OwnOnly.refl hown.filed) (hend.mono hw)
      cases hfive _ rfl
    · obtain ⟨rfl, -, rfl⟩ := run_done_some.1 hend
      exact absurd rfl (hstops _ rfl)
    · obtain ⟨rfl, -, rfl⟩ := run_done_some.1 hend
      exact hbody

namespace Pass

variable {P : Entry → Prop} {st st' : PassState} {c c' : Cluster} {action : Action} {u : Unit}

/-- A pass that goes on to its steps has only looked at the other servers. -/
theorem completes_deferToActive (h : Completes flaky P deferToActive st c u st' c') :
    st' = st ∧ c' = c := by
  have hrest := completes_server_bind.1 h
  split at hrest
  · exact (completes_pure.1 hrest).2
  · obtain ⟨_, -, hrest'⟩ := completes_build_bind.1 hrest
    obtain ⟨others, c₁, hlist', hend⟩ := completes_liftM_bind.1 hrest'
    obtain ⟨-, -, rfl⟩ := Task.completes_list.1 hlist'
    split at hend
    · exact absurd hend completes_stop
    · exact (completes_pure.1 hend).2

/-- The steps of a pass stand between its two writes of the status. They leave the server alone, so
the second write finds it as the first one has left it. -/
theorem Completes.of_body {w : World Cluster} (hw : ∀ r c a c', w r c a c' → flaky r c a c')
    (h : Completes w P (body settings) st c action st' c') (hc : c.Filed)
    (hknows : Knows c ns name st) :
    ∃ st₁ c₁ st₂ c₂, Continues ns name st c st₁ c₁ ∧ st₁.server.metadata.ns = some ns ∧
      Completes w P (converge settings) st₁ c₁ () st₂ c₂ ∧
      (c₂.Filed → Stores ns name st₁.server
        (Server.succeed st₁.server st₂.ready st₂.children).observe.status c₂ st' c') := by
  obtain ⟨_, st₀, c₀, hdefer, hrest⟩ := completes_bind.1 h
  obtain ⟨rfl, rfl⟩ := completes_deferToActive (hdefer.mono hw)
  obtain ⟨_, st₁, c₁, hstart, hrest₁⟩ := completes_bind.1 hrest
  obtain ⟨_, st₂, c₂, hconverge, hrest₂⟩ := completes_bind.1 hrest₁
  obtain ⟨_, st₃, c₃, hsucceed, hend⟩ := completes_bind.1 hrest₂
  obtain ⟨-, rfl, rfl⟩ := completes_pure.1 hend
  have hcontinues := completes_start (hstart.mono hw) hc hknows
  -- The steps have asked for the namespace of the server, so it is the one that it stands in.
  obtain ⟨ns', hns⟩ := ns_of_converge (hconverge.mono hw)
  obtain rfl : ns' = ns := by
    have hplace := (hcontinues.filed _ _ _ _ hcontinues.knows.get?).1
    rwa [nsOf, hns] at hplace
  obtain ⟨hserver, hstored, hsame⟩ := writesOnly_converge.completes (hconverge.mono hw)
  have hknows₂ : Knows c₂ ns' name st₂ := by
    refine ⟨?_, ?_⟩
    · rw [get?_of_shelf (hsame.shelf .unifiedPushServer (by decide)), hserver]
      exact hcontinues.knows.get?
    · rw [hstored, hserver]
      exact hcontinues.knows.stored
  refine ⟨st₁, c₁, st₂, c₂, hcontinues, hns, hconverge, fun hfiled => ?_⟩
  have hstores := completes_succeed (hsucceed.mono hw) hfiled hknows₂
  rwa [hserver] at hstores

/-- A write of the status leaves the children alone. -/
theorem Stores.shelf {server : Server} {status : Option ServerStatus}
    (h : Stores ns name server status c st' c') {k : Kind} (hk : k ∈ childKinds) :
    c'.shelf k = c.shelf k := by
  refine h.same.shelf k fun hmem => ?_
  obtain rfl := List.mem_singleton.1 hmem
  exact absurd hk (by decide)

end Pass

/-! ## A cluster to try -/

/-- A part of a pass that can be evaluated to end with a result has a run to that end. -/
theorem Pass.run_drawing_ok {w : World Cluster} {refuses : Request → Bool} {pass : Pass Unit}
    {st : PassState} {c : Cluster}
    (hw : ∀ r c, w r c (if refuses r then (.error .unreachable, c) else c.answer r).1
      (if refuses r then (.error .unreachable, c) else c.answer r).2) (text : String)
    (hok : ((pass.exec st).run (drawing refuses text) c).1.1.isOk = true) :
    ∃ st', Run w (pass.exec st) c ((pass.exec st).trace (drawing refuses text) c)
      (some (.ok (), st')) ((pass.exec st).run (drawing refuses text) c).2 := by
  have hrun := run_drawing hw text (pass.exec st) c
  rcases hresult : ((pass.exec st).run (drawing refuses text) c).1 with ⟨_ | u, st'⟩
  · rw [hresult] at hok
    cases hok
  · rw [hresult] at hrun
    exact ⟨st', hrun⟩

/-- A new server with a backup. -/
def sampleServer (name : String) : Server where
  metadata := { name := some name, ns := some "push", uid := some ("uid-" ++ name) }
  spec := { backups := [
    { name := name ++ "-nightly", schedule := "@daily", backendSecretName := "bucket" }] }
  status := none

/-- Two new servers, and the account that backups need. -/
def sampleCluster : Cluster :=
  let account : ServiceAccount := {
    metadata := { name := some Child.Backup.account, ns := some "push" }
    spec := default
    status := () }
  let c := (Cluster.empty.store "push" Child.Backup.account account).2
  let c := (c.store "push" "a" (sampleServer "a")).2
  (c.store "push" "b" (sampleServer "b")).2

theorem filed_sampleCluster : sampleCluster.Filed :=
  ((filed_empty.store rfl rfl).store rfl rfl).store rfl rfl

theorem get?_sampleCluster : sampleCluster.get? .unifiedPushServer "push" "a" =
    some (stamped 2 (sampleServer "a")) := rfl

/-- A new server of the first generation. -/
def firstServer : Server :=
  { sampleServer "a" with metadata := { (sampleServer "a").metadata with generation := some 1 } }

/-- The same cluster with a server that has a generation. -/
def firstCluster : Cluster := (sampleCluster.store "push" "a" firstServer).2

theorem filed_firstCluster : firstCluster.Filed := filed_sampleCluster.store rfl rfl

/-- The server as it is stored there. -/
def stampedServer : Server := stamped (sampleCluster.revision + 1) firstServer

theorem get?_firstCluster :
    firstCluster.get? .unifiedPushServer "push" "a" = some stampedServer :=
  get?_store_self sampleCluster "push" "a" firstServer

/-- None of the servers has a status. -/
theorem status_sampleCluster {server : Server}
    (h : sampleCluster.get? .unifiedPushServer ns name = some server) : server.status = none := by
  unfold sampleCluster at h
  dsimp only at h
  rw [get?_store] at h
  split at h
  · obtain rfl := Option.some.inj h
    rfl
  rw [get?_store] at h
  split at h
  · obtain rfl := Option.some.inj h
    rfl
  rw [get?_of_shelf (shelf_store_of_ne _ _ _ _ (by decide))] at h
  cases h

/-- The first pass over a new server goes through. -/
theorem exists_run_sampleCluster : ∃ t c',
    Run reliable (reconcile {} "push" "a").run sampleCluster t (some (.ok (.requeue 30))) c' := by
  have hresult : (Rehearsal.run (reconcile {} "push" "a") { cluster := sampleCluster }).1.toOption =
      some (.requeue 30) := by
    decide +kernel
  exact Rehearsal.exists_run_of_unplanned rfl rfl hresult

end PushOperator
