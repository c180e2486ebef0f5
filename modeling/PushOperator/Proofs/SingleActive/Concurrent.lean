import PushOperator.Proofs.Interaction.Interleaved
import PushOperator.Proofs.SingleActive.Sequential

/-!
# Passes at the same time

Passes over several servers of a namespace may run at the same time. A pass looks at the other
servers once and writes its own status later, and nothing keeps another pass from looking in
between. So there are two servers that become active at the same time exactly when both of their
passes have looked before either has written: up to such a point of a run no two of them are active,
and from such a point on two servers that were new become active with the next two calls.
-/

namespace PushOperator

open Cluster

variable {settings : Settings} {c c₁ : Cluster} {ns name : String} {server : Server}

/-- The answer to a listing of the servers of a namespace that shows no active one. -/
def Entry.ShowsNone (ns : String) (e : Entry) : Prop :=
  ∃ others : List Server, e = .call (.list .unifiedPushServer ns "") (.ok others) ∧
    ∀ other ∈ others, (Server.phase other).isActive = false

namespace Pass

/-- A pass over a server that has been fetched, as a task. -/
def asTask (x : Interaction Action) : Interaction (Except Error Action) :=
  x.bind fun action => .done (.ok action)

/-! ## How far a pass has come -/

/-- How far the pass over a server has come that was inactive at the beginning. `looked` says
whether it has seen that no server is active. As long as it has not written its status, the server
is as it was. -/
inductive Stage (settings : Settings) (ns name : String) (server : Server) (c : Cluster)
    (looked : Prop) : Interaction (Except Error Action) → Prop
  | asking : ¬looked → c.get? .unifiedPushServer ns name = some server →
      Stage settings ns name server c looked (reconcile settings ns name).run
  | looking : ¬looked → c.get? .unifiedPushServer ns name = some server →
      Stage settings ns name server c looked (asTask (run settings server))
  | deferred (r : Except Error Action) : ¬looked →
      Stage settings ns name server c looked (.done r)
  | poised : looked → c.get? .unifiedPushServer ns name = some server →
      Stage settings ns name server c looked (asTask (proceedRun settings server))
  | proceeding (x : Interaction (Except Halt Action × PassState)) : looked →
      (x.Obeys (ownStatus ns name fun phase => phase.isActive = true) fun p =>
        nsOf p.2.server = ns ∧ nameOf p.2.server = name) →
      (c.get? .unifiedPushServer ns name = some server ∧ Server.isNew server = false ∨
        c.ActiveAt ns name) →
      Stage settings ns name server c looked (asTask (x.bind finish))
  | ending (x : Interaction (Except Error Action)) :
      (x.Obeys (ownStatus ns name (· = .failing)) fun _ => True) →
      (Server.isNew server = true → c.get? .unifiedPushServer ns name ≠ some server) →
      Stage settings ns name server c looked x

variable {looked : Prop} {x y : Interaction (Except Error Action)} {e : Entry}

/-- What other passes do does not matter as long as the server stays as it is. -/
theorem Stage.of_get? (h : Stage settings ns name server c looked x)
    (hget : c₁.get? .unifiedPushServer ns name = c.get? .unifiedPushServer ns name) :
    Stage settings ns name server c₁ looked x := by
  cases h with
  | asking hlooked hserver => exact .asking hlooked (hget.trans hserver)
  | looking hlooked hserver => exact .looking hlooked (hget.trans hserver)
  | deferred r hlooked => exact .deferred r hlooked
  | poised hlooked hserver => exact .poised hlooked (hget.trans hserver)
  | proceeding x hlooked hx hstate =>
    refine .proceeding x hlooked hx ?_
    rwa [hget, activeAt_congr hget]
  | ending x hx hwritten =>
    refine .ending _ hx fun hnew => ?_
    rw [hget]
    exact hwritten hnew

theorem ne_of_activeAt (hactive : c.ActiveAt ns name) (h : (Server.phase server).isActive = false) :
    c.get? .unifiedPushServer ns name ≠ some server := by
  intro hserver
  obtain ⟨live, hlive, hphase⟩ := hactive
  obtain rfl := Option.some.inj (hserver.symm.trans hlive)
  rw [h] at hphase
  cases hphase

/-- The first thing that a pass does over a new server, once it has looked, is to write its status.
-/
theorem exec_proceed_of_isNew (settings : Settings) (h : Server.isNew server = true) : ∃ next,
    (proceed settings).exec { server, stored := server.status } =
      .call (.updateStatus .unifiedPushServer (Server.start server).observe) next := by
  have hchanged : (Server.start server).observe.status ≠ server.status := by
    intro heq
    have hphase := Server.phase_start h
    rw [Server.phase, heq] at hphase
    unfold Server.isNew Server.phase at h
    rw [hphase] at h
    cases h
  have hpersist : ∃ next, (Task.persist (Server.start server) server.status).run =
      .call (.updateStatus .unifiedPushServer (Server.start server).observe) next := by
    unfold Task.persist
    dsimp only
    rw [if_neg hchanged]
    exact ⟨_, rfl⟩
  obtain ⟨next, hpersist⟩ := hpersist
  have hstart : start.exec { server, stored := server.status } =
      (persist.exec { server := Server.start server, stored := server.status }) := by
    unfold start
    rw [exec_bind, exec_get]
    show ((if Server.isNew server then _ else _ : Pass Unit)).exec _ = _
    rw [if_pos h]
    rfl
  have hexec : ∃ next', persist.exec { server := Server.start server, stored := server.status } =
      .call (.updateStatus .unifiedPushServer (Server.start server).observe) next' := by
    show ∃ next', (((Task.persist (Server.start server) server.status).run.bind _).bind _) = _
    rw [hpersist]
    exact ⟨_, rfl⟩
  obtain ⟨next', hexec⟩ := hexec
  unfold proceed
  rw [exec_bind, hstart, hexec]
  exact ⟨_, rfl⟩

/-- That write goes through. -/
theorem answer_start (hc : c.FiledOf .unifiedPushServer)
    (hserver : c.get? .unifiedPushServer ns name = some server) :
    c.answer (.updateStatus .unifiedPushServer (Server.start server).observe) =
      (.ok (stamped (c.revision + 1)
          { server with status := (Server.start server).observe.status }),
        (c.store ns name { server with status := (Server.start server).observe.status }).2) := by
  have hmeta : (Server.start server).observe.metadata = server.metadata := by
    unfold Server.start
    split <;> rfl
  have hns : nsOf (Server.start server).observe = ns := by
    rw [nsOf, hmeta]
    exact (hc _ _ _ hserver).1
  have hname : nameOf (Server.start server).observe = name := by
    rw [nameOf, hmeta]
    exact hc.nameOf hserver
  refine Cluster.answer_updateStatus.2 ⟨server, ?_, ?_, rfl, ?_⟩
  · rw [hns, hname]
    exact hserver
  · simp [isStale, hmeta]
  · rw [hns, hname]

/-! ## The steps of a pass -/

theorem asTask_bind {α : Type} (x : Interaction α) (f : α → Interaction Action) :
    asTask (x.bind f) = x.bind fun a => asTask (f a) :=
  Interaction.bind_assoc x f _

theorem obeys_asTask {post : Action → Prop} {k : Contract} {x : Interaction Action}
    (h : x.Obeys k post) : (asTask x).Obeys k fun _ => True := by
  unfold asTask
  rw [Interaction.obeys_bind_iff]
  exact h.mono (fun _ h => h) (fun _ _ h => h) fun _ _ => trivial

/-- What a pass does over its server once it does not defer, up to its end. -/
theorem obeys_exec_proceed (settings : Settings) (hns : nsOf server = ns)
    (hname : nameOf server = name) :
    ((proceed settings).exec { server, stored := server.status }).Obeys
      (ownStatus ns name fun phase => phase.isActive = true) fun p =>
        nsOf p.2.server = ns ∧ nameOf p.2.server = name := by
  have hproceed : Obeys (passDuties ns name) (fun _ => True) (proceed settings) := obeys_proceed
  have hexec := hproceed { server, stored := server.status } ⟨hns, hname⟩
  exact hexec.mono (fun _ h => h) (fun _ _ h => h) fun _ h => h.1

/-- A pass that has failed stays so. -/
theorem step_of_failing (hc : c.FiledOf .unifiedPushServer)
    (hx : x.Obeys (ownStatus ns name (· = .failing)) fun _ => True)
    (hwritten : Server.isNew server = true → c.get? .unifiedPushServer ns name ≠ some server)
    (hstep : Step reliable x c e y c₁) :
    Stage settings ns name server c₁ looked y ∧ OwnOnly ns name (· = .failing) c c₁ := by
  obtain ⟨hy, hown, -⟩ := Interaction.Obeys.step (honors_ownStatus c) hx (OwnOnly.refl hc)
    (hstep.mono flaky_of_reliable)
  refine ⟨.ending _ hy fun hnew hget => ?_, hown⟩
  rcases hown.own with hsame | ⟨failed, hfailed, hphase⟩
  · exact hwritten hnew (hsame ▸ hget)
  · obtain rfl := Option.some.inj (hget.symm.trans hfailed)
    unfold Server.isNew at hnew
    rw [hphase] at hnew
    cases hnew

/-- A pass that has looked makes its server nothing but active until it ends. -/
theorem step_of_proceeding (hc : c.FiledOf .unifiedPushServer)
    (hinactive : (Server.phase server).isActive = false)
    {x : Interaction (Except Halt Action × PassState)} (hlooked : looked)
    (hx : x.Obeys (ownStatus ns name fun phase => phase.isActive = true) fun p =>
      nsOf p.2.server = ns ∧ nameOf p.2.server = name)
    (hstate : c.get? .unifiedPushServer ns name = some server ∧ Server.isNew server = false ∨
      c.ActiveAt ns name)
    (hstep : Step reliable (asTask (x.bind finish)) c e y c₁) :
    Stage settings ns name server c₁ looked y ∧ OwnOnly ns name (fun _ => True) c c₁ := by
  rw [asTask_bind] at hstep
  -- The step is the first one of the end of the pass, or one of what comes before it.
  rcases hstep.bind_cases with ⟨p, rfl, hstep'⟩ | ⟨x', hstep', rfl⟩
  · have hends : (asTask (finish p)).Obeys (ownStatus ns name (· = .failing)) fun _ => True :=
      obeys_asTask (obeys_finish hx.1 hx.2)
    have hwritten (hnew : Server.isNew server = true) :
        c.get? .unifiedPushServer ns name ≠ some server := by
      rcases hstate with ⟨-, hseen⟩ | hactive
      · rw [hnew] at hseen
        cases hseen
      · exact ne_of_activeAt hactive hinactive
    obtain ⟨hstage, hown⟩ := step_of_failing hc hends hwritten hstep'
    exact ⟨hstage, hown.mono fun _ _ => trivial⟩
  · obtain ⟨hx', hown, -⟩ := Interaction.Obeys.step (honors_ownStatus c) hx (OwnOnly.refl hc)
      (hstep'.mono flaky_of_reliable)
    rw [← asTask_bind]
    refine ⟨.proceeding x' hlooked hx' ?_, hown.mono fun _ _ => trivial⟩
    rcases hown.own with hsame | ⟨active, hactive, hphase⟩
    · rcases hstate with ⟨hserver, hseen⟩ | hactive
      · exact .inl ⟨hsame.trans hserver, hseen⟩
      · exact .inr ((activeAt_congr hsame).2 hactive)
    · exact .inr ⟨active, hactive, hphase⟩

/-- Fetching the server. -/
theorem step_of_asking (hserver : c.get? .unifiedPushServer ns name = some server)
    (hstep : Step reliable (reconcile settings ns name).run c e y c₁) :
    e = .call (.get .unifiedPushServer ns name) (.ok (some server)) ∧
      y = asTask (run settings server) ∧ c₁ = c := by
  cases hwatched : settings.watches ns with
  | false =>
    rw [run_reconcile_of_unwatched hwatched] at hstep
    cases hstep
  | true =>
    rw [run_reconcile hwatched] at hstep
    obtain ⟨answer, hanswer, rfl, rfl⟩ := hstep.call_cases
    have hanswer' : c.answer (.get .unifiedPushServer ns name) = (.ok (some server), c) :=
      answer_get.2 ⟨hserver.symm, rfl⟩
    obtain ⟨rfl, rfl⟩ := reliable_unique _ _ _ _ _ _ hanswer hanswer'
    exact ⟨rfl, rfl, rfl⟩

/-- Looking at the other servers. -/
theorem step_of_looking (hc : c.FiledOf .unifiedPushServer)
    (hserver : c.get? .unifiedPushServer ns name = some server) (hns : server.metadata.ns = some ns)
    (hinactive : (Server.phase server).isActive = false)
    (hstep : Step reliable (asTask (run settings server)) c e y c₁) :
    c₁ = c ∧ (¬e.ShowsNone ns ∧ (∃ name, c.ActiveAt ns name) ∧ y = .done (.ok .awaitChange) ∨
      e.ShowsNone ns ∧ (∀ name, ¬c.ActiveAt ns name) ∧
        y = asTask (proceedRun settings server)) := by
  rw [run_of_inactive hinactive hns] at hstep
  obtain ⟨answer, hanswer, rfl, rfl⟩ := hstep.call_cases
  cases answer with
  | error error => cases hanswer
  | ok others =>
    obtain ⟨hothers, rfl⟩ := answer_list.1 hanswer
    refine ⟨rfl, ?_⟩
    dsimp only
    split
    · next hany =>
      obtain ⟨other, -, server', hserver', hactive⟩ := (any_isOtherActive hc hserver hothers).1 hany
      refine .inl ⟨?_, ⟨other, server', hserver', hactive⟩, rfl⟩
      rintro ⟨others', heq, hnone⟩
      obtain rfl := Except.ok.inj (eq_of_heq (Entry.call.inj heq).2)
      rw [hnone server' ((mem_list_servers hothers).2 ⟨other, hserver'⟩)] at hactive
      cases hactive
    · next hnone =>
      have hnobody (name' : String) : ¬c₁.ActiveAt ns name' := by
        intro hactive
        by_cases hname : name' = name
        · subst hname
          exact ne_of_activeAt hactive hinactive hserver
        · exact hnone ((any_isOtherActive hc hserver hothers).2 ⟨name', hname, hactive⟩)
      refine .inr ⟨⟨others, rfl, fun other hother => ?_⟩, hnobody, rfl⟩
      obtain ⟨name', hother'⟩ := (mem_list_servers hothers).1 hother
      cases hactive : (Server.phase other).isActive with
      | false => rfl
      | true => exact absurd ⟨other, hother', hactive⟩ (hnobody name')

/-- The first write of the status, over a new server. -/
theorem step_of_poised (hc : c.FiledOf .unifiedPushServer)
    (hserver : c.get? .unifiedPushServer ns name = some server) (hnew : Server.isNew server = true)
    (hstep : Step reliable (asTask (proceedRun settings server)) c e y c₁) :
    c₁ = (c.store ns name { server with status := (Server.start server).observe.status }).2 ∧
      c₁.ActiveAt ns name ∧ OwnOnly ns name (fun _ => True) c c₁ ∧
        ∀ looked : Prop, looked → Stage settings ns name server c₁ looked y := by
  obtain ⟨next, hnext⟩ := exec_proceed_of_isNew settings hnew
  have hx := obeys_exec_proceed settings (hc _ _ _ hserver).1 (hc.nameOf hserver)
  unfold proceedRun at hstep
  rw [hnext] at hx hstep
  obtain ⟨hasks, hrest⟩ := hx
  obtain ⟨answer, hanswer, rfl, rfl⟩ := hstep.call_cases
  obtain ⟨hrely, hown⟩ := honors_ownStatus c _ _ _ _ (OwnOnly.refl hc) hasks
    (flaky_of_reliable _ _ _ _ hanswer)
  obtain ⟨rfl, rfl⟩ := reliable_unique _ _ _ _ _ _ hanswer (answer_start hc hserver)
  have hactive : (c.store ns name
      { server with status := (Server.start server).observe.status }).2.ActiveAt ns name := by
    refine ⟨_, get?_store_self c ns name _, ?_⟩
    show (Server.phase (Server.start server).observe).isActive = true
    rw [Server.phase_start hnew]
    rfl
  refine ⟨rfl, hactive, hown.mono fun _ _ => trivial, fun looked hlooked => ?_⟩
  exact .proceeding _ hlooked (hrest _ hrely) (.inr hactive)

/-- What a step of a pass does to its stage and to the servers. -/
theorem Stage.step (hc : c.FiledOf .unifiedPushServer) (hns : server.metadata.ns = some ns)
    (hinactive : (Server.phase server).isActive = false)
    (h : Stage settings ns name server c looked x) (hstep : Step reliable x c e y c₁) :
    Stage settings ns name server c₁ (looked ∨ e.ShowsNone ns) y ∧
      OwnOnly ns name (fun _ => True) c c₁ := by
  cases h with
  | asking hlooked hserver =>
    obtain ⟨rfl, rfl, rfl⟩ := step_of_asking hserver hstep
    refine ⟨.looking ?_ hserver, .refl hc⟩
    rintro (h | ⟨others, heq, -⟩)
    · exact hlooked h
    · cases heq
  | looking hlooked hserver =>
    obtain ⟨rfl, ⟨hsome, -, rfl⟩ | ⟨hnone, -, rfl⟩⟩ :=
      step_of_looking hc hserver hns hinactive hstep
    · exact ⟨.deferred _ fun h => h.elim hlooked hsome, .refl hc⟩
    · exact ⟨.poised (.inr hnone) hserver, .refl hc⟩
  | deferred r hlooked => cases hstep
  | poised hlooked hserver =>
    cases hnew : Server.isNew server with
    | true =>
      obtain ⟨-, -, hown, hstage⟩ := step_of_poised hc hserver hnew hstep
      exact ⟨hstage _ (.inl hlooked), hown⟩
    | false =>
      have hx := obeys_exec_proceed settings (hc _ _ _ hserver).1 (hc.nameOf hserver)
      exact step_of_proceeding hc hinactive (.inl hlooked) hx (.inl ⟨hserver, hnew⟩) hstep
  | proceeding x hlooked hx hstate =>
    exact step_of_proceeding hc hinactive (.inl hlooked) hx hstate hstep
  | ending x hx hwritten =>
    obtain ⟨hstage, hown⟩ := step_of_failing hc hx hwritten hstep
    exact ⟨hstage, hown.mono fun _ _ => trivial⟩

/-! ## Steps that can be taken -/

theorem exists_step_of_asking (hwatched : settings.watches ns = true)
    (hserver : c.get? .unifiedPushServer ns name = some server) :
    ∃ e, Step reliable (reconcile settings ns name).run c e (asTask (run settings server)) c := by
  have hstep : ∃ e y c₁, Step reliable (reconcile settings ns name).run c e y c₁ := by
    rw [run_reconcile hwatched]
    exact ⟨_, _, _, .call rfl⟩
  obtain ⟨e, y, c₁, hstep⟩ := hstep
  obtain ⟨-, rfl, rfl⟩ := step_of_asking hserver hstep
  exact ⟨e, hstep⟩

theorem exists_step_of_looking (settings : Settings) (hc : c.FiledOf .unifiedPushServer)
    (hserver : c.get? .unifiedPushServer ns name = some server) (hns : server.metadata.ns = some ns)
    (hnobody : ∀ name, ¬c.ActiveAt ns name) : ∃ e, e.ShowsNone ns ∧
      Step reliable (asTask (run settings server)) c e (asTask (proceedRun settings server)) c := by
  have hinactive : (Server.phase server).isActive = false := by
    cases hactive : (Server.phase server).isActive with
    | false => rfl
    | true => exact absurd ⟨server, hserver, hactive⟩ (hnobody name)
  have hstep : ∃ e y c₁, Step reliable (asTask (run settings server)) c e y c₁ := by
    rw [run_of_inactive hinactive hns]
    exact ⟨_, _, _, .call rfl⟩
  obtain ⟨e, y, c₁, hstep⟩ := hstep
  obtain ⟨rfl, ⟨-, ⟨other, hother⟩, -⟩ | ⟨hnone, -, rfl⟩⟩ :=
    step_of_looking hc hserver hns hinactive hstep
  · exact absurd hother (hnobody other)
  · exact ⟨e, hnone, hstep⟩

theorem exists_step_of_poised (settings : Settings) (hc : c.FiledOf .unifiedPushServer)
    (hserver : c.get? .unifiedPushServer ns name = some server)
    (hnew : Server.isNew server = true) :
    ∃ e y c₁, Step reliable (asTask (proceedRun settings server)) c e y c₁ := by
  obtain ⟨next, hnext⟩ := exec_proceed_of_isNew settings hnew
  unfold proceedRun
  rw [hnext]
  exact ⟨_, _, _, .call (answer_start hc hserver)⟩

end Pass

/-! ## Several passes -/

section Several

open Pass

variable {ι : Type} {names : ι → String} {servers : ι → Server} {i j k : ι}
  {x x' : ι → Interaction (Except Error Action)} {y : Interaction (Except Error Action)} {e : Entry}
  {t : List (ι × Entry)} {c' : Cluster}

/-- A pass has looked at the servers of a namespace and has seen no active one. -/
def Looked (ns : String) (t : List (ι × Entry)) (i : ι) : Prop := ∃ e, (i, e) ∈ t ∧ e.ShowsNone ns

theorem looked_append_self : Looked ns (t ++ [(i, e)]) i ↔ Looked ns t i ∨ e.ShowsNone ns := by
  constructor
  · rintro ⟨e', hmem, hnone⟩
    rcases List.mem_append.1 hmem with hmem' | hmem'
    · exact .inl ⟨e', hmem', hnone⟩
    · obtain ⟨-, rfl⟩ := Prod.mk.inj (List.mem_singleton.1 hmem')
      exact .inr hnone
  · rintro (⟨e', hmem, hnone⟩ | hnone)
    · exact ⟨e', List.mem_append_left _ hmem, hnone⟩
    · exact ⟨e, List.mem_append_right _ List.mem_cons_self, hnone⟩

theorem looked_append_of_ne (h : i ≠ k) : Looked ns (t ++ [(k, e)]) i ↔ Looked ns t i := by
  constructor
  · rintro ⟨e', hmem, hnone⟩
    rcases List.mem_append.1 hmem with hmem' | hmem'
    · exact ⟨e', hmem', hnone⟩
    · exact absurd (Prod.mk.inj (List.mem_singleton.1 hmem')).1 h
  · rintro ⟨e', hmem, hnone⟩
    exact ⟨e', List.mem_append_left _ hmem, hnone⟩

/-- Passes over several servers that were inactive when they began. -/
structure Underway (settings : Settings) (ns : String) (names : ι → String) (servers : ι → Server)
    (x : ι → Interaction (Except Error Action)) (c : Cluster) (t : List (ι × Entry)) : Prop where
  filed : c.FiledOf .unifiedPushServer
  distinct : names.Injective
  namespaced : ∀ i, (servers i).metadata.ns = some ns
  inactive : ∀ i, (Server.phase (servers i)).isActive = false
  stage : ∀ i, Stage settings ns (names i) (servers i) c (Looked ns t i) (x i)

/-- A pass whose server is not active, and will not be before the pass looks at the others. -/
def Harmless (ns : String) (names : ι → String) (x : ι → Interaction (Except Error Action))
    (c : Cluster) (t : List (ι × Entry)) (i : ι) : Prop :=
  ¬c.ActiveAt ns (names i) ∧
    (¬Looked ns t i ∨ (x i).Obeys (ownStatus ns (names i) (· = .failing)) fun _ => True)

/-- A point at which two passes have looked and neither has written its status yet. -/
structure RacePoint (ns : String) (names : ι → String) (servers : ι → Server) (i j : ι)
    (c : Cluster) (t : List (ι × Entry)) : Prop where
  looked : Looked ns t i ∧ Looked ns t j
  unwritten : c.get? .unifiedPushServer ns (names i) = some (servers i) ∧
    c.get? .unifiedPushServer ns (names j) = some (servers j)

theorem RacePoint.symm (h : RacePoint ns names servers i j c t) :
    RacePoint ns names servers j i c t := ⟨h.looked.symm, h.unwritten.symm⟩

/-- When no server is active, a pass is harmless unless it has looked and not written yet. -/
theorem Underway.harmless_or_unwritten (h : Underway settings ns names servers x c t)
    (hnobody : ∀ name, ¬c.ActiveAt ns name) (j : ι) :
    Harmless ns names x c t j ∨
      Looked ns t j ∧ c.get? .unifiedPushServer ns (names j) = some (servers j) := by
  have hstage := h.stage j
  generalize hx : x j = xj at hstage
  cases hstage with
  | asking hlooked _ => exact .inl ⟨hnobody _, .inl hlooked⟩
  | looking hlooked _ => exact .inl ⟨hnobody _, .inl hlooked⟩
  | deferred r hlooked => exact .inl ⟨hnobody _, .inl hlooked⟩
  | poised hlooked hserver => exact .inr ⟨hlooked, hserver⟩
  | proceeding x hlooked _ hstate =>
    rcases hstate with ⟨hserver, -⟩ | hactive
    · exact .inr ⟨hlooked, hserver⟩
    · exact absurd hactive (hnobody _)
  | ending _ hfailing _ => exact .inl ⟨hnobody _, .inr (hx ▸ hfailing)⟩

/-- A pass over a new server that has looked and not written yet is about to write. -/
theorem Underway.poised (h : Underway settings ns names servers x c t) (hlooked : Looked ns t i)
    (hserver : c.get? .unifiedPushServer ns (names i) = some (servers i))
    (hnew : Server.isNew (servers i) = true) : x i = asTask (proceedRun settings (servers i)) := by
  have hstage := h.stage i
  generalize hx : x i = xi at hstage
  cases hstage with
  | asking hlooked' _ => exact absurd hlooked hlooked'
  | looking hlooked' _ => exact absurd hlooked hlooked'
  | deferred r hlooked' => exact absurd hlooked hlooked'
  | poised _ _ => rfl
  | proceeding x _ _ hstate =>
    rcases hstate with ⟨-, hseen⟩ | hactive
    · rw [hnew] at hseen
      cases hseen
    · exact absurd hserver (ne_of_activeAt hactive (h.inactive i))
  | ending _ _ hwritten => exact absurd hserver (hwritten hnew)

/-- Passes that have not begun. -/
theorem underway_begin (hns : ns ≠ "") (hnames : names.Injective)
    (hc : c.FiledOf .unifiedPushServer)
    (hservers : ∀ i, c.get? .unifiedPushServer ns (names i) = some (servers i))
    (hinactive : ∀ i, (Server.phase (servers i)).isActive = false) :
    Underway settings ns names servers (fun i => (reconcile settings ns (names i)).run) c [] := by
  refine ⟨hc, hnames, fun i => hc.ns_eq (hservers i) hns, hinactive, fun i => ?_⟩
  refine .asking ?_ (hservers i)
  rintro ⟨e, hmem, -⟩
  cases hmem

variable [DecidableEq ι]

/-- A step of a pass changes no server but its own. -/
theorem Underway.step (h : Underway settings ns names servers x c t)
    (hstep : Step reliable (x k) c e y c₁) :
    Underway settings ns names servers (Function.update x k y) c₁ (t ++ [(k, e)]) ∧
      OwnOnly ns (names k) (fun _ => True) c c₁ := by
  obtain ⟨hstage, hown⟩ := (h.stage k).step h.filed (h.namespaced k) (h.inactive k) hstep
  refine ⟨⟨hown.filed, h.distinct, h.namespaced, h.inactive, fun i => ?_⟩, hown⟩
  by_cases hik : i = k
  · subst hik
    rw [Function.update_self, looked_append_self]
    exact hstage
  · rw [Function.update_of_ne hik, looked_append_of_ne hik]
    exact (h.stage i).of_get? (hown.get? fun heq => hik (h.distinct heq))

/-- A pass that can only fail remains harmless. -/
theorem harmless_of_failing (hc : c.FiledOf .unifiedPushServer)
    (hinactive : ¬c.ActiveAt ns (names i))
    (hfailing : (x i).Obeys (ownStatus ns (names i) (· = .failing)) fun _ => True)
    (hstep : Step reliable (x i) c e y c₁) :
    Harmless ns names (Function.update x i y) c₁ (t ++ [(i, e)]) i := by
  obtain ⟨hy, hown, -⟩ := Interaction.Obeys.step (honors_ownStatus c) hfailing (OwnOnly.refl hc)
    (hstep.mono flaky_of_reliable)
  refine ⟨fun hactive => hinactive (hown.activeAt_of_failing hactive), .inr ?_⟩
  rw [Function.update_self]
  exact hy

/-- As long as one of two passes is harmless, one of them remains so, or they race. -/
theorem Harmless.step (hij : i ≠ j) (h : Underway settings ns names servers x c t)
    (hsafe : Harmless ns names x c t i) (hstep : Step reliable (x k) c e y c₁) :
    Harmless ns names (Function.update x k y) c₁ (t ++ [(k, e)]) i ∨
      Harmless ns names (Function.update x k y) c₁ (t ++ [(k, e)]) j ∨
        RacePoint ns names servers i j c₁ (t ++ [(k, e)]) := by
  obtain ⟨hinactive, hharmless⟩ := hsafe
  -- Only a step of the pass itself can end that, and of its steps only the look at the others.
  by_cases hik : i = k
  · subst hik
    rcases hharmless with hlooked | hfailing
    · have hstage := h.stage i
      generalize hx : x i = xi at hstage hstep
      cases hstage with
      | asking _ hserver =>
        obtain ⟨rfl, rfl, rfl⟩ := step_of_asking hserver hstep
        refine .inl ⟨hinactive, .inl fun hafter => ?_⟩
        rcases looked_append_self.1 hafter with hbefore | ⟨others, heq, -⟩
        · exact hlooked hbefore
        · cases heq
      | looking _ hserver =>
        obtain ⟨rfl, ⟨-, -, rfl⟩ | ⟨hnone, hnobody, rfl⟩⟩ :=
          step_of_looking h.filed hserver (h.namespaced i) (h.inactive i) hstep
        · refine .inl ⟨hinactive, .inr ?_⟩
          rw [Function.update_self]
          trivial
        -- The pass has seen that the other one is not active, so all depends on how far that is.
        · rcases h.harmless_or_unwritten hnobody j with
            ⟨hinactive', hharmless'⟩ | ⟨hlooked', hserver'⟩
          · refine .inr (.inl ⟨hinactive', ?_⟩)
            rwa [looked_append_of_ne hij.symm, Function.update_of_ne hij.symm]
          · refine .inr (.inr ⟨⟨looked_append_self.2 (.inr hnone), ?_⟩, hserver, hserver'⟩)
            exact (looked_append_of_ne hij.symm).2 hlooked'
      | deferred r _ => cases hstep
      | poised hlooked' _ => exact absurd hlooked' hlooked
      | proceeding x hlooked' _ _ => exact absurd hlooked' hlooked
      | ending _ hfailing _ =>
        exact .inl (harmless_of_failing h.filed hinactive (hx ▸ hfailing) (hx ▸ hstep))
    · exact .inl (harmless_of_failing h.filed hinactive hfailing hstep)
  · obtain ⟨-, hown⟩ := h.step hstep
    have hsame := hown.get? fun heq => hik (h.distinct heq)
    refine .inl ⟨by rwa [activeAt_congr hsame], ?_⟩
    rwa [looked_append_of_ne hik, Function.update_of_ne hik]

/-- Two servers are only active at the same time after their passes have raced. -/
theorem exists_racePoint (hij : i ≠ j) (hrun : Interleaved reliable x c t x' c')
    {t₀ : List (ι × Entry)} (h : Underway settings ns names servers x c t₀)
    (hsafe : Harmless ns names x c t₀ i ∨ Harmless ns names x c t₀ j)
    (hi : c'.ActiveAt ns (names i)) (hj : c'.ActiveAt ns (names j)) :
    ∃ t₁ t₂ x₁ c₁, t = t₁ ++ t₂ ∧ Interleaved reliable x c t₁ x₁ c₁ ∧
      Interleaved reliable x₁ c₁ t₂ x' c' ∧ RacePoint ns names servers i j c₁ (t₀ ++ t₁) := by
  -- The induction is on the run, and what carries it is that one of the two passes is harmless.
  induction hrun generalizing t₀ with
  | refl =>
    rcases hsafe with ⟨hinactive, -⟩ | ⟨hinactive, -⟩
    · exact absurd hi hinactive
    · exact absurd hj hinactive
  | @step x x' c c₁ c' k e y t hstep hrest ih =>
    obtain ⟨hunder, -⟩ := h.step hstep
    have hnext : (Harmless ns names (Function.update x k y) c₁ (t₀ ++ [(k, e)]) i ∨
        Harmless ns names (Function.update x k y) c₁ (t₀ ++ [(k, e)]) j) ∨
          RacePoint ns names servers i j c₁ (t₀ ++ [(k, e)]) := by
      rcases hsafe with hsafe | hsafe
      · rcases hsafe.step hij h hstep with hnext | hnext | hrace
        · exact .inl (.inl hnext)
        · exact .inl (.inr hnext)
        · exact .inr hrace
      · rcases hsafe.step hij.symm h hstep with hnext | hnext | hrace
        · exact .inl (.inr hnext)
        · exact .inl (.inl hnext)
        · exact .inr hrace.symm
    rcases hnext with hnext | hrace
    · obtain ⟨t₁, t₂, x₁, c₂, rfl, hfirst, hlast, hrace⟩ := ih hunder hnext hi hj
      refine ⟨(k, e) :: t₁, t₂, x₁, c₂, rfl, .step hstep hfirst, hlast, ?_⟩
      rwa [List.append_assoc] at hrace
    · exact ⟨[(k, e)], t, _, c₁, rfl, .step hstep (.refl _ _), hrest, hrace⟩

/-- From where the passes over two new servers race, two calls make both servers active. -/
theorem RacePoint.exists_active (hij : i ≠ j) (h : Underway settings ns names servers x c t)
    (hrace : RacePoint ns names servers i j c t) (hi : Server.isNew (servers i) = true)
    (hj : Server.isNew (servers j) = true) : ∃ t' x' c', Interleaved reliable x c t' x' c' ∧
      c'.ActiveAt ns (names i) ∧ c'.ActiveAt ns (names j) := by
  obtain ⟨⟨hlookedi, hlookedj⟩, hserveri, hserverj⟩ := hrace
  have hxi := h.poised hlookedi hserveri hi
  have hxj := h.poised hlookedj hserverj hj
  obtain ⟨e, y, c₁, hstep⟩ := exists_step_of_poised settings h.filed hserveri hi
  obtain ⟨-, hactivei, hown, -⟩ := step_of_poised h.filed hserveri hi hstep
  have hserverj' : c₁.get? .unifiedPushServer ns (names j) = some (servers j) :=
    (hown.get? fun heq => hij (h.distinct heq).symm).trans hserverj
  obtain ⟨e', y', c₂, hstep'⟩ := exists_step_of_poised settings hown.filed hserverj' hj
  obtain ⟨-, hactivej, hown', -⟩ := step_of_poised hown.filed hserverj' hj hstep'
  have hactivei' : c₂.ActiveAt ns (names i) :=
    (activeAt_congr (hown'.get? fun heq => hij (h.distinct heq))).2 hactivei
  refine ⟨[(i, e), (j, e')], _, c₂, .step_at hxi hstep (.step_at ?_ hstep' (.refl _ _)), hactivei',
    hactivej⟩
  rw [Function.update_of_ne hij.symm, hxj]

/-- As long as no server is active, two passes come to race when they take turns. -/
theorem exists_race (hwatched : settings.watches ns = true) (hij : i ≠ j)
    (h : Underway settings ns names servers (fun i => (reconcile settings ns (names i)).run) c [])
    (hservers : ∀ i, c.get? .unifiedPushServer ns (names i) = some (servers i))
    (hnobody : ∀ name, ¬c.ActiveAt ns name) : ∃ t x',
      Interleaved reliable (fun i => (reconcile settings ns (names i)).run) c t x' c ∧
        RacePoint ns names servers i j c t := by
  obtain ⟨e₁, hask₁⟩ := exists_step_of_asking hwatched (hservers i)
  obtain ⟨e₂, hask₂⟩ := exists_step_of_asking hwatched (hservers j)
  obtain ⟨e₃, hnone₃, hlook₁⟩ :=
    exists_step_of_looking settings h.filed (hservers i) (h.namespaced i) hnobody
  obtain ⟨e₄, hnone₄, hlook₂⟩ :=
    exists_step_of_looking settings h.filed (hservers j) (h.namespaced j) hnobody
  refine ⟨[(i, e₁), (j, e₂), (i, e₃), (j, e₄)], _,
    .step hask₁ (.step_at ?_ hask₂ (.step_at ?_ hlook₁ (.step_at ?_ hlook₂ (.refl _ _)))),
    ⟨?_, ?_⟩, hservers i, hservers j⟩
  · rw [Function.update_of_ne hij.symm]
  · rw [Function.update_of_ne hij, Function.update_self]
  · rw [Function.update_of_ne hij.symm, Function.update_self]
  · exact ⟨e₃, by simp, hnone₃⟩
  · exact ⟨e₄, by simp, hnone₄⟩

end Several

/-! ## Two new servers -/

/-- The names of two new servers. -/
def sampleNames (second : Bool) : String := if second then "b" else "a"

def sampleServers (second : Bool) : Server :=
  stamped (if second then 3 else 2) (sampleServer (sampleNames second))

theorem injective_sampleNames : sampleNames.Injective := by
  intro a b h
  revert a b
  decide

theorem get?_sampleServers (second : Bool) :
    sampleCluster.get? .unifiedPushServer "push" (sampleNames second) =
      some (sampleServers second) := by
  cases second <;> rfl

theorem underway_sampleCluster : Underway {} "push" sampleNames sampleServers
    (fun second => (reconcile {} "push" (sampleNames second)).run) sampleCluster [] :=
  underway_begin (by decide) injective_sampleNames (filed_sampleCluster _) get?_sampleServers
    (by decide)

/-- Their passes may race. -/
theorem exists_race_sampleCluster : ∃ t x, Interleaved reliable
    (fun second => (reconcile {} "push" (sampleNames second)).run) sampleCluster t x sampleCluster ∧
      RacePoint "push" sampleNames sampleServers false true sampleCluster t :=
  exists_race rfl (by decide) underway_sampleCluster get?_sampleServers not_activeAt_sampleCluster

/-! ## Both active -/

/-- Two servers are only active at the same time after a point of the run at which both passes have
looked before either has written. When both servers are new, every such point leads on to one at
which both are active. -/
theorem bothActive_race {ι : Type} [DecidableEq ι] {names : ι → String} {servers : ι → Server}
    {i j : ι} {x' : ι → Interaction (Except Error Action)} {t : List (ι × Entry)} {c' : Cluster}
    (hns : ns ≠ "") (hnames : names.Injective)
    (hc : c.FiledOf .unifiedPushServer)
    (hservers : ∀ i, c.get? .unifiedPushServer ns (names i) = some (servers i))
    (hinactive : ∀ i, (Server.phase (servers i)).isActive = false) (hij : i ≠ j)
    (hrun : Interleaved reliable (fun i => (reconcile settings ns (names i)).run) c t x' c') :
    (c'.ActiveAt ns (names i) → c'.ActiveAt ns (names j) → ∃ t₁ t₂ x₁ c₁, t = t₁ ++ t₂ ∧
      Interleaved reliable (fun i => (reconcile settings ns (names i)).run) c t₁ x₁ c₁ ∧
        Interleaved reliable x₁ c₁ t₂ x' c' ∧ RacePoint ns names servers i j c₁ t₁) ∧
      (RacePoint ns names servers i j c' t → Server.isNew (servers i) = true →
        Server.isNew (servers j) = true → ∃ t₂ x₂ c₂, Interleaved reliable x' c' t₂ x₂ c₂ ∧
          c₂.ActiveAt ns (names i) ∧ c₂.ActiveAt ns (names j)) := by
  have hbegin : Underway settings ns names servers _ c [] :=
    underway_begin hns hnames hc hservers hinactive
  constructor
  · intro hi hj
    refine exists_racePoint hij hrun hbegin (.inl ⟨?_, .inl ?_⟩) hi hj
    · exact fun hactive => Pass.ne_of_activeAt hactive (hinactive i) (hservers i)
    · rintro ⟨e, hmem, -⟩
      cases hmem
  · intro hrace hnewi hnewj
    have hunder :=
      Interleaved.preserves (fun x c t k e y c₁ h hstep => (h.step hstep).1) hrun hbegin
    exact hrace.exists_active hij hunder hnewi hnewj

theorem bothActive_race_sampleCluster : ∃ t x' c' t₁ t₂ x₁ c₁,
    c'.ActiveAt "push" "a" ∧ c'.ActiveAt "push" "b" ∧ t = t₁ ++ t₂ ∧
      Interleaved reliable (fun second => (reconcile {} "push" (sampleNames second)).run)
        sampleCluster t₁ x₁ c₁ ∧
        Interleaved reliable x₁ c₁ t₂ x' c' ∧
          RacePoint "push" sampleNames sampleServers false true c₁ t₁ := by
  obtain ⟨t, x, hrun, hrace⟩ := exists_race_sampleCluster
  have hne : false ≠ true := by decide
  obtain ⟨-, hleads⟩ := bothActive_race (by decide) injective_sampleNames (filed_sampleCluster _)
    get?_sampleServers (by decide) hne hrun
  obtain ⟨t', x', c', hrun', ha, hb⟩ := hleads hrace (by decide) (by decide)
  obtain ⟨hback, -⟩ := bothActive_race (by decide) injective_sampleNames (filed_sampleCluster _)
    get?_sampleServers (by decide) hne (hrun.trans hrun')
  obtain ⟨t₁, t₂, x₁, c₁, heq, hfirst, hlast, hrace'⟩ := hback ha hb
  exact ⟨t ++ t', x', c', t₁, t₂, x₁, c₁, ha, hb, heq, hfirst, hlast, hrace'⟩

/-- So passes at the same time do not keep to one active server. -/
theorem bothActive_sampleCluster : (∀ name, ¬sampleCluster.ActiveAt "push" name) ∧ ∃ t x' c',
    Interleaved reliable (fun second => (reconcile {} "push" (sampleNames second)).run)
      sampleCluster t x' c' ∧ c'.ActiveAt "push" "a" ∧ c'.ActiveAt "push" "b" := by
  obtain ⟨t, x, hrun, hrace⟩ := exists_race_sampleCluster
  have hunder := Interleaved.preserves (fun x c t k e y c₁ h hstep => (h.step hstep).1) hrun
    underway_sampleCluster
  obtain ⟨t', x', c', hrun', ha, hb⟩ :=
    hrace.exists_active (by decide) hunder (by decide) (by decide)
  exact ⟨not_activeAt_sampleCluster, t ++ t', x', c', hrun.trans hrun', ha, hb⟩

end PushOperator
