import PushOperator.Pass.Run
import PushOperator.Proofs.Pass.Ensure

/-!
# Writing the status

A pass knows the server as it is stored, and a status that it writes is all that changes of it. The
status that a pass ends with is a matter of the server, its children and whether they are ready, and
once it is stored it is not written again.
-/

namespace PushOperator

open Cluster

/-! ## The status of a server -/

namespace Server

/-- A later version of a server: the cluster may have stamped it and its status may be another, but
a uid that it had is still the same. -/
inductive Remains (server : Server) : Server → Prop
  | restamp (uid resourceVersion : Option String) (status : Option ServerStatus)
      (huid : server.metadata.uid ≠ none → uid = server.metadata.uid) :
      Remains server
        { server with metadata := { server.metadata with uid, resourceVersion }, status }

theorem Remains.refl (server : Server) : Remains server server :=
  .restamp _ _ _ fun _ => rfl

theorem Remains.trans {a b c : Server} (h : Remains a b) (h' : Remains b c) : Remains a c := by
  obtain ⟨uid, version, status, huid⟩ := h
  obtain ⟨uid', version', status', huid'⟩ := h'
  refine .restamp uid' version' status' fun hsome => ?_
  have heq := huid hsome
  exact (huid' (heq ▸ hsome)).trans heq

theorem Remains.ns {a b : Server} (h : Remains a b) : b.metadata.ns = a.metadata.ns := by
  obtain ⟨⟩ := h
  rfl

theorem Remains.anyName {a b : Server} (h : Remains a b) : b.anyName = a.anyName := by
  obtain ⟨⟩ := h
  rfl

theorem Remains.spec {a b : Server} (h : Remains a b) : b.spec = a.spec := by
  obtain ⟨⟩ := h
  rfl

theorem Remains.generation {a b : Server} (h : Remains a b) :
    b.metadata.generation = a.metadata.generation := by
  obtain ⟨⟩ := h
  rfl

theorem Remains.uid {a b : Server} (h : Remains a b) (hsome : a.metadata.uid ≠ none) :
    b.metadata.uid = a.metadata.uid := by
  obtain ⟨_, _, _, huid⟩ := h
  exact huid hsome

/-- Only the status and what the cluster stamps on it are new in a server whose status was stored.
-/
theorem remains_stamped (n : Nat) (server : Server) (status : Option ServerStatus) :
    Remains server (stamped n { server with status }) := by
  refine .restamp _ _ status fun hsome => ?_
  obtain ⟨uid, huid⟩ := Option.ne_none_iff_exists'.1 hsome
  rw [huid]
  rfl

/-- All of the status is new after a pass that has succeeded. Only a server without a generation
keeps the observed one. -/
theorem status_succeed (server : Server) (ready : Bool) (children : Registry) :
    ∃ observedGeneration,
      (observe (succeed server ready children)).status = some {
        phase := if ready then .reconciling else .initializing
        ready
        message := ""
        secondaryResources := children
        observedGeneration } ∧
      ∀ generation, server.metadata.generation = some generation →
        observedGeneration = some generation := by
  cases hgeneration : server.metadata.generation <;>
    simp [observe, observeStatus, succeed, withStatus, statusOrDefault, hgeneration]

/-- A server is active after a pass that has succeeded. -/
theorem isActive_succeed (server : Server) (ready : Bool) (children : Registry) :
    (phase (observe (succeed server ready children))).isActive = true := by
  cases hgeneration : server.metadata.generation <;> cases ready <;>
    simp [phase, observe, observeStatus, succeed, withStatus, statusOrDefault, hgeneration,
      Phase.isActive]

/-- A server that was not seen before becomes active. -/
theorem phase_start {server : Server} (h : isNew server = true) :
    phase (observe (start server)) = .initializing := by
  unfold start
  rw [if_pos h]
  cases hgeneration : server.metadata.generation <;>
    simp [phase, observe, observeStatus, withStatus, statusOrDefault, hgeneration]

theorem phase_fail (server : Server) (error : Error) :
    phase (observe (fail server error)) = .failing := by
  cases hgeneration : server.metadata.generation <;>
    simp [phase, observe, observeStatus, fail, withStatus, statusOrDefault, hgeneration]

/-- A pass that succeeds again in the same way comes to the same status. -/
theorem observe_succeed_again {server later : Server} {ready : Bool} {children : Registry}
    (hgeneration : later.metadata.generation = server.metadata.generation)
    (hstatus : later.status = (observe (succeed server ready children)).status) :
    (observe (succeed later ready children)).status = later.status := by
  rw [hstatus]
  cases hg : server.metadata.generation <;> rw [hg] at hgeneration <;>
    simp [observe, observeStatus, succeed, withStatus, statusOrDefault, hg, hgeneration, hstatus]

end Server

/-- The answer to a status that is written in place of that of the stored server. -/
theorem Cluster.answer_updateStatus {c c' : Cluster} {o o' : Server} :
    c.answer (.updateStatus .unifiedPushServer o) = (.ok o', c') ↔
      ∃ stored, c.get? .unifiedPushServer (nsOf o) (nameOf o) = some stored ∧
        isStale o stored = false ∧
        o' = stamped (c.revision + 1) { stored with status := o.status } ∧
        c' = (c.store (nsOf o) (nameOf o) { stored with status := o.status }).2 :=
  replace_ok

/-! ## Storing a status -/

namespace Task

variable {server : Server} {previous : Option ServerStatus} {c c' : Cluster}

/-- A status that is stored already is not written. -/
theorem run_persist_of_same (h : server.observe.status = previous) :
    Run reliable (persist server previous).run c [] (some (.ok server.observe)) c := by
  unfold persist
  dsimp only
  rw [if_pos h]
  exact .done _ _

/-- Another one is written, by a single call. -/
theorem run_persist_of_changed {updated : Server} (h : server.observe.status ≠ previous)
    (hns : ∃ ns, server.metadata.ns = some ns) (hname : ∃ name, server.metadata.name = some name)
    (hanswer : c.answer (.updateStatus .unifiedPushServer server.observe) = (.ok updated, c')) :
    Run reliable (persist server previous).run c
      [.call (.updateStatus .unifiedPushServer server.observe) (.ok updated)] (some (.ok updated))
      c' := by
  obtain ⟨ns, hns⟩ := hns
  obtain ⟨name, hname⟩ := hname
  have hplace : (requirePlace server.observe.metadata).run = .done (.ok ()) := by
    show (requirePlace server.metadata).run = .done (.ok ())
    unfold requirePlace
    rw [ObjectMeta.requireNs_eq_ok.2 hns, ObjectMeta.requireName_eq_ok.2 hname]
    rfl
  unfold persist
  dsimp only
  rw [if_neg h]
  refine .step (.call hanswer) ?_
  show Run reliable (do
    requirePlace server.observe.metadata
    return updated : Task Server).run _ _ _ _
  rw [run_bind, hplace]
  exact .done _ _

end Task

namespace Pass

variable {P : Entry → Prop} {c c' : Cluster} {ns name : String} {st st' : PassState}
  {live : Server} {u : Unit}

/-! ## Storing the status -/

/-- The pass knows the server as it is stored. -/
structure Knows (c : Cluster) (ns name : String) (st : PassState) : Prop where
  get? : c.get? .unifiedPushServer ns name = some st.server
  stored : st.stored = st.server.status

/-- What a write of the status leads to: the pass knows the server as it is stored now, and it is
the one of before with the new status. -/
structure Stores (ns name : String) (live : Server) (status : Option ServerStatus) (c : Cluster)
    (st' : PassState) (c' : Cluster) : Prop where
  knows : Knows c' ns name st'
  remains : live.Remains st'.server
  status : st'.server.status = status
  filed : c'.Filed
  same : SameBut [.unifiedPushServer] c c'
  nothingNew : NothingNew c c'

/-- A status that is stored already is not written. -/
theorem stores_same (hc : c.Filed) (hget : c.get? .unifiedPushServer ns name = some live)
    (hserver : st.server = live) (hstored : st.stored = live.status) :
    Stores ns name live live.status c st c := by
  subst hserver
  exact ⟨⟨hget, hstored⟩, .refl _, rfl, hc, ⟨fun _ _ => rfl, rfl⟩, .refl c⟩

/-- A status that is written. -/
theorem stores_store (hc : c.Filed) (hget : c.get? .unifiedPushServer ns name = some live)
    (status : Option ServerStatus)
    (hserver : st'.server = stamped (c.revision + 1) { live with status })
    (hstored : st'.stored = status) :
    Stores ns name live status c st' (c.store ns name { live with status }).2 := by
  obtain ⟨hns, hname⟩ := hc _ _ _ _ hget
  refine ⟨⟨?_, ?_⟩, ?_, ?_, hc.store hns hname, ⟨?_, rfl⟩, nothingNew_store ⟨live, hget⟩⟩
  · rw [hserver]
    exact get?_store_self c ns name _
  · rw [hserver]
    exact hstored
  · rw [hserver]
    exact Server.remains_stamped _ live status
  · rw [hserver]
    rfl
  · intro k hk
    exact shelf_store_of_ne c ns name _ (by simpa [eq_comm] using hk)

/-- Storing the status changes what the pass knows of the server, and nothing else. -/
theorem state_of_persist (h : Completes flaky P persist st c u st' c') :
    st'.children = st.children ∧ st'.ready = st.ready := by
  have hrest := completes_get_bind.1 h
  obtain ⟨stored, c₁, -, hset⟩ := completes_liftM_bind.1 hrest
  obtain ⟨rfl, -⟩ := completes_set.1 hset
  exact ⟨rfl, rfl⟩

theorem completes_persist (h : Completes flaky P persist st c u st' c') (hc : c.Filed)
    (hget : c.get? .unifiedPushServer ns name = some live)
    (hserver : st.server = { live with status := st.server.status })
    (hstored : st.stored = live.status) :
    Stores ns name live st.server.observe.status c st' c' := by
  have hrest := completes_get_bind.1 h
  obtain ⟨stored, c₁, hpersist', hset⟩ := completes_liftM_bind.1 hrest
  obtain ⟨rfl, rfl⟩ := completes_set.1 hset
  have hknown : st.server.observe = { live with status := st.server.observe.status } := by
    rw [hserver]
    rfl
  unfold Task.persist at hpersist'
  dsimp only at hpersist'
  split at hpersist'
  · next hsame =>
    obtain ⟨rfl, rfl⟩ := Task.completes_pure.1 hpersist'
    have hstatus : st.server.observe.status = live.status := hsame.trans hstored
    rw [hstatus] at hknown
    rw [hstatus]
    exact stores_same hc hget hknown rfl
  · obtain ⟨updated, c₂, hupdate, hrest'⟩ := Task.completes_bind.1 hpersist'
    obtain ⟨_, c₃, hplace, hend⟩ := Task.completes_bind.1 hrest'
    obtain ⟨rfl, rfl⟩ := Task.completes_pure.1 hend
    obtain ⟨-, -, rfl⟩ := Task.completes_requirePlace.1 hplace
    obtain ⟨-, hanswer⟩ := Task.completes_call.1 hupdate
    obtain ⟨stored', hget', -, rfl, rfl⟩ := answer_updateStatus.1 (flaky_ok_iff.1 hanswer)
    have hns : nsOf st.server.observe = ns := by
      rw [hknown]
      exact (hc _ _ _ _ hget).1
    have hname : nameOf st.server.observe = name := by
      rw [hknown]
      show nameOf live = name
      exact hc.nameOf hget
    rw [hns, hname] at hget' ⊢
    obtain rfl : live = stored' := Option.some.inj (hget.symm.trans hget')
    exact stores_store hc hget _ rfl rfl

/-! ## The beginning and the end of a pass -/

/-- Knowing a server in a later version. -/
structure Continues (ns name : String) (st : PassState) (c : Cluster) (st' : PassState)
    (c' : Cluster) : Prop where
  knows : Knows c' ns name st'
  remains : st.server.Remains st'.server
  filed : c'.Filed
  same : SameBut [.unifiedPushServer] c c'
  nothingNew : NothingNew c c'
  children : st'.children = st.children
  ready : st'.ready = st.ready

theorem completes_start (h : Completes flaky P start st c u st' c') (hc : c.Filed)
    (hknows : Knows c ns name st) : Continues ns name st c st' c' := by
  have hrest := completes_get_bind.1 h
  split at hrest
  · next hnew =>
    have hpersist := completes_set_bind.1 hrest
    have hserver : st.server.start = { st.server with status := st.server.start.status } := by
      unfold Server.start
      rw [if_pos hnew]
      rfl
    have hstores := completes_persist hpersist hc hknows.get? hserver hknows.stored
    obtain ⟨hchildren, hready⟩ := state_of_persist hpersist
    exact ⟨hstores.knows, hstores.remains, hstores.filed, hstores.same, hstores.nothingNew,
      hchildren, hready⟩
  · obtain ⟨-, rfl, rfl⟩ := completes_pure.1 hrest
    exact ⟨hknows, .refl _, hc, ⟨fun _ _ => rfl, rfl⟩, .refl _, rfl, rfl⟩

theorem completes_succeed (h : Completes flaky P succeed st c u st' c') (hc : c.Filed)
    (hknows : Knows c ns name st) :
    Stores ns name st.server (Server.succeed st.server st.ready st.children).observe.status
      c st' c' := by
  have hrest := completes_get_bind.1 h
  have hpersist := completes_set_bind.1 hrest
  exact completes_persist hpersist hc hknows.get? rfl hknows.stored

end Pass

end PushOperator
