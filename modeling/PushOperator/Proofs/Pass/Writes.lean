import PushOperator.Proofs.Cluster.World
import PushOperator.Proofs.Pass.Contract

/-!
# What steps write

Each step of a pass writes objects of a few kinds only, leaves the server as the pass knows it
alone, and never halts the way a pass does that is through. This holds whatever the cluster answers.
-/

namespace PushOperator

open Cluster

variable {α β : Type} {k : Kind} {kinds : List Kind}

theorem asks_of_read {r : Request} (h : r.isWrite = false) : (writesOnly kinds).asks r := by
  intro k hk
  cases r <;> simp_all [Request.isWrite, Request.Writes]

/-! ## Tasks -/

namespace Task

theorem obeys_read {r : Request} (h : r.isWrite = false) :
    Obeys (writesOnly kinds) (fun _ => True) (call r) :=
  (obeys_call (asks_of_read h)).weaken fun _ _ => trivial

theorem obeys_createOwned (hk : k ∈ kinds) (owner : Server) (desired : Object k) :
    Obeys (writesOnly kinds) (fun _ => True) (createOwned owner desired) :=
  obeys_createOwned_of (fun _ _ hk' => hk' ▸ hk) fun _ _ _ => trivial

theorem obeys_ensureExists (hk : k ∈ kinds) {owner : Server} {name : String}
    {build : Task (Object k)} (hbuild : Obeys (writesOnly kinds) (fun _ => True) build) :
    Obeys (writesOnly kinds) (fun _ => True) (ensureExists owner name build) :=
  obeys_ensureExists_of (fun _ => True) hbuild (fun _ _ => asks_of_read rfl)
    (fun _ _ _ _ => trivial) (fun _ _ _ _ hk' => hk' ▸ hk) fun _ _ _ _ _ => trivial

theorem obeys_createOrUpdate (hk : k ∈ kinds) {owner : Server} {desired : Object k} :
    Obeys (writesOnly kinds) (fun _ => True) (createOrUpdate owner desired) :=
  obeys_createOrUpdate_of (fun _ _ _ _ => asks_of_read rfl) (fun _ _ hk' => hk' ▸ hk)
    fun _ _ _ _ _ _ hk' => hk' ▸ hk

theorem obeys_applyCorrection (hk : k ∈ kinds) {corrected : Option (Object k)} :
    Obeys (writesOnly kinds) (fun _ => True) (applyCorrection corrected) :=
  obeys_applyCorrection_of fun _ _ _ hk' => hk' ▸ hk

end Task

/-! ## Parts of passes -/

namespace Pass

variable {server : Server} {stored : Option ServerStatus}

/-- The duties of a step that writes objects of some kinds. -/
def stepDuties (kinds : List Kind) (server : Server) (stored : Option ServerStatus) : Duties where
  contract := writesOnly kinds
  keeps server' stored' := server' = server ∧ stored' = stored
  stops action := action ≠ .requeue 30

/-- A part of a pass is a step that writes objects of some kinds. -/
def WritesOnly (kinds : List Kind) (pass : Pass α) : Prop :=
  ∀ server stored, Obeys (stepDuties kinds server stored) (fun _ => True) pass

theorem WritesOnly.mono {kinds' : List Kind} {x : Pass α} (h : WritesOnly kinds x)
    (hkinds : kinds ⊆ kinds') : WritesOnly kinds' x := by
  intro server stored
  refine (h server stored).mono rfl ?_ (fun _ _ h => h) (fun _ h => h) fun _ h => h
  exact fun r hr k hk => hkinds (hr k hk)

theorem writesOnly_pure {a : α} : WritesOnly kinds (pure a : Pass α) :=
  fun _ _ => obeys_pure trivial

theorem WritesOnly.bind {x : Pass α} {f : α → Pass β} (hx : WritesOnly kinds x)
    (hf : ∀ a, WritesOnly kinds (f a)) : WritesOnly kinds (x >>= f) :=
  fun server stored => obeys_bind (hx server stored) fun a _ => hf a server stored

theorem writesOnly_server : WritesOnly kinds Pass.server :=
  fun _ _ => obeys_server.weaken fun _ _ => trivial

theorem writesOnly_liftM {task : Task α} (h : Task.Obeys (writesOnly kinds) (fun _ => True) task) :
    WritesOnly kinds (liftM task : Pass α) :=
  fun _ _ => obeys_liftM h

theorem writesOnly_build {e : Except Error α} :
    WritesOnly kinds (liftM (liftM e : Task α) : Pass α) :=
  writesOnly_liftM Task.obeys_build

theorem writesOnly_read {r : Request} (h : r.isWrite = false) :
    WritesOnly kinds (liftM (Task.call r) : Pass r.Reply) :=
  writesOnly_liftM (Task.obeys_read h)

theorem writesOnly_record {name : String} : WritesOnly kinds (record k name) :=
  fun _ _ => obeys_record

theorem writesOnly_forget {name : String} : WritesOnly kinds (forget k name) :=
  fun _ _ => obeys_forget

theorem writesOnly_noteReady {ready : Bool} : WritesOnly kinds (noteReady ready) :=
  fun _ _ => obeys_noteReady

theorem writesOnly_fail {error : Error} : WritesOnly kinds (throw (.failed error) : Pass α) :=
  fun _ _ => obeys_fail

theorem writesOnly_stop {action : Action} (h : action ≠ .requeue 30) :
    WritesOnly kinds (stop action : Pass α) :=
  fun _ _ => obeys_stop h

theorem writesOnly_report {reason : Reason} {message : String} :
    WritesOnly kinds (report reason message) :=
  fun _ _ => obeys_report

theorem writesOnly_forM {l : List α} {f : α → Pass Unit} (hf : ∀ a ∈ l, WritesOnly kinds (f a)) :
    WritesOnly kinds (l.forM f) :=
  fun server stored => obeys_forM fun a ha => hf a ha server stored

theorem writesOnly_mapM {l : List α} {f : α → Pass β} (hf : ∀ a ∈ l, WritesOnly kinds (f a)) :
    WritesOnly kinds (l.mapM f) :=
  fun server stored => obeys_mapM fun a ha => hf a ha server stored

theorem writesOnly_track {ensured : Ensured k} : WritesOnly kinds (track ensured) := by
  refine writesOnly_build.bind fun name => writesOnly_record.bind fun _ => ?_
  split
  · exact writesOnly_report
  · exact writesOnly_pure

theorem writesOnly_ensure (hk : k ∈ kinds) {name : String} {build : Server → Task (Object k)}
    (hbuild : ∀ server, Task.Obeys (writesOnly kinds) (fun _ => True) (build server)) :
    WritesOnly kinds (ensure name build) := by
  refine writesOnly_server.bind fun server => ?_
  refine (writesOnly_liftM (Task.obeys_ensureExists hk (hbuild server))).bind fun ensured => ?_
  exact writesOnly_track.bind fun _ => writesOnly_pure

theorem writesOnly_stopCorrected {corrected : Bool} {name what : String} :
    WritesOnly kinds (stopCorrected corrected k name what) := by
  unfold stopCorrected
  split
  · exact writesOnly_report.bind fun _ => writesOnly_stop (by decide)
  · exact writesOnly_pure

/-- What a step that completes has left alone. -/
theorem WritesOnly.completes {P : Entry → Prop} {x : Pass α} {st st' : PassState} {c c' : Cluster}
    {a : α} (hx : WritesOnly kinds x) (h : Completes flaky P x st c a st' c') :
    st'.server = st.server ∧ st'.stored = st.stored ∧ SameBut kinds c c' := by
  obtain ⟨t, -, hrun⟩ := h
  have hc : SameBut kinds c c := ⟨fun _ _ => rfl, rfl⟩
  obtain ⟨hsame, hpost, -⟩ :=
    (hx st.server st.stored st ⟨rfl, rfl⟩).run (honors_writesOnly kinds c) hc hrun
  obtain ⟨⟨hserver, hstored⟩, -, -⟩ := hpost _ rfl
  exact ⟨hserver, hstored, hsame⟩

end Pass

end PushOperator
