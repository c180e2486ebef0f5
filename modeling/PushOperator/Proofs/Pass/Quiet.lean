import PushOperator.Proofs.Cluster.World
import PushOperator.Proofs.Pass.Completes
import PushOperator.Proofs.Registry

/-!
# Quiet passes

A part of a pass is quiet when it completes in a reliable cluster by looking only: it writes
nothing, reports nothing and draws no secret. All that is left of it is what it has seen, the
children and whether they are ready.
-/

namespace PushOperator

open Cluster

variable {α β : Type} {k : Kind} {c : Cluster} {server : Server}

/-- An entry of a call that only reads. -/
def Entry.IsRead : Entry → Prop
  | .call r _ => r.isWrite = false
  | .event _ _ | .secret _ => False

/-- The state of a pass after it has seen some children. -/
def PassState.saw (st : PassState) (seen : List (Kind × String)) (ready : Bool) : PassState :=
  { st with children := st.children.addAll seen, ready := st.ready && ready }

theorem PassState.saw_nil (st : PassState) : st.saw [] true = st := by
  simp [saw, Registry.addAll]

theorem PassState.saw_child (st : PassState) (k : Kind) (name : String) :
    st.saw [(k, name)] true = { st with children := st.children.add k.name name } := by
  simp [saw, Registry.addAll]

theorem PassState.saw_saw (st : PassState) (seen seen' : List (Kind × String))
    (ready ready' : Bool) :
    (st.saw seen ready).saw seen' ready' = st.saw (seen ++ seen') (ready && ready') := by
  simp [saw, Registry.addAll, Bool.and_assoc]

namespace Pass

/-- A part that completes without drawing a secret has no other way to come to its end. -/
theorem Completes.onlyRun {P : Entry → Prop} {pass : Pass α} {st st' : PassState} {a : α}
    {c' : Cluster} (h : Completes reliable P pass st c a st' c')
    (hsecret : ∀ text, ¬P (.secret text)) :
    ∃ t, (∀ e ∈ t, P e) ∧ OnlyRun reliable (pass.exec st) c t (.ok a, st') c' := by
  obtain ⟨t, ht, hrun⟩ := h
  refine ⟨t, ht, hrun, fun t₁ a₁ c₁ hother => Run.unique reliable_unique ?_ hrun hother⟩
  exact fun text hmem => hsecret text (ht _ hmem)

/-- A part of a pass looks at some children and changes nothing. -/
def Quiet (c : Cluster) (server : Server) (seen : List (Kind × String)) (ready : Bool)
    (pass : Pass α) (a : α) : Prop :=
  ∀ st, st.server = server → Completes reliable Entry.IsRead pass st c a (st.saw seen ready) c

variable {seen seen' : List (Kind × String)} {ready ready' : Bool}

theorem quiet_pure (a : α) : Quiet c server [] true (pure a) a := by
  intro st _
  rw [PassState.saw_nil]
  exact completes_pure.2 ⟨rfl, rfl, rfl⟩

theorem Quiet.bind {x : Pass α} {f : α → Pass β} {a : α} {b : β}
    (hx : Quiet c server seen ready x a) (hf : Quiet c server seen' ready' (f a) b) :
    Quiet c server (seen ++ seen') (ready && ready') (x >>= f) b := by
  intro st hst
  rw [← PassState.saw_saw]
  exact completes_bind.2 ⟨a, _, c, hx st hst, hf _ hst⟩

/-- A part that sees nothing comes first. -/
theorem Quiet.bind_first {x : Pass α} {f : α → Pass β} {a : α} {b : β}
    (hx : Quiet c server [] true x a) (hf : Quiet c server seen ready (f a) b) :
    Quiet c server seen ready (x >>= f) b :=
  hx.bind hf

/-- A part that does not look at readiness comes after one that does. -/
theorem Quiet.bind_seen {x : Pass α} {f : α → Pass β} {a : α} {b : β}
    (hx : Quiet c server seen ready x a) (hf : Quiet c server seen' true (f a) b) :
    Quiet c server (seen ++ seen') ready (x >>= f) b := by
  simpa using hx.bind hf

/-- A part that sees nothing comes last. -/
theorem Quiet.bind_last {x : Pass α} {f : α → Pass β} {a : α} {b : β}
    (hx : Quiet c server seen ready x a) (hf : Quiet c server [] true (f a) b) :
    Quiet c server seen ready (x >>= f) b := by
  simpa using hx.bind hf

theorem quiet_server : Quiet c server [] true Pass.server server := by
  rintro st rfl
  rw [PassState.saw_nil]
  exact completes_server.2 ⟨rfl, rfl, rfl⟩

theorem quiet_liftM {task : Task α} {a : α}
    (h : Task.Completes reliable Entry.IsRead task c a c) :
    Quiet c server [] true (liftM task) a := by
  intro st _
  rw [PassState.saw_nil]
  exact completes_liftM.2 ⟨h, rfl⟩

/-- Something that can be found out without the cluster. -/
theorem quiet_ofExcept {e : Except Error α} {a : α} (h : e = .ok a) :
    Quiet c server [] true (liftM (liftM e : Task α)) a :=
  quiet_liftM (Task.completes_ofExcept.2 ⟨h, rfl⟩)

theorem quiet_call {r : Request} {a : r.Reply} (hread : r.isWrite = false)
    (h : c.answer r = (.ok a, c)) : Quiet c server [] true (liftM (Task.call r)) a :=
  quiet_liftM (Task.completes_call.2 ⟨hread, h⟩)

theorem quiet_record (k : Kind) (name : String) :
    Quiet c server [(k, name)] true (record k name) () := by
  intro st _
  rw [PassState.saw_child]
  exact completes_modify.2 ⟨rfl, rfl⟩

theorem quiet_noteReady (ready : Bool) : Quiet c server [] ready (noteReady ready) () := by
  intro st _
  exact completes_modify.2 ⟨rfl, rfl⟩

/-- A loop is quiet when its rounds are. -/
theorem quiet_forM {l : List α} {f : α → Pass Unit} {seen : α → List (Kind × String)}
    (hf : ∀ x ∈ l, Quiet c server (seen x) true (f x) ()) :
    Quiet c server (l.flatMap seen) true (l.forM f) () := by
  induction l with
  | nil => exact quiet_pure ()
  | cons x l ih =>
    rw [List.flatMap_cons]
    have hhead := hf x List.mem_cons_self
    have htail := ih fun y hy => hf y (List.mem_cons_of_mem x hy)
    exact hhead.bind htail

end Pass

end PushOperator
