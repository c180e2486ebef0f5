import PushOperator.Pass.Basic
import PushOperator.Proofs.Interaction.Run

/-!
# Passes that complete

A part of a pass completes when it ends with a result, neither failed nor halted. The rules here
turn the completion of a whole into the completions of its parts, call by call. They read in both
directions: from a pass that has completed to what it must have seen, and from what a cluster holds
to a pass that completes. `P` is what every entry of the trace has to meet.
-/

namespace PushOperator

variable {σ α β : Type} {w : World σ} {P : Entry → Prop}

open Interaction

/-! ## Tasks -/

namespace Task

theorem run_bind (x : Task α) (f : α → Task β) :
    (x >>= f).run = x.run.bind fun
      | .ok a => (f a).run
      | .error e => .done (.error e) := by
  refine congrArg (Interaction.bind x.run) (funext fun r => ?_)
  cases r <;> rfl

theorem run_pure (a : α) : (pure a : Task α).run = .done (.ok a) := rfl

theorem run_ofExcept (e : Except Error α) : (liftM e : Task α).run = .done e := rfl

theorem run_call (r : Request) : (call r).run = .call r .done := rfl

theorem run_secret : secret.run = .secret fun text => .done (.ok text) := rfl

theorem run_attempt (x : Task α) : x.attempt.run = x.run.bind fun r => .done (.ok r) := rfl

/-- A task comes to its end with a result. -/
def Completes (w : World σ) (P : Entry → Prop) (task : Task α) (s : σ) (a : α) (s' : σ) : Prop :=
  Yields w P task.run s (.ok a) s'

variable {s s' : σ} {a b : α}

@[simp]
theorem completes_pure : Completes w P (pure a) s b s' ↔ b = a ∧ s' = s := by
  rw [Completes, run_pure, yields_done, Except.ok.injEq]

@[simp]
theorem completes_bind {x : Task α} {f : α → Task β} {b : β} :
    Completes w P (x >>= f) s b s' ↔
      ∃ a s₁, Completes w P x s a s₁ ∧ Completes w P (f a) s₁ b s' := by
  rw [Completes, run_bind, yields_bind]
  constructor
  · rintro ⟨r, s₁, h₁, h₂⟩
    cases r with
    | ok a => exact ⟨a, s₁, h₁, h₂⟩
    | error e => cases (yields_done.1 h₂).1
  · rintro ⟨a, s₁, h₁, h₂⟩
    exact ⟨.ok a, s₁, h₁, h₂⟩

@[simp]
theorem completes_ofExcept {e : Except Error α} :
    Completes w P (liftM e : Task α) s a s' ↔ e = .ok a ∧ s' = s := by
  rw [Completes, run_ofExcept, yields_done, eq_comm (a := e)]

@[simp]
theorem completes_call {r : Request} {a : r.Reply} :
    Completes w P (call r) s a s' ↔ P (.call r (.ok a)) ∧ w r s (.ok a) s' := by
  rw [Completes, run_call, yields_call]
  constructor
  · rintro ⟨b, s₁, hP, hw, h⟩
    obtain ⟨rfl, rfl⟩ := yields_done.1 h
    exact ⟨hP, hw⟩
  · rintro ⟨hP, hw⟩
    exact ⟨_, _, hP, hw, yields_done.2 ⟨rfl, rfl⟩⟩

@[simp]
theorem completes_secret {text : String} :
    Completes w P secret s text s' ↔ P (.secret text) ∧ s' = s := by
  rw [Completes, run_secret, yields_secret]
  constructor
  · rintro ⟨text', hP, h⟩
    obtain ⟨htext, rfl⟩ := yields_done.1 h
    exact ⟨Except.ok.inj htext ▸ hP, rfl⟩
  · rintro ⟨hP, rfl⟩
    exact ⟨text, hP, yields_done.2 ⟨rfl, rfl⟩⟩

/-- A task that may fail completes with its failure as well. -/
@[simp]
theorem completes_attempt {x : Task α} {r : Except Error α} :
    Completes w P x.attempt s r s' ↔ Yields w P x.run s r s' := by
  rw [Completes, run_attempt, yields_bind]
  constructor
  · rintro ⟨r', s₁, h₁, h₂⟩
    obtain ⟨hr, rfl⟩ := yields_done.1 h₂
    exact Except.ok.inj hr ▸ h₁
  · intro h
    exact ⟨r, s', h, yields_done.2 ⟨rfl, rfl⟩⟩

theorem Completes.mono {w' : World σ} {task : Task α} (h : Completes w P task s a s')
    (hw : ∀ r s a s', w r s a s' → w' r s a s') : Completes w' P task s a s' :=
  Yields.mono h hw fun _ h => h

end Task

/-! ## Parts of passes -/

namespace Pass

theorem exec_bind (x : Pass α) (f : α → Pass β) (st : PassState) :
    (x >>= f).exec st = (x.exec st).bind fun
      | (.ok a, st') => (f a).exec st'
      | (.error h, st') => .done (.error h, st') := by
  refine congrArg (Interaction.bind (x.exec st)) (funext fun p => ?_)
  rcases p with ⟨_ | _, _⟩ <;> rfl

theorem exec_pure (a : α) (st : PassState) : (pure a : Pass α).exec st = .done (.ok a, st) := rfl

theorem exec_get (st : PassState) : (get : Pass PassState).exec st = .done (.ok st, st) := rfl

theorem exec_set (st st' : PassState) : (set st' : Pass Unit).exec st = .done (.ok (), st') := rfl

theorem exec_modify (f : PassState → PassState) (st : PassState) :
    (modify f : Pass Unit).exec st = .done (.ok (), f st) := rfl

theorem exec_throw (h : Halt) (st : PassState) :
    (throw h : Pass α).exec st = .done (.error h, st) := rfl

theorem exec_report (reason : Reason) (message : String) (st : PassState) :
    (report reason message).exec st =
      .emit st.server { reason, message } (.done (.ok (), st)) := rfl

theorem exec_liftM (task : Task α) (st : PassState) :
    (liftM task : Pass α).exec st = task.run.bind fun
      | .ok a => .done (.ok a, st)
      | .error e => .done (.error (.failed e), st) := rfl

theorem exec_server_bind (f : Server → Pass β) (st : PassState) :
    (Pass.server >>= f).exec st = (f st.server).exec st := rfl

theorem exec_build_bind {e : Except Error α} {f : α → Pass β} {a : α} {st : PassState}
    (h : e = .ok a) : (liftM (liftM e : Task α) >>= f).exec st = (f a).exec st := by
  rw [h]
  rfl

/-- A part of a pass comes to its end with a result. -/
def Completes (w : World σ) (P : Entry → Prop) (pass : Pass α) (st : PassState) (s : σ) (a : α)
    (st' : PassState) (s' : σ) : Prop :=
  Yields w P (pass.exec st) s (.ok a, st') s'

variable {s s' : σ} {a b : α} {st st' : PassState}

/-- A run to a result, whatever its trace. -/
theorem Completes.of_run {pass : Pass α} {t : Trace}
    (h : Run w (pass.exec st) s t (some (.ok a, st')) s') :
    Completes w (fun _ => True) pass st s a st' s' :=
  ⟨t, fun _ _ => trivial, h⟩

@[simp]
theorem completes_pure : Completes w P (pure a) st s b st' s' ↔ b = a ∧ st' = st ∧ s' = s := by
  rw [Completes, exec_pure, yields_done, Prod.mk.injEq, Except.ok.injEq, and_assoc]

@[simp]
theorem completes_bind {x : Pass α} {f : α → Pass β} {b : β} :
    Completes w P (x >>= f) st s b st' s' ↔
      ∃ a st₁ s₁, Completes w P x st s a st₁ s₁ ∧ Completes w P (f a) st₁ s₁ b st' s' := by
  rw [Completes, exec_bind, yields_bind]
  constructor
  · rintro ⟨⟨r, st₁⟩, s₁, h₁, h₂⟩
    cases r with
    | ok a => exact ⟨a, st₁, s₁, h₁, h₂⟩
    | error e => cases (yields_done.1 h₂).1
  · rintro ⟨a, st₁, s₁, h₁, h₂⟩
    exact ⟨(.ok a, st₁), s₁, h₁, h₂⟩

@[simp]
theorem completes_liftM {task : Task α} :
    Completes w P (liftM task) st s a st' s' ↔ Task.Completes w P task s a s' ∧ st' = st := by
  rw [Completes, exec_liftM, yields_bind]
  constructor
  · rintro ⟨r, s₁, h₁, h₂⟩
    cases r with
    | ok b =>
      obtain ⟨hend, rfl⟩ := yields_done.1 h₂
      obtain ⟨hab, rfl⟩ := Prod.mk.inj hend
      exact ⟨Except.ok.inj hab ▸ h₁, rfl⟩
    | error e => cases (yields_done.1 h₂).1
  · rintro ⟨h, rfl⟩
    exact ⟨.ok a, s', h, yields_done.2 ⟨rfl, rfl⟩⟩

/-- Something that can be found out without the cluster. -/
@[simp]
theorem completes_build {e : Except Error α} :
    Completes w P (liftM (liftM e : Task α)) st s a st' s' ↔ e = .ok a ∧ st' = st ∧ s' = s := by
  rw [completes_liftM, Task.completes_ofExcept, and_assoc, and_comm (a := s' = s)]

@[simp]
theorem completes_get {st₁ : PassState} :
    Completes w P get st s st₁ st' s' ↔ st₁ = st ∧ st' = st ∧ s' = s :=
  completes_pure (a := st)

@[simp]
theorem completes_server {server : Server} :
    Completes w P Pass.server st s server st' s' ↔ server = st.server ∧ st' = st ∧ s' = s :=
  completes_pure (a := st.server)

@[simp]
theorem completes_set {st₁ : PassState} {u : Unit} :
    Completes w P (set st₁ : Pass Unit) st s u st' s' ↔ st' = st₁ ∧ s' = s := by
  rw [Completes, exec_set, yields_done, Prod.mk.injEq]
  simp

@[simp]
theorem completes_modify {f : PassState → PassState} {u : Unit} :
    Completes w P (modify f : Pass Unit) st s u st' s' ↔ st' = f st ∧ s' = s := by
  rw [Completes, exec_modify, yields_done, Prod.mk.injEq]
  simp

@[simp]
theorem completes_throw {h : Halt} : ¬Completes w P (throw h : Pass α) st s a st' s' := by
  intro hthrow
  rw [Completes, exec_throw, yields_done] at hthrow
  cases hthrow.1

@[simp]
theorem completes_stop {action : Action} :
    ¬Completes w P (stop action : Pass α) st s a st' s' :=
  completes_throw

@[simp]
theorem completes_report {reason : Reason} {message : String} {u : Unit} :
    Completes w P (report reason message) st s u st' s' ↔
      P (.event st.server { reason, message }) ∧ st' = st ∧ s' = s := by
  rw [Completes, exec_report, yields_emit, yields_done, Prod.mk.injEq]
  simp

/-! What comes first in a pass and does not change it. -/

theorem completes_server_bind {f : Server → Pass β} {b : β} :
    Completes w P (Pass.server >>= f) st s b st' s' ↔
      Completes w P (f st.server) st s b st' s' := by
  rw [completes_bind]
  constructor
  · rintro ⟨_, _, _, hserver, hf⟩
    obtain ⟨rfl, rfl, rfl⟩ := completes_server.1 hserver
    exact hf
  · exact fun hf => ⟨_, _, _, completes_server.2 ⟨rfl, rfl, rfl⟩, hf⟩

theorem completes_get_bind {f : PassState → Pass β} {b : β} :
    Completes w P (get >>= f) st s b st' s' ↔ Completes w P (f st) st s b st' s' := by
  rw [completes_bind]
  constructor
  · rintro ⟨_, _, _, hget, hf⟩
    obtain ⟨rfl, rfl, rfl⟩ := completes_get.1 hget
    exact hf
  · exact fun hf => ⟨_, _, _, completes_get.2 ⟨rfl, rfl, rfl⟩, hf⟩

theorem completes_set_bind {st₁ : PassState} {f : Unit → Pass β} {b : β} :
    Completes w P (set st₁ >>= f) st s b st' s' ↔ Completes w P (f ()) st₁ s b st' s' := by
  rw [completes_bind]
  constructor
  · rintro ⟨_, _, _, hset, hf⟩
    obtain ⟨rfl, rfl⟩ := completes_set.1 hset
    exact hf
  · exact fun hf => ⟨(), _, _, completes_set.2 ⟨rfl, rfl⟩, hf⟩

theorem completes_liftM_bind {task : Task α} {f : α → Pass β} {b : β} :
    Completes w P (liftM task >>= f) st s b st' s' ↔
      ∃ a s₁, Task.Completes w P task s a s₁ ∧ Completes w P (f a) st s₁ b st' s' := by
  rw [completes_bind]
  constructor
  · rintro ⟨a, _, s₁, htask, hf⟩
    obtain ⟨htask', rfl⟩ := completes_liftM.1 htask
    exact ⟨a, s₁, htask', hf⟩
  · rintro ⟨a, s₁, htask, hf⟩
    exact ⟨a, st, s₁, completes_liftM.2 ⟨htask, rfl⟩, hf⟩

theorem completes_build_bind {e : Except Error α} {f : α → Pass β} {b : β} :
    Completes w P (liftM (liftM e : Task α) >>= f) st s b st' s' ↔
      ∃ a, e = .ok a ∧ Completes w P (f a) st s b st' s' := by
  rw [completes_liftM_bind]
  constructor
  · rintro ⟨a, _, hbuild, hf⟩
    obtain ⟨ha, rfl⟩ := Task.completes_ofExcept.1 hbuild
    exact ⟨a, ha, hf⟩
  · rintro ⟨a, ha, hf⟩
    exact ⟨a, s, Task.completes_ofExcept.2 ⟨ha, rfl⟩, hf⟩

theorem Completes.mono {w' : World σ} {pass : Pass α} (h : Completes w P pass st s a st' s')
    (hw : ∀ r s a s', w r s a s' → w' r s a s') : Completes w' P pass st s a st' s' :=
  Yields.mono h hw fun _ h => h

end Pass

end PushOperator
