import PushOperator.Proofs.Cluster.World
import PushOperator.Proofs.Interaction.Alike
import PushOperator.Proofs.Interaction.Reports

/-!
# Circumstances

What an interaction meets is settled by four things: the cluster, the circumstances, which say what
goes wrong with which call and what the secrets are, and the sink that events go to. The sink may
refuse an event, but nobody is told, so it has no part in anything else
(`Circumstances.idle_of_sinks`).
-/

namespace PushOperator

open Cluster

variable {α τ ε ε' : Type}

/-- What becomes of a call: it is carried out and answered, it does not come through, or it is
carried out and the answer is lost. -/
inductive Fate where
  | answered
  | refused (error : Error)
  | lost (error : Error)

/-- What becomes of each call, and which secrets are drawn. The state says how far this has come. -/
structure Circumstances (τ : Type) where
  fate : Request → τ → Fate × τ
  draw : τ → String × τ

/-- What events go to. It may refuse them. -/
structure Sink (ε : Type) where
  tryEmit : Server → Event → ε → Except Error Unit × ε

/-- Passes a refusal over in silence. -/
def Sink.emit (sink : Sink ε) (server : Server) (event : Event) (s : ε) : ε :=
  (sink.tryEmit server event s).2

/-- A sink that accepts every event and keeps it. -/
def Sink.record : Sink (List Event) where
  tryEmit _ event log := (.ok (), log ++ [event])

/-- A sink that refuses every event. -/
def Sink.refuse (error : Error) : Sink Unit where
  tryEmit _ _ _ := (.error error, ())

/-- A cluster, how far the circumstances have come, and what the sink holds. -/
structure Scene (τ ε : Type) where
  cluster : Cluster
  luck : τ
  sunk : ε

namespace Circumstances

variable (w : Circumstances τ)

/-- A call under the circumstances. -/
def answer (r : Request) (s : Scene τ ε) : Except Error r.Reply × Scene τ ε :=
  let (fate, luck) := w.fate r s.luck
  let (a, cluster) := s.cluster.answer r
  match fate with
  | .answered => (a, { s with cluster, luck })
  | .refused error => (.error error, { s with luck })
  | .lost error => (.error error, { s with cluster, luck })

/-- The cluster under the circumstances, and a sink. -/
def handler (sink : Sink ε) : Handler (Scene τ ε) where
  answer := w.answer
  accept server event s := { s with sunk := sink.emit server event s.sunk }
  draw s := let (text, luck) := w.draw s.luck; (text, { s with luck })

/-- What goes wrong is what goes wrong with a flaky cluster. -/
theorem flaky_of_answer (r : Request) (s : Scene τ ε) :
    flaky r s.cluster (w.answer r s).1 (w.answer r s).2.cluster := by
  unfold answer
  rcases w.fate r s.luck with ⟨_ | error | error, luck⟩
  · exact .inl rfl
  · exact .inr ⟨error, rfl, .inl rfl⟩
  · exact .inr ⟨error, rfl, .inr rfl⟩

/-- What is done under the circumstances is a run in a flaky cluster. -/
theorem run_flaky (sink : Sink ε) (x : Interaction α) (s : Scene τ ε) :
    Run flaky x s.cluster (x.trace (w.handler sink) s) (some (x.run (w.handler sink) s).1)
      (x.run (w.handler sink) s).2.cluster := by
  apply x.run_trace (w.handler sink) Scene.cluster (fun _ => True)
  · exact fun r s _ => ⟨w.flaky_of_answer r s, trivial⟩
  · exact fun _ _ _ _ => ⟨rfl, trivial⟩
  · exact fun _ _ => ⟨rfl, trivial⟩
  · trivial

/-! ## Runs side by side -/

/-- The same circumstances, with clusters and sinks that may differ. -/
def Beside (clusters : Cluster → Cluster → Prop) (sunk : ε → ε' → Prop) (s : Scene τ ε)
    (s' : Scene τ ε') : Prop :=
  clusters s.cluster s'.cluster ∧ s.luck = s'.luck ∧ sunk s.sunk s'.sunk

/-- Under the same circumstances, clusters that answer alike are alike. -/
theorem alike_handler {k : Contract} {clusters : Cluster → Cluster → Prop}
    {sunk : ε → ε' → Prop} {sink : Sink ε} {sink' : Sink ε'}
    (hanswer : ∀ r c c', clusters c c' → k.asks r →
      (c.answer r).1 = (c'.answer r).1 ∧ clusters (c.answer r).2 (c'.answer r).2)
    (hrely : ∀ r c c' a c₁, clusters c c' → k.asks r → flaky r c a c₁ → k.rely r a)
    (hsunk : ∀ server event e e', sunk e e' →
      sunk (sink.emit server event e) (sink'.emit server event e')) :
    Alike k (Beside (τ := τ) clusters sunk) (w.handler sink) (w.handler sink') where
  answer := by
    rintro r ⟨c, luck, e⟩ ⟨c', _, e'⟩ ⟨hclusters, rfl, he⟩ hasks
    obtain ⟨heq, hclusters'⟩ := hanswer r c c' hclusters hasks
    have hrelied := hrely r c c' _ _ hclusters hasks (w.flaky_of_answer r ⟨c, luck, e⟩)
    refine ⟨?_, hrelied, ?_⟩
    · show (w.answer r _).1 = (w.answer r _).1
      unfold answer
      dsimp only
      rw [heq]
      cases (w.fate r luck).1 <;> rfl
    · show Beside _ _ (w.answer r _).2 (w.answer r _).2
      unfold answer
      dsimp only
      cases (w.fate r luck).1 with
      | answered | lost => exact ⟨hclusters', rfl, he⟩
      | refused => exact ⟨hclusters, rfl, he⟩
  accept server event s s' hs := ⟨hs.1, hs.2.1, hsunk server event _ _ hs.2.2⟩
  draw := by
    rintro ⟨c, luck, e⟩ ⟨c', _, e'⟩ ⟨hclusters, rfl, he⟩
    exact ⟨rfl, hclusters, rfl, he⟩

/-- The circumstances that a plan makes: it stops the calls that it is about. Secrets are made from
numbers that go up. -/
def planned : Circumstances (List Fault × Nat) where
  fate r luck := match Fault.tryAll r luck.1 with
    | (some error, faults) => (.refused (.api error), faults, luck.2)
    | (none, faults) => (.answered, faults, luck.2)
  draw luck := (Password.ofBits luck.2, luck.1, luck.2 + 1)

/-- A rehearsal without intrusions goes as under planned circumstances, whatever its sink makes of
the events. -/
theorem alike_rehearsal (sink : Sink ε) :
    Alike .free (fun (s : Rehearsal) (s' : Scene (List Fault × Nat) ε) =>
      s.hooks = [] ∧ s.cluster = s'.cluster ∧ (s.faults, s.nextSecret) = s'.luck)
      Rehearsal.handler (planned.handler sink) where
  answer := by
    rintro r ⟨c, faults, hooks, _, nextSecret, _, _, _⟩ ⟨_, _, sunk⟩ ⟨hhooks, hcluster, hluck⟩ -
    dsimp only at hhooks hcluster hluck
    subst hhooks hcluster hluck
    show (Rehearsal.answer r _).1 = (planned.answer r _).1 ∧ True ∧
      (Rehearsal.answer r _).2.hooks = [] ∧
        (Rehearsal.answer r _).2.cluster = (planned.answer r _).2.cluster ∧
          ((Rehearsal.answer r _).2.faults, (Rehearsal.answer r _).2.nextSecret) =
            (planned.answer r _).2.luck
    simp only [Rehearsal.answer, Rehearsal.runHook, List.find?_nil, answer, planned]
    rcases Fault.tryAll r faults with ⟨_ | error, faults'⟩
    · rcases c.answer r with ⟨error | reply, c'⟩
      · exact ⟨rfl, trivial, rfl, rfl, rfl⟩
      · dsimp only
        split <;> exact ⟨rfl, trivial, rfl, rfl, rfl⟩
    · exact ⟨rfl, trivial, rfl, rfl, rfl⟩
  accept := by
    intro server event s s' hs
    show (Rehearsal.accept server event s).hooks = [] ∧
      (Rehearsal.accept server event s).cluster = s'.cluster ∧
        ((Rehearsal.accept server event s).faults, (Rehearsal.accept server event s).nextSecret) =
          s'.luck
    unfold Rehearsal.accept
    split <;> exact hs
  draw := by
    rintro s ⟨c, _, sunk⟩ ⟨hhooks, hcluster, rfl⟩
    exact ⟨rfl, hhooks, hcluster, rfl⟩

/-- Whatever two sinks make of the events, an interaction does the same and comes to the same. -/
theorem idle_of_sinks (sink : Sink ε) (sink' : Sink ε') (x : Interaction α) (c : Cluster)
    (luck : τ) (e : ε) (e' : ε') :
    x.trace (w.handler sink) ⟨c, luck, e⟩ = x.trace (w.handler sink') ⟨c, luck, e'⟩ ∧
      (x.run (w.handler sink) ⟨c, luck, e⟩).1 = (x.run (w.handler sink') ⟨c, luck, e'⟩).1 ∧
        Beside Eq (fun _ _ => True) (x.run (w.handler sink) ⟨c, luck, e⟩).2
          (x.run (w.handler sink') ⟨c, luck, e'⟩).2 := by
  have halike : Alike .free (Beside (τ := τ) Eq fun _ _ => True) (w.handler sink)
      (w.handler sink') := by
    refine w.alike_handler ?_ (fun _ _ _ _ _ _ _ _ => trivial) (fun _ _ _ _ _ => trivial)
    rintro r c _ rfl -
    exact ⟨rfl, rfl⟩
  exact halike.run x.obeys_free ⟨rfl, rfl, trivial⟩

theorem sunk_answer (r : Request) (s : Scene τ ε) : (w.answer r s).2.sunk = s.sunk := by
  unfold answer
  dsimp only
  cases (w.fate r s.luck).1 <;> rfl

/-- What is kept of the events is the events of the trace. -/
theorem sunk_record (x : Interaction α) (s : Scene τ (List Event)) :
    (x.run (w.handler .record) s).2.sunk =
      s.sunk ++ (x.trace (w.handler .record) s).events := by
  induction x generalizing s with
  | done a => exact (List.append_nil s.sunk).symm
  | call r next ih =>
    rw [Interaction.run_call, Interaction.trace_call, ih]
    exact congrArg (· ++ _) (w.sunk_answer r s)
  | emit server event next ih =>
    rw [Interaction.trace_emit]
    exact (ih _).trans (List.append_assoc s.sunk [event] _)
  | secret next ih =>
    rw [Interaction.run_secret, Interaction.trace_secret, ih]
    rfl

end Circumstances

end PushOperator
