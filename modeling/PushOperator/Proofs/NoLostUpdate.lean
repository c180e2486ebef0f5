import PushOperator.Proofs.Pass.Replaces
import PushOperator.Proofs.Pass.RefusedWrites
import PushOperator.Proofs.SingleActive.Concurrent

/-!
# No update is lost

A pass reads objects, and writes some of them back later. Others may write in between, between any
two calls of the pass and as often as they like. Whatever the pass replaces carries the version of
what it has read, so it never replaces anything else: a write is only accepted over the object that
was seen last in its place, and else it is refused and the pass gives up (`noLostUpdate_of_steps`).
-/

namespace PushOperator

open Cluster

variable {k : Kind} {settings : Settings} {ns name : String} {t : Trace} {r : Request}
  {o : Object k}

/-! ## What is replaced is what was read last -/

/-- The object that is stored where `o` belongs is the one that was seen last of that place, and it
has the version that `o` carries. -/
def Cluster.IsCurrent (c : Cluster) (t : Trace) (o : Object k) : Prop :=
  ∃ read, c.get? k (nsOf o) (nameOf o) = some read ∧
    lastShown t k (nsOf o) (nameOf o) = some ⟨k, read⟩ ∧
      o.metadata.resourceVersion = read.metadata.resourceVersion

theorem Cluster.Recent.isCurrent {c c' : Cluster} {reply : r.Reply} (h : Recent t c)
    (hwarranted : Warranted settings ns name t r) (hr : r.Replaces o)
    (hanswer : c.answer r = (.ok reply, c')) : c.IsCurrent t o := by
  obtain ⟨read, hread, hversion⟩ := hwarranted.exists_shown hr
  cases hr with
  | update | updateStatus =>
    obtain ⟨hstored, hlast, -⟩ := h.of_replace_ok hread hversion hanswer
    exact ⟨read, hstored, hlast, hversion⟩

/-- A call that the cluster refuses is refused in a flaky one too, and has no effect. -/
theorem Cluster.flaky_of_refused {c c' : Cluster} {a : Except Error r.Reply}
    (hrefused : ∀ reply c', c.answer r ≠ (.ok reply, c')) (h : flaky r c a c') :
    (∃ error, a = .error error) ∧ c' = c := by
  obtain ⟨error, hanswer⟩ : ∃ error, c.answer r = (.error error, c) := by
    rcases hanswer : c.answer r with ⟨error | reply, c₁⟩
    · obtain ⟨rfl, -⟩ := answer_error hanswer
      exact ⟨error, rfl⟩
    · exact absurd hanswer (hrefused reply c₁)
  rcases h with hanswered | ⟨error', rfl, rfl | rfl⟩
  · obtain ⟨rfl, rfl⟩ := Prod.mk.inj (hanswer.symm.trans hanswered)
    exact ⟨⟨error, rfl⟩, rfl⟩
  · exact ⟨⟨error', rfl⟩, rfl⟩
  · rw [hanswer]
    exact ⟨⟨error', rfl⟩, rfl⟩

/-- An interaction comes to its end, and always with the same result. -/
def Interaction.EndsWith {α σ : Type} (w : World σ) (x : Interaction α) (s : σ) (a : α) : Prop :=
  (∃ t s', Run w x s t (some a) s') ∧ ∀ t b s', Run w x s t (some b) s' → b = a

/-- Others may write anything before each call of a pass. Where the pass is about to replace an
object, the write can only be accepted if the object stored just then is the one that the pass has
seen last. If it is not, the write is refused and what is stored stays, and the pass ends asking for
five seconds; if it had failed before, nothing changes any more. -/
theorem noLostUpdate_of_steps {c c₁ c₂ : Cluster}
    {next : Except Error r.Reply → Interaction (Except Error Action)} (hc : c.Stamped)
    (hsteps : Steps (amid Becomes) (reconcile settings ns name).run c t (.call r next) c₁)
    (hothers : Becomes c₁ c₂) (hr : r.Replaces o) :
    (∀ reply c₃, c₂.answer r = (.ok reply, c₃) → c₂.IsCurrent t o) ∧
      (¬c₂.IsCurrent t o → ∀ a c₃, flaky r c₂ a c₃ → (∃ error, a = .error error) ∧ c₃ = c₂ ∧
        (next a).EndsWith (amid Becomes) c₃ (.ok (.requeue 5)) ∧
        ((∃ e ∈ t, ¬e.IsCalm) → ∀ t' result c', Run (amid Becomes) (next a) c₃ t' (some result) c' →
          c' = c₂)) := by
  have hwarranted : Warranted settings ns name t r := warranted_of_steps hsteps
  have hrecent : Recent t c₂ := (recent_of_steps (fun _ _ h => h) hc hsteps).2.becomes hothers
  have haccepted (reply : r.Reply) (c₃ : Cluster) (hanswer : c₂.answer r = (.ok reply, c₃)) :
      c₂.IsCurrent t o := hrecent.isCurrent hwarranted hr hanswer
  refine ⟨haccepted, fun hstale a c₃ ha => ?_⟩
  obtain ⟨⟨error, rfl⟩, rfl⟩ := flaky_of_refused (fun _ _ h => hstale (haccepted _ _ h)) ha
  have hends {t' : Trace} {result : Except Error Action} {c' : Cluster}
      (hrun : Run (amid Becomes) (next (.error error)) c₃ t' (some result) c') :
      result = .ok (.requeue 5) ∧ ((∃ e ∈ t, ¬e.IsCalm) → c' = c₃) :=
    refused_of_steps hsteps hr.isWrite hrun
  refine ⟨⟨error, rfl⟩, rfl, ⟨?_, fun _ _ _ hrun => (hends hrun).1⟩, ?_⟩
  · obtain ⟨t', result, c', hrun⟩ :=
      (next (.error error)).exists_run (w := amid Becomes)
        (fun _ c => ⟨_, _, c, .refl, .inl rfl⟩) c₃
    obtain ⟨rfl, -⟩ := hends hrun
    exact ⟨t', c', hrun⟩
  · exact fun hfailed _ _ _ hrun => (hends hrun).2 hfailed

/-- While the pass over a new server looks at the other servers, somebody writes the new one. -/
theorem noLostUpdate_of_steps_sampleCluster : ∃ t next,
    Steps (amid Becomes) (reconcile {} "push" "a").run sampleCluster t
      (.call (.updateStatus .unifiedPushServer (Server.start (sampleServers false)).observe) next)
        sampleCluster ∧
      ∀ a c, flaky (.updateStatus .unifiedPushServer (Server.start (sampleServers false)).observe)
          (sampleCluster.store "push" "a" (sampleServers false)).2 a c →
        (∃ error, a = .error error) ∧ c = (sampleCluster.store "push" "a" (sampleServers false)).2 ∧
          (next a).EndsWith (amid Becomes) c (.ok (.requeue 5)) := by
  have hwatched : Settings.watches {} "push" = true := rfl
  obtain ⟨e₁, hask⟩ := Pass.exists_step_of_asking hwatched (get?_sampleServers false)
  obtain ⟨e₂, -, hlook⟩ := Pass.exists_step_of_looking {} (filed_sampleCluster _)
    (get?_sampleServers false) rfl not_activeAt_sampleCluster
  have hnew : Server.isNew (sampleServers false) = true := by decide
  obtain ⟨next, hnext⟩ := Pass.exec_proceed_of_isNew {} hnew
  have hsteps : Steps reliable (reconcile {} "push" "a").run sampleCluster [e₁, e₂]
      (Pass.asTask (Pass.proceedRun {} (sampleServers false))) sampleCluster :=
    .step (.step .refl hask) hlook
  unfold Pass.proceedRun at hsteps
  rw [hnext] at hsteps
  have hsteps' := hsteps.mono (amid_of_reliable fun c => Becomes.refl)
  refine ⟨_, _, hsteps', fun a c ha => ?_⟩
  obtain ⟨-, hrefused⟩ := noLostUpdate_of_steps stamped_sampleCluster hsteps'
    (.store (sampleServers false) .refl) (.updateStatus _)
  have hstale : ¬(sampleCluster.store "push" "a" (sampleServers false)).2.IsCurrent [e₁, e₂]
      (Server.start (sampleServers false)).observe := by
    rintro ⟨read, hget, -, hversion⟩
    obtain rfl := Option.some.inj ((get?_store_self sampleCluster "push" "a" _).symm.trans hget)
    exact absurd hversion (by decide)
  obtain ⟨herror, hsame, hends, -⟩ := hrefused hstale a c ha
  exact ⟨herror, hsame, hends⟩

end PushOperator
