import PushOperator.Proofs.Pass.RefusedWrites
import PushOperator.Proofs.Pass.Replaces

/-!
# One correction at a time

A pass that has put a child right makes no other call: it ends, asking to be run again after a
second, and nothing else makes it ask for that. Wherever a pass ends early without having failed, it
leaves the status of its server as it was, except that a server that is new has become Initializing
(`singleCorrection_of_run`).
-/

namespace PushOperator

open Cluster

variable {σ : Type} {w : World σ} {settings : Settings} {ns name : String} {c c' c₁ : Cluster}
  {st st' : PassState} {t : Trace} {x : Interaction (Except Error Action)} {e : Entry}
  {live : Server} {action : Action}

/-- A call, whatever the answer to it is. -/
def Entry.IsCall : Entry → Prop
  | .call _ _ => True
  | .event _ _ | .secret _ => False

/-- An update of a claim or a deployment that was accepted. -/
def Entry.IsCorrection : Entry → Prop
  | .call (.update k _) (.ok _) => k ∈ correctedKinds
  | _ => False

/-- The status of a server at the beginning of its life. -/
theorem Server.status_observe_start {server : Server} (h : isNew server = true) :
    (observe (start server)).status = some { statusOrDefault server with
      phase := .initializing
      observedGeneration :=
        server.metadata.generation.or (statusOrDefault server).observedGeneration } := by
  unfold start
  rw [if_pos h]
  cases hgeneration : server.metadata.generation <;>
    simp [observe, observeStatus, withStatus, statusOrDefault, hgeneration]

/-! ## The last call of a pass -/

section

variable (hc : c.Keyed) (hns : ns ≠ "") (hname : name ≠ "")
  (hsteps : Steps flaky (reconcile settings ns name).run c t x c')
include hc hns hname hsteps

/-- What is put right is a child that says where it is, so nothing stops the pass from seeing that
it was accepted. -/
theorem corrects_of_isCorrection (he : e ∈ t) (hcorrection : e.IsCorrection) : e.Corrects := by
  obtain ⟨before, after, rfl⟩ := List.append_of_mem he
  have hamid : Steps (amid Becomes) (reconcile settings ns name).run c (before ++ e :: after) x
      c' :=
    hsteps.mono (amid_of_flaky fun _ => .refl)
  have hplaces := (inPlace_of_steps (fun _ _ h => h) hc hamid).2
  obtain ⟨x₁, c₁, x₂, c₂, hbefore, hstep, -⟩ := hsteps.of_append
  cases hstep with
  | @call r _ _ a _ hanswer =>
    cases r with
    | update k o =>
      cases a with
      | error error => exact hcorrection.elim
      | ok updated =>
        have hwarranted := warranted_of_steps hbefore
        refine ⟨hcorrection, placed_of_correct ?_ hns hname hwarranted hcorrection⟩
        exact fun e' he' => hplaces e' (List.mem_append_left _ he')
    | get | list | create | updateStatus | delete | probe => exact hcorrection.elim
  | emit | secret => exact hcorrection.elim

theorem corrected_iff : Corrected t ↔ ∃ e ∈ t, e.IsCorrection := by
  constructor
  · rintro ⟨e, he, hcorrects⟩
    refine ⟨e, he, ?_⟩
    unfold Entry.Corrects at hcorrects
    split at hcorrects
    · exact hcorrects.1
    · exact hcorrects.elim
  · rintro ⟨e, he, hcorrection⟩
    exact ⟨e, he, corrects_of_isCorrection hc hns hname hsteps he hcorrection⟩

/-- A correction that was accepted is the last call. -/
theorem not_isCall_of_isCorrection {before after : Trace} (ht : t = before ++ e :: after)
    (hcorrection : e.IsCorrection) : ∀ e' ∈ after, ¬e'.IsCall := by
  intro e' he' hcall
  obtain ⟨mid, rest, rfl⟩ := List.append_of_mem he'
  have he : e ∈ t := by
    rw [ht]
    exact List.mem_append_right _ List.mem_cons_self
  have hcorrects := corrects_of_isCorrection hc hns hname hsteps he hcorrection
  have hsplit : t = (before ++ e :: mid) ++ e' :: rest := by
    rw [ht, List.append_assoc, List.cons_append]
  rw [hsplit] at hsteps
  obtain ⟨x₁, c₁, x₂, c₂, hbefore, hstep, -⟩ := hsteps.of_append
  cases hstep with
  | call =>
    refine (warranted_of_steps hbefore).1 ⟨e, ?_, hcorrects⟩
    exact List.mem_append_right _ List.mem_cons_self
  | emit | secret => exact hcall

end

/-! ## Where a pass ends early -/

namespace Pass

/-- Storing the status is no reason to end early. -/
theorem not_early_of_persist {s s' : σ}
    (h : Run w (persist.exec st) s t (some (.error (.early action), st')) s') : False := by
  rw [exec_persist] at h
  split at h
  · cases (run_done_some.1 h).1
  obtain ⟨answer, s₁, t₁, -, hrest, rfl⟩ := run_call_some.1 h
  rcases answer with error | updated
  · cases (run_done_some.1 hrest).1
  · dsimp only at hrest
    split at hrest <;> cases (run_done_some.1 hrest).1

/-- A pass only waits for changes when it defers to another server. -/
theorem awaitChange_of_deferToActive {s s' : σ}
    (h : Run w (deferToActive.exec st) s t (some (.error (.early action), st')) s') :
    action = .awaitChange := by
  let duties : Duties := {
    contract := ⟨fun _ _ => True, fun _ => True⟩
    keeps := fun _ _ => True
    stops := (· = .awaitChange) }
  have hobeys : Obeys duties (fun _ => True) deferToActive := by
    refine obeys_bind obeys_server fun server _ => ?_
    split
    · exact obeys_pure trivial
    refine obeys_bind (obeys_liftM (Task.obeys_ofExcept fun _ _ => trivial)) fun ns' _ => ?_
    have hlist : Task.Obeys duties.contract _ (Task.call (.list .unifiedPushServer ns' "")) :=
      Task.obeys_call trivial
    refine obeys_bind (obeys_liftM hlist) fun others _ => ?_
    split
    · exact obeys_stop rfl
    · exact obeys_pure trivial
  have hhonors : Interaction.Honors w duties.contract fun _ => True :=
    fun _ _ _ _ _ _ _ => ⟨trivial, trivial⟩
  obtain ⟨-, hpost, -⟩ := (hobeys st trivial).run hhonors trivial h
  exact (hpost _ rfl).2.2 action rfl

/-- A step that writes no servers leaves them as they are, and the pass's view of its own. -/
theorem servers_of_writesOnly {α : Type} {kinds : List Kind} {y : Pass α} {r : Except Halt α}
    (hwrites : WritesOnly kinds y) (hkinds : .unifiedPushServer ∉ kinds)
    (h : Run flaky (y.exec st) c t (some (r, st')) c') :
    c'.shelf .unifiedPushServer = c.shelf .unifiedPushServer ∧
      st'.server = st.server ∧ st'.stored = st.stored := by
  obtain ⟨hsame, hkept, -⟩ := (hwrites st.server st.stored st ⟨rfl, rfl⟩).run
    (honors_writesOnly kinds c) ⟨fun _ _ => rfl, rfl⟩ h
  exact ⟨hsame.shelf _ hkinds, (hkept _ rfl).1⟩

/-- What becomes of the status when a pass begins: a server that is new has become Initializing. -/
theorem status_of_start {u : Unit} (hplace : nsOf live = ns ∧ nameOf live = name)
    (hget : c.get? .unifiedPushServer ns name = some live) (hserver : st.server = live)
    (hstored : st.stored = live.status)
    (h : Run flaky (start.exec st) c t (some (.ok u, st')) c') :
    ∃ live', c'.get? .unifiedPushServer ns name = some live' ∧
      live'.status = if Server.isNew live then (Server.start live).observe.status
        else live.status := by
  subst hserver
  rw [exec_start] at h
  split at h
  · next hnew =>
    have hstart : Server.start st.server = { st.server with
        status := some { Server.statusOrDefault st.server with phase := .initializing } } :=
      if_pos hnew
    rw [if_pos hnew]
    rw [exec_persist] at h
    split at h
    · next hsame =>
      obtain ⟨-, -, rfl⟩ := run_done_some.1 h
      exact ⟨_, hget, (hsame.trans hstored).symm⟩
    obtain ⟨answer, c₁, t₁, hanswer, hrest, rfl⟩ := run_call_some.1 h
    rcases answer with error | updated
    · cases (run_done_some.1 hrest).1
    have hc₁ : c₁ = c' := by
      dsimp only at hrest
      split at hrest
      · exact (run_done_some.1 hrest).2.2.symm
      · cases (run_done_some.1 hrest).1
    subst hc₁
    obtain ⟨stored, -, -, -, rfl⟩ := answer_updateStatus.1 (flaky_ok_iff.1 hanswer)
    have hns : nsOf (Server.start st.server).observe = ns := by
      rw [hstart]
      exact hplace.1
    have hname : nameOf (Server.start st.server).observe = name := by
      rw [hstart]
      exact hplace.2
    dsimp only
    rw [hns, hname]
    exact ⟨_, get?_store_self c ns name _, rfl⟩
  · next hseen =>
    obtain ⟨-, -, rfl⟩ := run_done_some.1 h
    rw [if_neg hseen]
    exact ⟨_, hget, rfl⟩

/-- The status where a pass ends early: before it has begun, or after. -/
theorem status_of_body (hplace : nsOf live = ns ∧ nameOf live = name)
    (hget : c.get? .unifiedPushServer ns name = some live)
    (h : Run flaky ((body settings).exec { server := live, stored := live.status }) c t
      (some (.error (.early action), st')) c') :
    ∃ live', c'.get? .unifiedPushServer ns name = some live' ∧
      (live'.status = live.status ∧ action = .awaitChange ∨
        live'.status = if Server.isNew live then (Server.start live).observe.status
          else live.status) := by
  rw [body_eq] at h
  rcases run_exec_bind h with ⟨halt, heq, hdefer⟩ | ⟨_, st₁, c₁, t₁, t₂, hdefer, hrest, rfl⟩
  · obtain rfl := Except.error.inj heq
    obtain ⟨hshelf, -⟩ := servers_of_writesOnly writesOnly_deferToActive (by simp) hdefer
    refine ⟨live, (get?_of_shelf hshelf ns name).trans hget, .inl ⟨rfl, ?_⟩⟩
    exact awaitChange_of_deferToActive hdefer
  obtain ⟨hshelf, hserver, hstored⟩ :=
    servers_of_writesOnly writesOnly_deferToActive (by simp) hdefer
  have hget₁ : c₁.get? .unifiedPushServer ns name = some live :=
    (get?_of_shelf hshelf ns name).trans hget
  rcases run_exec_bind hrest with ⟨halt, heq, hstart⟩ | ⟨_, st₂, c₂, t₃, t₄, hstart, hrest₂, rfl⟩
  · obtain rfl := Except.error.inj heq
    rw [exec_start] at hstart
    split at hstart
    · exact (not_early_of_persist hstart).elim
    · cases (run_done_some.1 hstart).1
  obtain ⟨live', hlive', hstatus⟩ := status_of_start hplace hget₁ hserver hstored hstart
  refine ⟨live', ?_, .inr hstatus⟩
  rcases run_exec_bind hrest₂ with ⟨_, -, hconverge⟩ | ⟨_, st₃, c₃, t₅, t₆, -, hrest₃, rfl⟩
  · obtain ⟨hshelf', -⟩ := servers_of_writesOnly writesOnly_converge (by decide) hconverge
    exact (get?_of_shelf hshelf' ns name).trans hlive'
  · rcases run_exec_bind hrest₃ with ⟨halt, heq, hsucceed⟩ | ⟨_, st₄, c₄, t₇, t₈, -, hend, rfl⟩
    · obtain rfl := Except.error.inj heq
      have hpersist : Run flaky (persist.exec { st₃ with
          server := Server.succeed st₃.server st₃.ready st₃.children
          children := ∅ }) c₃ t₆ (some (.error (.early action), st')) c' := hsucceed
      exact (not_early_of_persist hpersist).elim
    · cases (run_done_some.1 hend).1

/-- A pass that comes to the end of its body asks for thirty seconds. -/
theorem requeue_of_body {s s' : σ}
    (h : Run w ((body settings).exec st) s t (some (.ok action, st')) s') :
    action = .requeue 30 := by
  rw [body_eq] at h
  rcases run_exec_bind h with ⟨_, heq, -⟩ | ⟨_, _, _, _, _, -, hrest, -⟩
  · cases heq
  rcases run_exec_bind hrest with ⟨_, heq, -⟩ | ⟨_, _, _, _, _, -, hrest₂, -⟩
  · cases heq
  rcases run_exec_bind hrest₂ with ⟨_, heq, -⟩ | ⟨_, _, _, _, _, -, hrest₃, -⟩
  · cases heq
  rcases run_exec_bind hrest₃ with ⟨_, heq, -⟩ | ⟨_, _, _, _, _, -, hend, -⟩
  · cases heq
  exact Except.ok.inj (Prod.mk.inj (run_done_some.1 hend).1).1

end Pass

/-- The stored status after a pass that has ended early without a failure. One that asks for five
seconds may have failed; it has not when it has reported no failure. -/
theorem status_of_early (hc : c.Keyed)
    (hget : c.get? .unifiedPushServer ns name = some live)
    (h : Run flaky (reconcile settings ns name).run c t (some (.ok action)) c')
    (haction : action ≠ .requeue 30) (hcalm : action = .requeue 5 → ∀ e ∈ t, e.IsCalm) :
    ∃ live', c'.get? .unifiedPushServer ns name = some live' ∧
      (live'.status = live.status ∧ action = .awaitChange ∨
        live'.status = if Server.isNew live then (Server.start live).observe.status
          else live.status) := by
  cases hwatched : settings.watches ns with
  | false =>
    rw [run_reconcile_of_unwatched hwatched] at h
    obtain ⟨heq, rfl, rfl⟩ := run_done_some.1 h
    exact ⟨live, hget, .inl ⟨rfl, Except.ok.inj heq⟩⟩
  | true =>
    rw [run_reconcile hwatched] at h
    obtain ⟨answer, c₁, t', hanswer, hrest, rfl⟩ := run_call_some.1 h
    obtain rfl := flaky_read rfl hanswer
    rcases answer with error | _ | server
    · cases (run_done_some.1 hrest).1
    · obtain ⟨heq, rfl, rfl⟩ := run_done_some.1 hrest
      exact ⟨live, hget, .inl ⟨rfl, Except.ok.inj heq⟩⟩
    obtain ⟨hsome, -⟩ := answer_get.1 (flaky_ok_iff.1 hanswer)
    obtain rfl := Option.some.inj (hsome.trans hget)
    obtain ⟨action', c₂, t₂, t₃, hpass, hdone, rfl⟩ := run_bind_iff.1 hrest
    obtain ⟨heq, rfl, rfl⟩ := run_done_some.1 hdone
    obtain rfl := Except.ok.inj heq
    rw [Pass.run_eq] at hpass
    obtain ⟨⟨r, st⟩, c₃, t₄, t₅, hbody, hend, rfl⟩ := run_bind_iff.1 hpass
    rcases r with (error | early) | done
    · -- The report of the failure would be seen.
      have hconclude : Run flaky (Pass.conclude error st) c₃ t₅ (some action) c' := hend
      have hfive := Pass.run_conclude hconclude
      rw [Pass.conclude_eq] at hconclude
      obtain ⟨t₆, -, rfl⟩ := run_emit_some.1 hconclude
      have hreport := hcalm hfive (.event (Server.fail st.server error)
        { reason := .reconcileFailed, message := error.message }) (by simp)
      exact absurd rfl hreport
    · obtain ⟨rfl, rfl, rfl⟩ := run_done_some.1 hend
      exact Pass.status_of_body (hc _ _ _ _ hget) hget hbody
    · obtain ⟨rfl, rfl, rfl⟩ := run_done_some.1 hend
      exact absurd (Pass.requeue_of_body hbody) haction

/-- An update of a claim or a deployment that is accepted is the last call of a pass, and so there
is one at most. When there was one, the pass asks for a second, and else it does not. A pass that
ends early without having failed leaves the stored status of its server as it was; only a server
that was new is then Initializing and says which generation was seen, unless the pass has deferred
to another server. -/
theorem singleCorrection_of_run {o : Option (Except Error Action)} (hc : c.Keyed) (hns : ns ≠ "")
    (hname : name ≠ "") (h : Run flaky (reconcile settings ns name).run c t o c') :
    (∀ before e after, t = before ++ e :: after → e.IsCorrection →
      (∀ e' ∈ after, ¬e'.IsCall) ∧ ∀ e' ∈ before, ¬e'.IsCorrection) ∧
    (∀ result, o = some result → ((∃ e ∈ t, e.IsCorrection) ↔ result = .ok (.requeue 1))) ∧
    ∀ action live, o = some (.ok action) → action ≠ .requeue 30 →
      (action = .requeue 5 → ∀ e ∈ t, e.IsCalm) →
      c.get? .unifiedPushServer ns name = some live →
        ∃ live', c'.get? .unifiedPushServer ns name = some live' ∧
          (live'.status = live.status ∧ action = .awaitChange ∨
            live'.status = if Server.isNew live then some { Server.statusOrDefault live with
                phase := .initializing
                observedGeneration := live.metadata.generation.or
                  (Server.statusOrDefault live).observedGeneration }
              else live.status) := by
  obtain ⟨x, hsteps, hend⟩ := Steps.of_run h
  have hlast {before after : Trace} {e : Entry} (ht : t = before ++ e :: after)
      (he : e.IsCorrection) : ∀ e' ∈ after, ¬e'.IsCall :=
    not_isCall_of_isCorrection hc hns hname hsteps ht he
  refine ⟨fun before e after ht he => ⟨hlast ht he, ?_⟩, ?_, ?_⟩
  · intro e' he' hcorrection
    obtain ⟨first, mid, rfl⟩ := List.append_of_mem he'
    rw [List.append_assoc, List.cons_append] at ht
    refine hlast ht hcorrection e (List.mem_append_right _ List.mem_cons_self) ?_
    cases e with
    | call => trivial
    | event | secret => exact he.elim
  · rintro result rfl
    obtain rfl := hend result rfl
    have hends : Corrected ([] ++ t) ↔ result = .ok (.requeue 1) := grounded_reconcile.steps hsteps
    rw [← hends, List.nil_append, corrected_iff hc hns hname hsteps]
  · rintro action live rfl haction hcalm hget
    obtain ⟨live', hlive', hstatus⟩ := status_of_early hc hget h haction hcalm
    refine ⟨live', hlive', hstatus.imp_right fun hsame => ?_⟩
    rw [hsame]
    split
    · next hnew => exact Server.status_observe_start hnew
    · rfl

/-- A pass over a server that is new, of which the claim has drifted. -/
theorem singleCorrection_of_run_driftedCluster : ∃ t c' live,
    Run flaky (reconcile {} "push" "a").run driftedCluster t (some (.ok (.requeue 1))) c' ∧
    (∃ e ∈ t, e.IsCorrection) ∧ c'.get? .unifiedPushServer "push" "a" = some live ∧
      Server.phase live = .initializing := by
  obtain ⟨t, c', hrun⟩ := exists_run_driftedCluster
  have hflaky := hrun.mono flaky_of_reliable
  obtain ⟨-, hresults, hstatus⟩ :=
    singleCorrection_of_run stamped_driftedCluster.keyed (by decide) (by decide) hflaky
  have hget : driftedCluster.get? .unifiedPushServer "push" "a" =
      some (stamped 2 (sampleServer "a")) := rfl
  obtain ⟨live, hlive, ⟨-, hwaits⟩ | hstarted⟩ :=
    hstatus (.requeue 1) _ rfl (by decide) nofun hget
  · cases hwaits
  · refine ⟨t, c', live, hflaky, (hresults _ rfl).2 rfl, hlive, ?_⟩
    rw [Server.phase, hstarted]
    rfl

end PushOperator
