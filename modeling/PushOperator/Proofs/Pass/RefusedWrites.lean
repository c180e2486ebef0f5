import PushOperator.Proofs.Interaction.Grounds
import PushOperator.Proofs.Pass.Outcome

/-!
# Writes that are refused

A write may be refused because somebody else has written before. A pass does not try again by
itself: it fails, and asks to be run again after five seconds (`refused_of_steps`). If it is the
status of a pass that has failed already, nothing follows at all.
-/

namespace PushOperator

open Interaction

variable {α β σ τ : Type} {w : World σ} {w' : World τ} {settings : Settings} {ns name : String}
  {s s' : σ} {t : Trace} {error : Error} {st : PassState}

/-- The answer to a write that is refused. -/
def refusedWrite : Flaw := fun r a error => r.isWrite = true ∧ a = .error error

namespace Pass

theorem flaw_of_refusedWrite {server : Server} {r : Request} {a : Except Error r.Reply}
    (h : refusedWrite r a error) : flaw settings server r a error := by
  obtain ⟨hwrite, rfl⟩ := h
  refine ⟨?_, rfl⟩
  cases r with
  | list => cases hwrite
  | get | create | update | updateStatus | delete | probe => exact id

/-! ## Parts of passes -/

/-- A part of a pass that fails when a write is refused. -/
def MindsRefusal (x : Pass α) : Prop :=
  ∀ st, st.children.Distinct → (x.exec st).Heeds refusedWrite (fun _ => True)
    (fun error p => p.1 = .error (.failed error)) fun p => p.2.children.Distinct

theorem MindsRefusal.bind {x : Pass α} {f : α → Pass β} (hx : MindsRefusal x)
    (hf : ∀ a, MindsRefusal (f a)) : MindsRefusal (x >>= f) := by
  intro st hdistinct
  rw [exec_bind]
  refine heeds_bind (hx st hdistinct) ?_ ?_
  · rintro ⟨halt | a, st'⟩ hdistinct'
    · exact hdistinct'
    · exact hf a st' hdistinct'
  · rintro error ⟨r, st'⟩ rfl
    rfl

/-- What heeds all that may stand in its way heeds refusals. -/
theorem mindsRefusal_of_heeds {x : Pass α}
    (h : ∀ server, Heeds settings server (fun _ => True) x) : MindsRefusal x := by
  intro st hdistinct
  refine (h st.server st rfl hdistinct).mono ?_ fun p hp => hp.2.1
  exact fun r a error => flaw_of_refusedWrite

theorem mindsRefusal_persist : MindsRefusal persist := by
  intro st hdistinct
  rw [exec_persist]
  split
  · exact hdistinct
  · rintro (error | updated) -
    · refine ⟨hdistinct, ?_⟩
      rintro _ ⟨-, heq⟩
      rw [Except.error.inj heq]
      rfl
    · refine ⟨?_, fun _ hrefused => nomatch hrefused.2⟩
      cases placed st.server.metadata <;> exact hdistinct

theorem mindsRefusal_start : MindsRefusal start := by
  intro st hdistinct
  rw [exec_start]
  split
  · exact mindsRefusal_persist { st with server := Server.start st.server } hdistinct
  · exact hdistinct

theorem mindsRefusal_succeed : MindsRefusal succeed := by
  intro st _
  exact mindsRefusal_persist { st with
    server := Server.succeed st.server st.ready st.children
    children := ∅ } Registry.distinct_empty

theorem mindsRefusal_body : MindsRefusal (body settings) := by
  have hdefer (server : Server) : Heeds settings server (fun _ => True) deferToActive :=
    heeds_deferToActive
  refine (mindsRefusal_of_heeds hdefer).bind fun _ => mindsRefusal_start.bind fun _ => ?_
  have hconverge : MindsRefusal (converge settings) := mindsRefusal_of_heeds fun _ => heeds_converge
  exact hconverge.bind fun _ => mindsRefusal_succeed.bind fun _ _ hdistinct => hdistinct

/-! ## The end of a pass that has failed -/

/-- It is one report, and then at most the status, whatever becomes of that. -/
theorem conclude_eq (error : Error) (st : PassState) : conclude error st =
    .emit (Server.fail st.server error) { reason := .reconcileFailed, message := error.message }
      (if (Server.fail st.server error).observe.status = st.stored then .done (.requeue 5)
      else .call (.updateStatus .unifiedPushServer (Server.fail st.server error).observe) fun _ =>
        .done (.requeue 5)) := by
  refine congrArg (Interaction.emit _ _) ?_
  show (persist.exec { st with server := Server.fail st.server error }).bind _ = _
  rw [exec_persist]
  dsimp only
  split
  · rfl
  · refine congrArg (Interaction.call _) (funext fun answer => ?_)
    rcases answer with error' | updated
    · rfl
    · dsimp only
      split <;> rfl

theorem run_conclude {action : Action} (h : Run w (conclude error st) s t (some action) s') :
    action = .requeue 5 := by
  rw [conclude_eq] at h
  obtain ⟨t', hrest, rfl⟩ := run_emit_some.1 h
  split at hrest
  · exact (run_done_some.1 hrest).1
  · obtain ⟨answer, s₁, t₁, -, hdone, rfl⟩ := run_call_some.1 hrest
    exact (run_done_some.1 hdone).1

/-- The only call that a failed pass comes to is the last one. -/
theorem calls_of_conclude {r : Request} {next : Except Error r.Reply → Interaction Action}
    (h : Steps w (conclude error st) s t (.call r next) s') (a : Except Error r.Reply) :
    next a = .done (.requeue 5) := by
  rw [conclude_eq] at h
  rcases h.emit_cases with ⟨-, heq, -⟩ | ⟨t', hrest, rfl⟩
  · cases heq
  split at hrest
  · cases hrest.of_done.2.1
  rcases hrest.call_cases with ⟨-, heq, -⟩ | ⟨answer, s₁, t₁, -, hdone, rfl⟩
  · cases heq
    rfl
  · cases hdone.of_done.2.1

end Pass

/-! ## Whole passes -/

/-- Once a write of a pass is refused it ends asking for five seconds, whatever else is answered. If
the pass has reported a failure before, nothing changes any more. -/
theorem refused_of_steps {r : Request}
    {next : Except Error r.Reply → Interaction (Except Error Action)}
    (h : Steps w (reconcile settings ns name).run s t (.call r next) s') (hwrite : r.isWrite = true)
    {s₁ s₂ : τ} {t' : Trace} {result : Except Error Action}
    (hrun : Run w' (next (.error error)) s₁ t' (some result) s₂) :
    result = .ok (.requeue 5) ∧ ((∃ e ∈ t, ¬e.IsCalm) → s₂ = s₁) := by
  cases hwatched : settings.watches ns with
  | false =>
    rw [run_reconcile_of_unwatched hwatched] at h
    cases h.of_done.2.1
  | true =>
    rw [run_reconcile hwatched] at h
    rcases h.call_cases with ⟨-, heq, -⟩ | ⟨answer, s₃, t₃, -, hrest, rfl⟩
    · cases heq
      cases hwrite
    rcases answer with error' | _ | server
    · cases hrest.of_done.2.1
    · cases hrest.of_done.2.1
    dsimp only at hrest
    rw [Pass.run_eq, bind_assoc] at hrest
    -- The call is one of the body, or it comes after the body has failed.
    rcases hrest.bind_cases with ⟨x, hbody, heq⟩ | ⟨⟨r', st⟩, s₄, t₄, t₅, hbody, hend, rfl⟩
    · obtain ⟨hheeds, hcalm⟩ := Heeds.steps (fun _ _ _ _ _ => trivial)
        (Pass.mindsRefusal_body _ Registry.distinct_empty) hbody
      cases x with
      | done p => rcases p with ⟨(_ | _) | _, _⟩ <;> cases heq
      | emit | secret => cases heq
      | call r next' =>
        cases heq
        obtain ⟨-, hstops⟩ := hheeds (.error error) fun _ _ => trivial
        obtain ⟨⟨r', st⟩, s₅, t₅, t₆, hfirst, hlast, rfl⟩ := run_bind_iff.1 hrun
        obtain ⟨rfl, -⟩ := (hstops error ⟨hwrite, rfl⟩).run hfirst
        obtain ⟨action, s₆, t₇, t₈, hconclude, hdone, rfl⟩ := run_bind_iff.1 hlast
        obtain rfl := Pass.run_conclude hconclude
        refine ⟨(run_done_some.1 hdone).1, ?_⟩
        rintro ⟨e, he, hloud⟩
        rcases List.mem_cons.1 he with rfl | he'
        · exact absurd trivial hloud
        · exact absurd (hcalm e he') hloud
    · rcases r' with (error' | action) | action
      · rcases hend.bind_cases with ⟨x, hconclude, heq⟩ | ⟨action, s₅, t₆, t₇, -, hdone, rfl⟩
        · cases x with
          | done | emit | secret => cases heq
          | call r next' =>
            cases heq
            dsimp only at hrun
            rw [Pass.calls_of_conclude hconclude] at hrun
            obtain ⟨rfl, -, rfl⟩ := run_done_some.1 hrun
            exact ⟨rfl, fun _ => rfl⟩
        · cases hdone.of_done.2.1
      · cases hend.of_done.2.1
      · cases hend.of_done.2.1

end PushOperator
