import PushOperator.Proofs.Cluster.Circumstances
import PushOperator.Proofs.Pass.ReportedSteps
import PushOperator.Proofs.SingleCorrection

/-!
# Events tell of a pass and have no part in it

Whatever a sink makes of the events of a pass, the pass does the same. And the events tell exactly
what it does: there is one for every child that is created, put right or deleted, in this order, and
one in the end when the pass fails (`events_tell_and_idle`).
-/

namespace PushOperator

open Cluster

variable {σ τ ε ε' : Type} {settings : Settings} {ns name : String} {c : Cluster} {server : Server}

/-! ## The end of a pass that has failed -/

/-- The event that tells of a failed pass. -/
def failureEvent (error : Error) : Event :=
  { reason := .reconcileFailed, message := error.message }

/-- The error of a part of a pass that has failed. -/
def Pass.error? {α : Type} : Except Halt α → Option Error
  | .error (.failed error) => some error
  | .error (.early _) | .ok _ => none

/-- The error with which the steps of a pass over the server of a name end, if it comes to steps and
they fail. -/
def stepsError? (settings : Settings) (ns name : String) (h : Handler σ) (s : σ) : Option Error :=
  if settings.watches ns then
    match h.answer (.get .unifiedPushServer ns name) s with
    | (.ok (some server), s) =>
      Pass.error? (((Pass.body settings).exec { server, stored := server.status }).run h s).1.1
    | (.ok none, _) | (.error _, _) => none
  else none

theorem events_append (t t' : Trace) : Trace.events (t ++ t') = t.events ++ t'.events :=
  List.filterMap_append

namespace Pass

/-- After the report of a failure there is nothing more to report. -/
theorem trace_conclude (error : Error) (st : PassState) (h : Handler σ) (s : σ) :
    ∃ t : Trace, (conclude error st).trace h s =
        .event (Server.fail st.server error) (failureEvent error) :: t ∧
      t.events = [] ∧ t.filter seenChanges.isDue = [] := by
  rw [conclude_eq, Interaction.trace_emit]
  refine ⟨_, rfl, ?_⟩
  split
  · exact ⟨rfl, rfl⟩
  · rw [Interaction.trace_call]
    refine ⟨rfl, ?_⟩
    cases (h.answer (.updateStatus _ (Server.fail st.server error).observe) _).1 <;> rfl

/-- A pass over a server of the namespace has reported all that it gets to report, and its failure
in the end. -/
theorem events_run (settings : Settings) (w : Circumstances τ) (sink : Sink ε) (hc : c.Keyed)
    (hserver : nsOf server = ns) (luck : τ) (sunk : ε) :
    let s : Scene τ ε := ⟨c, luck, sunk⟩
    let body := (body settings).exec { server, stored := server.status }
    let t := (run settings server).trace (w.handler sink) s
    ∃ told, List.Forall₂ changes.TellsOf (t.filter seenChanges.isDue) told ∧
      t.events = told ++ ((error? (body.run (w.handler sink) s).1.1).map failureEvent).toList := by
  intro s body t
  obtain ⟨owed, ⟨told, htold, htells⟩, howed⟩ :=
    (staysIn_body settings { server, stored := server.status } hserver).run
      (honors_insideOf ns) hc (w.run_flaky sink body s)
  obtain rfl : owed = none := (howed _ rfl).1
  obtain rfl : (body.trace (w.handler sink) s).filter seenChanges.isDue = told := by
    simpa using htold
  have ht : t = body.trace (w.handler sink) s ++
      (finish (body.run (w.handler sink) s).1).trace (w.handler sink)
        (body.run (w.handler sink) s).2 := by
    rw [← Interaction.trace_bind, ← run_eq]
  rw [ht, List.filter_append, events_append]
  clear ht
  generalize w.handler sink = h at htells ⊢
  rcases body.run h s with ⟨⟨(error | action) | action, st⟩, s'⟩
  · obtain ⟨t', htrace, hevents, hdue⟩ := trace_conclude error st h s'
    have hlast : (finish (.error (.failed error), st)).trace h s' = _ := htrace
    rw [hlast]
    refine ⟨_, ?_, congrArg (_ ++ failureEvent error :: ·) hevents⟩
    rw [List.filter_cons_of_neg (by simp [Notices.isDue]), hdue, List.append_nil]
    exact htells
  · exact ⟨_, (List.append_nil _).symm ▸ htells, rfl⟩
  · exact ⟨_, (List.append_nil _).symm ▸ htells, rfl⟩

end Pass

/-! ## All changes are told -/

/-- What a pass puts right says where it is, so the pass gets to report it. -/
theorem isDue_seenChanges {t : Trace} {x : Interaction (Except Error Action)} {c' : Cluster}
    (hc : c.Keyed) (hns : ns ≠ "") (hname : name ≠ "")
    (hsteps : Steps flaky (reconcile settings ns name).run c t x c') :
    t.filter seenChanges.isDue = t.filter changes.isDue := by
  refine List.filter_congr fun e he => ?_
  cases e with
  | event | secret => rfl
  | call r a =>
    cases a with
    | error error => rfl
    | ok reply =>
      show (changes.due r reply && r.isPlaced) = changes.due r reply
      cases r with
      | update k o =>
        by_cases hk : k ∈ correctedKinds
        · have hplaced := (corrects_of_isCorrection hc hns hname hsteps he hk).2
          simp [Request.isPlaced, hplaced, Except.isOk, Except.toBool]
        · have hdue : changes.due (.update k o) reply = false := decide_eq_false hk
          rw [hdue, Bool.false_and]
      | get | list | create | updateStatus | delete | probe => exact Bool.and_true _

/-- The events of a pass tell of what it has changed, and in the end of its failure. -/
theorem events_of_reconcile (settings : Settings) (w : Circumstances τ) (sink : Sink ε)
    (hc : c.Keyed) (hns : ns ≠ "") (hname : name ≠ "") (luck : τ) (sunk : ε) :
    let t := (reconcile settings ns name).run.trace (w.handler sink) ⟨c, luck, sunk⟩
    let error? := stepsError? settings ns name (w.handler sink) ⟨c, luck, sunk⟩
    ∃ told, List.Forall₂ changes.TellsOf (t.filter changes.isDue) told ∧
      t.events = told ++ (error?.map failureEvent).toList := by
  intro t error?
  obtain ⟨_, hsteps, -⟩ :=
    Steps.of_run (w.run_flaky sink (reconcile settings ns name).run ⟨c, luck, sunk⟩)
  rw [← isDue_seenChanges hc hns hname hsteps]
  clear hsteps
  revert t error?
  unfold stepsError?
  cases hwatched : settings.watches ns with
  | false =>
    rw [run_reconcile_of_unwatched hwatched]
    exact ⟨[], .nil, rfl⟩
  | true =>
    rw [run_reconcile hwatched, Interaction.trace_call]
    have hflaky := w.flaky_of_answer (.get .unifiedPushServer ns name) ⟨c, luck, sunk⟩
    have hanswer : (w.handler sink).answer = w.answer := rfl
    rw [hanswer]
    generalize w.answer (.get .unifiedPushServer ns name) ⟨c, luck, sunk⟩ = p at hflaky ⊢
    obtain ⟨error | _ | server, c₁, luck', sunk'⟩ := p
    · exact ⟨[], .nil, rfl⟩
    · exact ⟨[], .nil, rfl⟩
    · obtain rfl : c₁ = c := flaky_read rfl hflaky
      have hserver : nsOf server = ns := (inPlace_of_flaky hc hflaky).1
      obtain ⟨told, htells, hevents⟩ :=
        Pass.events_run settings w sink hc hserver luck' sunk'
      have htrace : ((Pass.run settings server).bind fun action =>
            .done (Except.ok (ε := Error) action)).trace (w.handler sink) ⟨c₁, luck', sunk'⟩ =
          (Pass.run settings server).trace (w.handler sink) ⟨c₁, luck', sunk'⟩ := by
        rw [Interaction.trace_bind]
        exact List.append_nil _
      refine ⟨told, ?_, ?_⟩
      · rw [List.filter_cons_of_neg (by simp [Notices.isDue, seenChanges, changes]), htrace]
        exact htells
      · show Trace.events (Interaction.trace _ (Interaction.bind _ _) _) = _
        rw [htrace, hevents]
        rfl

/-- Whatever two sinks make of the events of a pass, the pass makes the same calls, is answered the
same, comes to the same result and leaves the same cluster. A sink that accepts everything gets one
event for every child that is created, put right or deleted, in the order of the calls, and in the
end one for the failure exactly when the pass has failed. -/
theorem events_tell_and_idle (w : Circumstances τ) (settings : Settings) (ns name : String)
    (c : Cluster) (luck : τ) :
    let pass := (reconcile settings ns name).run
    let kept := w.handler .record
    let start : Scene τ (List Event) := ⟨c, luck, []⟩
    (∀ (ε ε' : Type) (sink : Sink ε) (sink' : Sink ε') (sunk : ε) (sunk' : ε'),
      pass.trace (w.handler sink) ⟨c, luck, sunk⟩ =
          pass.trace (w.handler sink') ⟨c, luck, sunk'⟩ ∧
        (pass.run (w.handler sink) ⟨c, luck, sunk⟩).1 =
            (pass.run (w.handler sink') ⟨c, luck, sunk'⟩).1 ∧
          Circumstances.Beside Eq (fun _ _ => True) (pass.run (w.handler sink) ⟨c, luck, sunk⟩).2
            (pass.run (w.handler sink') ⟨c, luck, sunk'⟩).2) ∧
    (c.Keyed → ns ≠ "" → name ≠ "" → ∃ told,
      List.Forall₂ changes.TellsOf ((pass.trace kept start).filter changes.isDue) told ∧
        (pass.run kept start).2.sunk =
          told ++ ((stepsError? settings ns name kept start).map failureEvent).toList) := by
  intro pass kept start
  refine ⟨fun ε ε' sink sink' sunk sunk' => ?_, fun hc hns hname => ?_⟩
  · exact w.idle_of_sinks sink sink' pass c luck sunk sunk'
  · obtain ⟨told, htells, hevents⟩ :=
      events_of_reconcile settings w .record hc hns hname luck []
    exact ⟨told, htells, (w.sunk_record pass start).trans hevents⟩

/-- A plan that keeps deployments from being created. -/
def noDeployments : List Fault := [{
  pattern := { verb := "Create", kind := "Deployment", name := none }
  after := 0
  times := none
  error := { message := "quota exceeded", reason := "Forbidden", code := 403 } }]

/-- A pass that fails when it comes to the deployment of the database. By then the claim and the
credentials are there, and the events say so, whether anybody listens or not. -/
theorem events_tell_and_idle_noDeployments :
    let pass := (reconcile {} "push" "a").run
    let kept := Circumstances.planned.handler .record
    let start : Scene _ (List Event) := ⟨sampleCluster, (noDeployments, 0), []⟩
    let deaf := Circumstances.planned.handler (.refuse .unreachable)
    pass.trace kept start = pass.trace deaf ⟨sampleCluster, (noDeployments, 0), ()⟩ ∧
    ∃ told error, (pass.run kept start).2.sunk = told ++ [failureEvent error] ∧
      List.Forall₂ changes.TellsOf ((pass.trace kept start).filter changes.isDue) told ∧
        told.map (·.reason) = [.childCreated, .childCreated] := by
  intro pass kept start deaf
  obtain ⟨hidle, htell⟩ :=
    events_tell_and_idle .planned {} "push" "a" sampleCluster (noDeployments, 0)
  obtain ⟨told, htells, hsunk⟩ := htell stamped_sampleCluster.keyed (by decide) (by decide)
  refine ⟨(hidle _ _ .record (.refuse .unreachable) [] ()).1, told, ?_⟩
  have herror : (stepsError? {} "push" "a" kept start).isSome = true := by decide +kernel
  obtain ⟨error, herror⟩ := Option.isSome_iff_exists.1 herror
  have hreasons : ((pass.run kept start).2.sunk.map (·.reason)) =
      [.childCreated, .childCreated, .reconcileFailed] := by decide +kernel
  have hsunk' : (pass.run kept start).2.sunk = told ++ [failureEvent error] := by
    rw [hsunk, herror]
    rfl
  refine ⟨error, hsunk', htells, ?_⟩
  rw [hsunk', List.map_append] at hreasons
  exact (List.append_inj' hreasons rfl).1

end PushOperator
