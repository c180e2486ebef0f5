import PushOperator.Proofs.Pass.Outcome

/-!
# Failing stops a pass

Calls may be refused at any point of a pass, children can not always be built, and deployments fail.
Whichever it is, the pass does not go on: it reports the failure once, tries to say so in the status
of its server, and asks to be run again after five seconds (`failStop_of_reconcile`). Only what it
has not been able to begin ends in an error.
-/

namespace PushOperator

open Cluster Interaction

variable {settings : Settings} {refusal : Error → Prop} {ns name : String} {server live : Server}
  {error : Error} {c c' : Cluster} {st : PassState} {t : Trace}

/-- The status says that a pass has failed, and why. -/
def Server.Reports (error : Error) (server : Server) : Prop :=
  ∃ status, server.status = some status ∧ status.phase = .failing ∧ status.ready = false ∧
    status.message = error.message

/-- The one report of a failure. -/
def Error.report (error : Error) : Event where
  reason := .reconcileFailed
  message := error.message

/-- What comes after a failure: one report and at most one call. Unless that call is refused, which
leaves the cluster as it is, the stored status says that the pass has failed. -/
inductive Aftermath (ns name : String) (error : Error) (c : Cluster) : Trace → Cluster → Prop
  | known {server live : Server} (hget : c.get? .unifiedPushServer ns name = some live)
    (hreports : live.Reports error) :
    Aftermath ns name error c [.event server error.report] c
  | written {server failed updated live : Server} {c' : Cluster}
    (hplace : nsOf failed = ns ∧ nameOf failed = name)
    (hanswer : c.answer (.updateStatus .unifiedPushServer failed) = (.ok updated, c'))
    (hget : c'.get? .unifiedPushServer ns name = some live) (hreports : live.Reports error) :
    Aftermath ns name error c [.event server error.report,
      .call (.updateStatus .unifiedPushServer failed) (.ok updated)] c'
  | refused {server failed : Server} (refused : Error)
    (hplace : nsOf failed = ns ∧ nameOf failed = name) :
    Aftermath ns name error c [.event server error.report,
      .call (.updateStatus .unifiedPushServer failed) (.error refused)] c

/-- How a pass may end when calls are refused. It begins by fetching its server. Its steps may all
go through, or halt, as long as no answer stands in their way. After one that does they draw secrets
at most, and what comes then is the aftermath of that failure. -/
inductive FailStop (settings : Settings) (refusal : Error → Prop) (ns name : String) (c : Cluster) :
    Trace → Except Error Action → Cluster → Prop
  | unwatched (hwatched : settings.watches ns = false) :
    FailStop settings refusal ns name c [] (.ok .awaitChange) c
  | unread (error : Error) :
    FailStop settings refusal ns name c [.call (.get .unifiedPushServer ns name) (.error error)]
      (.error error) c
  | gone (hget : c.get? .unifiedPushServer ns name = none) :
    FailStop settings refusal ns name c [.call (.get .unifiedPushServer ns name) (.ok none)]
      (.ok .awaitChange) c
  | through {server : Server} {st : PassState} {t : Trace} {action : Action} {c' : Cluster}
    {r : Except Halt Action} (hget : c.get? .unifiedPushServer ns name = some server)
    (hbody : Run (refusing refusal) ((Pass.body settings).exec { server, stored := server.status })
      c t (some (r, st)) c')
    (hr : r = .ok action ∨ r = .error (.early action))
    (hclear : ∀ e ∈ t, e.IsCalm ∧ ∀ error, ¬e.Flawed (Pass.flaw settings server) error) :
    FailStop settings refusal ns name c
      (.call (.get .unifiedPushServer ns name) (.ok (some server)) :: t) (.ok action) c'
  | failed {server : Server} {st : PassState} {t t' : Trace} {error : Error} {c₁ c' : Cluster}
    (hget : c.get? .unifiedPushServer ns name = some server)
    (hbody : Run (refusing refusal) ((Pass.body settings).exec { server, stored := server.status })
      c t (some (.error (.failed error), st)) c₁)
    (hheeded : Heeded (Pass.flaw settings server) (· = error) t)
    (hafter : Aftermath ns name error c₁ t' c') :
    FailStop settings refusal ns name c
      (.call (.get .unifiedPushServer ns name) (.ok (some server)) :: (t ++ t'))
      (.ok (.requeue 5)) c'

/-- The status of a failure says so. -/
theorem Server.reports_fail (server : Server) (error : Error) :
    (server.fail error).observe.Reports error := by
  refine ⟨_, rfl, ?_⟩
  unfold observeStatus
  split
  · exact ⟨rfl, rfl, rfl⟩
  · exact ⟨rfl, rfl, rfl⟩

/-- The end of a pass that has failed. -/
theorem aftermath_of_conclude {action : Action} (htracks : Pass.Tracks ns name c live st)
    (h : Run (refusing refusal) (Pass.conclude error st) c t (some action) c') :
    action = .requeue 5 ∧ Aftermath ns name error c t c' := by
  have hfailed : Pass.Tracks ns name c live { st with server := Server.fail st.server error } :=
    htracks.withStatus rfl rfl
  obtain ⟨t', hrest, rfl⟩ := run_emit_some.1 h
  obtain ⟨⟨r, st'⟩, c₁, t₁, t₂, hpersist, hend, rfl⟩ := run_bind_iff.1 hrest
  obtain ⟨rfl, rfl, rfl⟩ := run_done_some.1 hend
  have hreports := Server.reports_fail st.server error
  have hplace : nsOf (Server.fail st.server error).observe = ns ∧
      nameOf (Server.fail st.server error).observe = name :=
    ⟨hfailed.nsOf_eq, hfailed.nameOf_eq⟩
  refine ⟨rfl, ?_⟩
  rw [List.append_nil]
  obtain ⟨hsame⟩ | ⟨updated, -, hanswer, -⟩ | ⟨refused⟩ := Pass.run_persist hfailed hpersist
  · exact .known htracks.get? (hsame ▸ hreports)
  · exact .written hplace hanswer (get?_store_self c ns name _) hreports
  · exact .refused refused hplace

/-- A pass whose calls may be refused does not go on after a failure, and it says so once. -/
theorem failStop_of_reconcile {result : Except Error Action} (hc : c.FiledOf .unifiedPushServer)
    (h : Run (refusing refusal) (reconcile settings ns name).run c t (some result) c') :
    FailStop settings refusal ns name c t result c' := by
  cases hwatched : settings.watches ns with
  | false =>
    rw [run_reconcile_of_unwatched hwatched] at h
    obtain ⟨rfl, rfl, rfl⟩ := run_done_some.1 h
    exact .unwatched hwatched
  | true =>
    rw [run_reconcile hwatched] at h
    obtain ⟨answer, c₁, t', hget, hrest, rfl⟩ := run_call_some.1 h
    rcases answer with error | _ | server
    · obtain ⟨rfl, rfl, rfl⟩ := run_done_some.1 hrest
      obtain ⟨rfl, -⟩ := refusing_error hget
      exact .unread error
    · obtain ⟨rfl, rfl, rfl⟩ := run_done_some.1 hrest
      obtain ⟨hnone, rfl⟩ := answer_get.1 (refusing_ok hget)
      exact .gone hnone.symm
    · obtain ⟨hsome, rfl⟩ := answer_get.1 (refusing_ok hget)
      obtain ⟨action, c₂, t₂, t₃, hpass, hdone, rfl⟩ := run_bind_iff.1 hrest
      obtain ⟨rfl, rfl, rfl⟩ := run_done_some.1 hdone
      rw [Pass.run_eq] at hpass
      obtain ⟨⟨r, st⟩, c₃, t₄, t₅, hbody, hend, rfl⟩ := run_bind_iff.1 hpass
      have htracks : Pass.Tracks ns name c₁ server { server, stored := server.status } :=
        ⟨hc, hsome.symm, rfl, rfl⟩
      have hends : Pass.Ends settings ns name server t₄ r st c₃ :=
        Pass.ends_body htracks Registry.distinct_empty hbody
      rw [List.append_nil]
      -- The body has failed, or no answer has stood in its way.
      have hclear (hr : ∀ error, r ≠ .error (.failed error)) :
          ∀ e ∈ t₄, e.IsCalm ∧ ∀ error, ¬e.Flawed (Pass.flaw settings server) error :=
        fun _ he => hends.heeded.clear hr he
      rcases r with (error | early) | done
      · obtain ⟨live, hlive, -⟩ := hends.tracks
        obtain ⟨rfl, hafter⟩ := aftermath_of_conclude hlive hend
        refine .failed hsome.symm hbody (hends.heeded.mono ?_) hafter
        intro error' heq
        exact (Halt.failed.inj (Except.error.inj heq)).symm
      · obtain ⟨rfl, rfl, rfl⟩ := run_done_some.1 hend
        rw [List.append_nil]
        exact .through hsome.symm hbody (.inr rfl) (hclear (by simp))
      · obtain ⟨rfl, rfl, rfl⟩ := run_done_some.1 hend
        rw [List.append_nil]
        exact .through hsome.symm hbody (.inl rfl) (hclear (by simp))

/-- The rehearsal of a pass that may not look at the other servers of its namespace. -/
def deniedRehearsal : Rehearsal where
  cluster := sampleCluster
  faults := [{
    pattern := { verb := "List", kind := "UnifiedPushServer", name := none }
    after := 0
    times := none
    error := { message := "no access", reason := "Forbidden", code := 403 } }]

theorem failStop_of_reconcile_deniedRehearsal : ∃ t c',
    Run (refusing fun error => ∃ e, error = .api e) (reconcile {} "push" "a").run
      deniedRehearsal.cluster t (some (.ok (.requeue 5))) c' ∧
    FailStop {} (fun error => ∃ e, error = .api e) "push" "a" deniedRehearsal.cluster t
      (.ok (.requeue 5)) c' := by
  have hresult :
      (deniedRehearsal.run (reconcile {} "push" "a")).1.toOption = some (.requeue 5) := by
    decide +kernel
  obtain ⟨t, c', hrun⟩ := Rehearsal.exists_run_of_unhooked rfl hresult
  exact ⟨t, c', hrun, failStop_of_reconcile (filed_sampleCluster _) hrun⟩

end PushOperator
