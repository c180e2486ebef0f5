import PushOperator.Proofs.Child.Selector
import PushOperator.Proofs.Pass.Run

/-!
# One active server

A server that is Initializing or Reconciling has its namespace to itself. As long as passes run one
after the other, at most one server of a namespace is ever active, although the calls of a pass may
fail, a pass may be cut short anywhere, and users come in between. The reason is that a pass writes
the status of its own server only: either no other server was active when it looked, or it writes
nothing but that it has failed.
-/

namespace PushOperator

open Cluster

variable {settings : Settings} {c c' : Cluster} {ns name : String} {server : Server}

namespace Cluster

/-- The server of a name is active. -/
def ActiveAt (c : Cluster) (ns name : String) : Prop :=
  ∃ server, c.get? .unifiedPushServer ns name = some server ∧ (Server.phase server).isActive = true

/-- At most one server of a namespace is active. -/
def SingleActive (c : Cluster) (ns : String) : Prop :=
  ∀ a b, c.ActiveAt ns a → c.ActiveAt ns b → a = b

/-- No server of a namespace but the one of a name is active. -/
def OthersInactive (c : Cluster) (ns name : String) : Prop :=
  ∀ other, other ≠ name → ¬c.ActiveAt ns other

theorem activeAt_congr
    (h : c'.get? .unifiedPushServer ns name = c.get? .unifiedPushServer ns name) :
    c'.ActiveAt ns name ↔ c.ActiveAt ns name := by
  unfold ActiveAt
  rw [h]

theorem OwnOnly.get? {allowed : Phase → Prop} (h : OwnOnly ns name allowed c c') {name' : String}
    (hne : name' ≠ name) :
    c'.get? .unifiedPushServer ns name' = c.get? .unifiedPushServer ns name' :=
  h.others ns name' fun heq => hne (Prod.mk.inj heq).2

/-- What another server is does not depend on the pass. -/
theorem OwnOnly.activeAt_iff {allowed : Phase → Prop} (h : OwnOnly ns name allowed c c')
    {ns' name' : String} (hne : (ns', name') ≠ (ns, name)) :
    c'.ActiveAt ns' name' ↔ c.ActiveAt ns' name' :=
  activeAt_congr (h.others ns' name' hne)

/-- A pass may make its server active when no other one is. -/
theorem OwnOnly.singleActive {allowed : Phase → Prop} (h : OwnOnly ns name allowed c c')
    {ns' : String} (hothers : ns' = ns → c.OthersInactive ns name) (hsingle : c.SingleActive ns') :
    c'.SingleActive ns' := by
  intro a b ha hb
  by_cases hns : ns' = ns
  · subst hns
    have honly (x : String) (hx : c'.ActiveAt ns' x) : x = name := by
      by_contra hne
      have hplace : (ns', x) ≠ (ns', name) := fun heq => hne (Prod.mk.inj heq).2
      exact hothers rfl x hne ((h.activeAt_iff hplace).1 hx)
    rw [honly a ha, honly b hb]
  · have hplace (x : String) : (ns', x) ≠ (ns, name) := fun heq => hns (Prod.mk.inj heq).1
    exact hsingle a b ((h.activeAt_iff (hplace a)).1 ha) ((h.activeAt_iff (hplace b)).1 hb)

/-- A pass that does nothing but fail makes no server active. -/
theorem OwnOnly.activeAt_of_failing (h : OwnOnly ns name (· = .failing) c c') {ns' name' : String}
    (hactive : c'.ActiveAt ns' name') : c.ActiveAt ns' name' := by
  by_cases hplace : (ns', name') = (ns, name)
  · obtain ⟨rfl, rfl⟩ := Prod.mk.inj hplace
    rcases h.own with hsame | ⟨failed, hfailed, hphase⟩
    · exact (activeAt_congr hsame).1 hactive
    · obtain ⟨server, hserver, hphase'⟩ := hactive
      obtain rfl := Option.some.inj (hserver.symm.trans hfailed)
      rw [hphase] at hphase'
      cases hphase'
  · exact (h.activeAt_iff hplace).1 hactive

theorem OwnOnly.singleActive_of_failing (h : OwnOnly ns name (· = .failing) c c') {ns' : String}
    (hsingle : c.SingleActive ns') : c'.SingleActive ns' :=
  fun a b ha hb => hsingle a b (h.activeAt_of_failing ha) (h.activeAt_of_failing hb)

end Cluster

namespace Pass

/-! ## How a pass defers -/

/-- What a pass does over a server when it does not defer, with its end. -/
def proceedRun (settings : Settings) (server : Server) : Interaction Action :=
  ((proceed settings).exec { server, stored := server.status }).bind finish

theorem run_eq_defer (settings : Settings) (server : Server) : run settings server =
    (deferToActive.exec { server, stored := server.status }).bind fun
      | (.ok _, st) => ((proceed settings).exec st).bind finish
      | (.error halt, st) => finish (.error halt, st) := by
  rw [run_eq, body_eq, exec_bind, Interaction.bind_assoc]
  refine congrArg (Interaction.bind _) (funext fun p => ?_)
  rcases p with ⟨(_ | _) | _, _⟩ <;> rfl

/-- A pass over an active server does not defer. -/
theorem run_of_active (h : (Server.phase server).isActive = true) :
    run settings server = proceedRun settings server := by
  have hdefer : deferToActive.exec { server, stored := server.status } =
      .done (.ok (), { server, stored := server.status }) := by
    show ((if (Server.phase server).isActive then pure () else _ : Pass Unit)).exec _ = _
    rw [if_pos h]
    rfl
  rw [run_eq_defer, hdefer]
  rfl

/-- A pass over another server looks at the servers of the namespace first. -/
theorem run_of_inactive (h : (Server.phase server).isActive = false)
    (hns : server.metadata.ns = some ns) :
    run settings server = .call (.list .unifiedPushServer ns "") fun
      | .error error => conclude error { server, stored := server.status }
      | .ok others =>
        if others.any (isOtherActive server) then .done .awaitChange
        else proceedRun settings server := by
  have hdefer : deferToActive.exec { server, stored := server.status } =
      .call (.list .unifiedPushServer ns "") fun
        | .error error => .done (.error (.failed error), { server, stored := server.status })
        | .ok others =>
          if others.any (isOtherActive server) then
            .done (.error (.early .awaitChange), { server, stored := server.status })
          else .done (.ok (), { server, stored := server.status }) := by
    show ((if (Server.phase server).isActive then pure () else _ : Pass Unit)).exec _ = _
    rw [if_neg (by simp [h]), ObjectMeta.requireNs_eq_ok.2 hns]
    refine congrArg (Interaction.call _) (funext fun answer => ?_)
    cases answer with
    | error error => rfl
    | ok others =>
      show ((if others.any (isOtherActive server) then stop .awaitChange else pure () :
        Pass Unit)).exec _ = _
      dsimp only
      split <;> rfl
  rw [run_eq_defer, hdefer]
  refine congrArg (Interaction.call _) (funext fun answer => ?_)
  cases answer with
  | error error => rfl
  | ok others =>
    dsimp only
    split <;> rfl

/-- Without a namespace there is nothing to look at, and the pass fails. -/
theorem run_of_unnamespaced (h : (Server.phase server).isActive = false)
    (hns : server.metadata.ns = none) :
    ∃ error, run settings server = conclude error { server, stored := server.status } := by
  have hrequire : ∃ error, server.metadata.requireNs = .error error := by
    unfold ObjectMeta.requireNs
    rw [hns]
    exact ⟨_, rfl⟩
  obtain ⟨error, hrequire⟩ := hrequire
  refine ⟨error, ?_⟩
  have hdefer : deferToActive.exec { server, stored := server.status } =
      .done (.error (.failed error), { server, stored := server.status }) := by
    show ((if (Server.phase server).isActive then pure () else _ : Pass Unit)).exec _ = _
    rw [if_neg (by simp [h]), hrequire]
    rfl
  rw [run_eq_defer, hdefer]
  rfl

/-- The pass asks for all servers of the namespace. -/
theorem mem_list_servers {others : List Server}
    (h : others = (c.objects .unifiedPushServer ns).values.filter fun o =>
      selects "" o.metadata.labelsOrEmpty) {other : Server} :
    other ∈ others ↔ ∃ name, c.get? .unifiedPushServer ns name = some other := by
  rw [h, ← mem_values_objects, List.mem_filter]
  simp [Child.selects_empty]

/-- A pass defers exactly when there is another active server. -/
theorem any_isOtherActive (hc : c.FiledOf .unifiedPushServer)
    (hserver : c.get? .unifiedPushServer ns name = some server) {others : List Server}
    (hlist : others = (c.objects .unifiedPushServer ns).values.filter fun o =>
      selects "" o.metadata.labelsOrEmpty) :
    others.any (isOtherActive server) = true ↔ ∃ other, other ≠ name ∧ c.ActiveAt ns other := by
  have hname : server.anyName = name := hc.anyName hserver
  rw [List.any_eq_true]
  constructor
  · rintro ⟨other, hmem, hactive⟩
    obtain ⟨name', hother⟩ := (mem_list_servers hlist).1 hmem
    have hname' : other.anyName = name' := hc.anyName hother
    unfold isOtherActive at hactive
    rw [hname, hname', Bool.and_eq_true, decide_eq_true_eq] at hactive
    exact ⟨name', hactive.1, other, hother, hactive.2⟩
  · rintro ⟨name', hne, other, hother, hactive⟩
    have hname' : other.anyName = name' := hc.anyName hother
    refine ⟨other, (mem_list_servers hlist).2 ⟨name', hother⟩, ?_⟩
    unfold isOtherActive
    rw [hname, hname', hactive, Bool.and_true, decide_eq_true_eq]
    exact hne

/-! ## What a pass does to the servers -/

theorem obeys_proceedRun (hns : nsOf server = ns) (hname : nameOf server = name) :
    (proceedRun settings server).Obeys (ownStatus ns name fun _ => True) fun _ => True :=
  obeys_proceed.finish hns hname

/-- A pass leaves its namespace with at most one active server. -/
theorem singleActive_of_run (hc : c.FiledOf .unifiedPushServer)
    (hserver : c.get? .unifiedPushServer ns name = some server) {ns' : String}
    (hsingle : c.SingleActive ns') {t : Trace} {o : Option Action}
    (hrun : Run flaky (run settings server) c t o c') :
    c'.FiledOf .unifiedPushServer ∧ c'.SingleActive ns' := by
  have hns : nsOf server = ns := (hc _ _ _ hserver).1
  have hname : nameOf server = name := hc.nameOf hserver
  -- What follows the look at the other servers, when there is none in the way.
  have hproceed (hothers : ns' = ns → c.OthersInactive ns name) {t : Trace}
      (hrun : Run flaky (proceedRun settings server) c t o c') :
      c'.FiledOf .unifiedPushServer ∧ c'.SingleActive ns' := by
    obtain ⟨hown, -, -⟩ :=
      (obeys_proceedRun hns hname).run (honors_ownStatus c) (OwnOnly.refl hc) hrun
    exact ⟨hown.filed, hown.singleActive hothers hsingle⟩
  cases hactive : (Server.phase server).isActive with
  | true =>
    -- The pass does not look, but as its own server is active no other one is.
    rw [run_of_active hactive] at hrun
    refine hproceed ?_ hrun
    rintro rfl other hne hother
    exact hne (hsingle other name hother ⟨server, hserver, hactive⟩)
  | false =>
    -- A pass that fails before it has looked writes that and nothing else.
    have hfails {error : Error} {t : Trace}
        (hrun : Run flaky (conclude error { server, stored := server.status }) c t o c') :
        c'.FiledOf .unifiedPushServer ∧ c'.SingleActive ns' := by
      have hobeys : (conclude error { server, stored := server.status }).Obeys _ _ :=
        obeys_conclude hns hname
      obtain ⟨hown, -, -⟩ := hobeys.run (honors_ownStatus c) (OwnOnly.refl hc) hrun
      exact ⟨hown.filed, hown.singleActive_of_failing hsingle⟩
    cases hmeta : server.metadata.ns with
    | none =>
      obtain ⟨error, heq⟩ := run_of_unnamespaced hactive hmeta
      rw [heq] at hrun
      exact hfails hrun
    | some ns'' =>
      obtain rfl : ns'' = ns := by rw [← hns, nsOf, hmeta, Option.getD_some]
      rw [run_of_inactive hactive hmeta] at hrun
      rcases hrun.call_cases with ⟨-, rfl⟩ | ⟨answer, c₁, t', hanswer, hrest, -⟩
      · exact ⟨hc, hsingle⟩
      obtain rfl := flaky_read rfl hanswer
      cases answer with
      | error error => exact hfails hrest
      | ok others =>
        obtain ⟨hlist, -⟩ := answer_list.1 (flaky_ok_iff.1 hanswer)
        dsimp only at hrest
        split at hrest
        · obtain ⟨-, rfl⟩ := hrest.of_done
          exact ⟨hc, hsingle⟩
        · next hnone =>
          refine hproceed (fun _ other hne hother => ?_) hrest
          exact hnone ((any_isOtherActive hc hserver hlist).2 ⟨other, hne, hother⟩)

/-- A pass that defers does nothing but look. -/
theorem run_of_otherActive (hc : c.FiledOf .unifiedPushServer)
    (hserver : c.get? .unifiedPushServer ns name = some server)
    (hinactive : (Server.phase server).isActive = false) (hns : ns ≠ "")
    (hother : ∃ other, other ≠ name ∧ c.ActiveAt ns other) {t : Trace} {o : Option Action}
    (hlist : ∀ error, .call (.list .unifiedPushServer ns "") (.error error) ∉ t)
    (hrun : Run flaky (run settings server) c t o c') : c' = c ∧ ∀ e ∈ t, e.IsRead := by
  have hmeta := hc.ns_eq hserver hns
  rw [run_of_inactive hinactive hmeta] at hrun
  rcases hrun.call_cases with ⟨rfl, rfl⟩ | ⟨answer, c₁, t', hanswer, hrest, rfl⟩
  · simp
  obtain rfl := flaky_read rfl hanswer
  cases answer with
  | error error => exact absurd List.mem_cons_self (hlist error)
  | ok others =>
    obtain ⟨hothers, -⟩ := answer_list.1 (flaky_ok_iff.1 hanswer)
    dsimp only at hrest
    rw [if_pos ((any_isOtherActive hc hserver hothers).2 hother)] at hrest
    obtain ⟨rfl, rfl⟩ := hrest.of_done
    refine ⟨rfl, fun e he => ?_⟩
    obtain rfl := List.mem_singleton.1 he
    rfl

end Pass

/-! ## Passes and users in turn -/

/-- What users do between two passes: of the servers they take some away, change the specs of some
and add new ones, without a status. What they do to other objects does not matter. -/
structure UserMove (c c' : Cluster) : Prop where
  filed : c'.FiledOf .unifiedPushServer
  servers : ∀ ns name (after : Server), c'.get? .unifiedPushServer ns name = some after →
    after.status = none ∨ ∃ before : Server,
      c.get? .unifiedPushServer ns name = some before ∧ after.status = before.status

/-- What comes of a cluster while passes run one after the other, each of them to its end or cut
short anywhere, and users come in between. -/
inductive History (settings : Settings) (c : Cluster) : Cluster → Prop
  | refl : History settings c c
  | pass {c' c'' : Cluster} {t : Trace} {o : Option (Except Error Action)} (ns name : String)
      (before : History settings c c')
      (run : Run flaky (reconcile settings ns name).run c' t o c'') : History settings c c''
  | users {c' c'' : Cluster} (before : History settings c c') (move : UserMove c' c'') :
      History settings c c''

/-- Users make no server active. -/
theorem UserMove.activeAt (h : UserMove c c') (hactive : c'.ActiveAt ns name) :
    c.ActiveAt ns name := by
  obtain ⟨after, hafter, hphase⟩ := hactive
  rcases h.servers ns name after hafter with hnone | ⟨before, hbefore, hstatus⟩
  · rw [Server.phase, hnone] at hphase
    cases hphase
  · refine ⟨before, hbefore, ?_⟩
    rwa [Server.phase, hstatus] at hphase

/-- A pass for the server of a name is a pass over that server, if it comes to that. -/
theorem run_reconcile_cases {t : Trace} {o : Option (Except Error Action)}
    (hrun : Run flaky (reconcile settings ns name).run c t o c') :
    (c' = c ∧ ∀ e ∈ t, e.IsRead) ∨
      ∃ server t' o', c.get? .unifiedPushServer ns name = some server ∧
        Run flaky (Pass.run settings server) c t' o' c' ∧
          t = .call (.get .unifiedPushServer ns name) (.ok (some server)) :: t' := by
  cases hwatched : settings.watches ns with
  | false =>
    rw [run_reconcile_of_unwatched hwatched] at hrun
    obtain ⟨rfl, rfl⟩ := hrun.of_done
    simp
  | true =>
    rw [run_reconcile hwatched] at hrun
    rcases hrun.call_cases with ⟨rfl, rfl⟩ | ⟨answer, c₁, t', hanswer, hrest, rfl⟩
    · simp
    obtain rfl := flaky_read rfl hanswer
    have hread : Entry.IsRead (.call (.get .unifiedPushServer ns name) answer) := rfl
    rcases answer with error | _ | server
    · obtain ⟨rfl, rfl⟩ := hrest.of_done
      exact .inl ⟨rfl, by simpa using hread⟩
    · obtain ⟨rfl, rfl⟩ := hrest.of_done
      exact .inl ⟨rfl, by simpa using hread⟩
    · obtain ⟨hserver, -⟩ := answer_get.1 (flaky_ok_iff.1 hanswer)
      obtain ⟨o', hpass⟩ := Run.of_bind_done hrest
      exact .inr ⟨server, t', o', hserver.symm, hpass, rfl⟩

/-- The invariant of a history. -/
theorem History.singleActive (h : History settings c c') (hc : c.FiledOf .unifiedPushServer)
    (hsingle : c.SingleActive ns) : c'.FiledOf .unifiedPushServer ∧ c'.SingleActive ns := by
  induction h with
  | refl => exact ⟨hc, hsingle⟩
  | pass ns' name _ hrun ih =>
    obtain ⟨hc', hsingle'⟩ := ih
    rcases run_reconcile_cases hrun with ⟨rfl, -⟩ | ⟨server, t', o', hserver, hpass, -⟩
    · exact ⟨hc', hsingle'⟩
    · exact Pass.singleActive_of_run hc' hserver hsingle' hpass
  | users _ hmove ih =>
    obtain ⟨-, hsingle'⟩ := ih
    refine ⟨hmove.filed, fun a b ha hb => ?_⟩
    exact hsingle' a b (hmove.activeAt ha) (hmove.activeAt hb)

/-- At most one server of a namespace is active at any point, and a pass over a server that is not
active while another one is only looks. -/
theorem singleActive_of_history (hc : c.FiledOf .unifiedPushServer) (hsingle : c.SingleActive ns)
    (h : History settings c c') :
    c'.SingleActive ns ∧
      ∀ name server, c'.get? .unifiedPushServer ns name = some server → ns ≠ "" →
        (Server.phase server).isActive = false → (∃ other, other ≠ name ∧ c'.ActiveAt ns other) →
          ∀ t o c'', Run flaky (reconcile settings ns name).run c' t o c'' →
            (∀ error, .call (.list .unifiedPushServer ns "") (.error error) ∉ t) →
              c'' = c' ∧ ∀ e ∈ t, e.IsRead := by
  obtain ⟨hc', hsingle'⟩ := h.singleActive hc hsingle
  refine ⟨hsingle', fun name server hserver hns hinactive hother t o c'' hrun hlist => ?_⟩
  rcases run_reconcile_cases hrun with hread | ⟨server', t', o', hserver', hpass, rfl⟩
  · exact hread
  · obtain rfl : server = server' := Option.some.inj (hserver.symm.trans hserver')
    obtain ⟨rfl, ht'⟩ := Pass.run_of_otherActive hc' hserver hinactive hns hother
      (fun error hmem => hlist error (List.mem_cons_of_mem _ hmem)) hpass
    exact ⟨rfl, List.forall_mem_cons.2 ⟨rfl, ht'⟩⟩

/-! ## A history to try -/

theorem not_activeAt_sampleCluster (name : String) : ¬sampleCluster.ActiveAt "push" name := by
  rintro ⟨server, hserver, hactive⟩
  rw [Server.phase, status_sampleCluster hserver] at hactive
  cases hactive

theorem singleActive_sampleCluster : sampleCluster.SingleActive "push" :=
  fun name _ hactive => absurd hactive (not_activeAt_sampleCluster name)

/-- What the pass over one of two new servers leaves. -/
def activatedCluster : Cluster :=
  ((reconcile {} "push" "a").run.run (drawing (fun _ => false) "secret") sampleCluster).2

/-- The other server with a message broker. -/
def editedServer : Server := { sampleServer "b" with spec := { useMessageBroker := true } }

/-- After the pass a user edits the other server. -/
def occupiedCluster : Cluster := (activatedCluster.store "push" "b" editedServer).2

theorem history_activatedCluster : History {} sampleCluster activatedCluster :=
  .pass "push" "a" .refl (run_drawing (flaky_drawing fun _ => false) "secret" _ _)

theorem userMove_occupiedCluster : UserMove activatedCluster occupiedCluster := by
  obtain ⟨hfiled, -⟩ :=
    history_activatedCluster.singleActive (filed_sampleCluster _) singleActive_sampleCluster
  constructor
  · exact hfiled.store rfl rfl
  · intro ns name after hafter
    unfold occupiedCluster at hafter
    rw [get?_store] at hafter
    split at hafter
    · obtain rfl := Option.some.inj hafter
      exact .inl rfl
    · exact .inr ⟨after, hafter, rfl⟩

theorem activeAt_occupiedCluster : occupiedCluster.ActiveAt "push" "a" := by
  have hphase : (occupiedCluster.get? .unifiedPushServer "push" "a").any
      (fun server => (Server.phase server).isActive) = true := by
    decide +kernel
  exact (Option.any_eq_true _ _).1 hphase

/-- After the pass and what the user has done the first server is the only active one, and a pass
over the other one leaves everything as it is. -/
theorem singleActive_of_history_occupiedCluster : History {} sampleCluster occupiedCluster ∧
    occupiedCluster.ActiveAt "push" "a" ∧ occupiedCluster.SingleActive "push" ∧
      ∃ t, Run flaky (reconcile {} "push" "b").run occupiedCluster t (some (.ok .awaitChange))
        occupiedCluster ∧ ∀ e ∈ t, e.IsRead := by
  have hhistory : History {} sampleCluster occupiedCluster :=
    .users history_activatedCluster userMove_occupiedCluster
  obtain ⟨hsingle, hdefers⟩ :=
    singleActive_of_history (filed_sampleCluster _) singleActive_sampleCluster hhistory
  have hresult :
      (Rehearsal.run (reconcile {} "push" "b") { cluster := occupiedCluster }).1.toOption =
        some .awaitChange := by
    decide +kernel
  obtain ⟨t, c', hrun⟩ := Rehearsal.exists_run_of_unplanned rfl rfl hresult
  have hrun' := hrun.mono flaky_of_reliable
  have hedited := get?_store_self activatedCluster "push" "b" editedServer
  obtain ⟨rfl, ht⟩ := hdefers "b" _ hedited (by decide) rfl
    ⟨"a", by decide, activeAt_occupiedCluster⟩ t _ c' hrun' (not_refused_of_reliable hrun rfl)
  exact ⟨hhistory, activeAt_occupiedCluster, hsingle, t, hrun', ht⟩

end PushOperator
