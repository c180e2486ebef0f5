import PushOperator.Proofs.Pass.Recorded

/-!
# Readiness

A pass that asks to be run again after thirty seconds says in the status whether its server is
ready. That is a matter of what stood in the cluster before the pass: the route and the deployments
have to have been there, and none of their conditions may have spoken against it. A child that the
pass has just created has not been seen, so it does not count yet.

Nothing of an earlier status is left, up to the generation that a server without one keeps. So a
status that was lost, or that is out of date, is made up for by a single pass.
-/

namespace PushOperator

open Child Cluster

variable {settings : Settings} {c c' c₂ : Cluster} {ns name : String} {server : Server}

/-! ## What has to be seen -/

/-- No router says of the route that it has not admitted it. -/
def Route.Unrefused (route : Route) : Prop :=
  ∀ status, route.status = some status → ∀ ingress ∈ status.ingress,
    ∀ condition ∈ ingress.conditions, condition.type = "Admitted" → condition.status = "True"

/-- The deployment does not say that it makes no progress. -/
def Deployment.Unstalled (deployment : Deployment) : Prop :=
  ∀ status, deployment.status = some status → ∀ conditions, status.conditions = some conditions →
    ∀ condition ∈ conditions, condition.type = "Progressing" → condition.status = "True"

/-- All that a server waits for is there, and nothing speaks against it. -/
structure ReadyIn (c : Cluster) (ns : String) (server : Server) : Prop where
  route : ∃ route, c.get? .route ns (childName server proxy) = some route ∧ Route.Unrefused route
  own : ∃ deployment, c.get? .deployment ns server.anyName = some deployment ∧
    Deployment.Unstalled deployment
  database : server.spec.externalDB = false →
    ∃ deployment, c.get? .deployment ns (childName server postgresql) = some deployment ∧
      Deployment.Unstalled deployment

theorem Route.isReady_iff {route : Option Route} :
    Route.isReady route = true ↔ ∃ live, route = some live ∧ Route.Unrefused live := by
  cases route with
  | none => simp [isReady]
  | some route =>
    obtain ⟨metadata, spec, status⟩ := route
    cases status with
    | none => simp [isReady, Unrefused]
    | some status =>
      simp only [isReady, Unrefused, Option.map_some, Option.getD_some, List.all_eq_true,
        List.mem_flatMap, Option.some.injEq, exists_eq_left', forall_eq', forall_exists_index,
        and_imp]
      constructor
      · intro h ingress hingress condition hcondition hadmitted
        simpa [hadmitted] using h condition ingress hingress hcondition
      · intro h condition ingress hingress hcondition
        by_cases hadmitted : condition.type = "Admitted"
        · simpa [hadmitted] using h ingress hingress condition hcondition hadmitted
        · simp [hadmitted]

/-- A deployment that has not failed is judged by all of its conditions. -/
theorem Deployment.eq_all_of_isReady {deployment : Deployment} {ready : Bool}
    (h : Deployment.isReady (some deployment) = .ok ready) :
    ready = ((deployment.status.bind (·.conditions)).getD []).all fun condition =>
      condition.type ≠ "Progressing" || condition.status == "True" := by
  unfold isReady at h
  dsimp only at h
  split at h
  · obtain ⟨name, -, herror⟩ := bind_eq_ok.1 h
    cases herror
  · exact (Except.ok.inj h).symm

/-- Unless it has failed, a deployment can be seen to be ready when it is there and not stalled. -/
theorem Deployment.seemsReady_iff {deployment : Option Deployment}
    (h : ∃ ready, Deployment.isReady deployment = .ok ready) :
    Deployment.seemsReady deployment = true ↔
      ∃ live, deployment = some live ∧ Deployment.Unstalled live := by
  obtain ⟨ready, hready⟩ := h
  rw [seemsReady, hready]
  cases deployment with
  | none =>
    obtain rfl := Except.ok.inj hready
    simp
  | some deployment =>
    rw [Deployment.eq_all_of_isReady hready]
    obtain ⟨metadata, spec, _ | ⟨_ | conditions, _⟩⟩ := deployment
    · simp [Unstalled]
    · simp [Unstalled]
    · simp [Unstalled, or_iff_not_imp_left]

namespace Pass

theorem childrenReady_iff (h : NoneFailed c ns server) :
    childrenReady c ns server = true ↔ ReadyIn c ns server := by
  unfold childrenReady databaseReady frontendReady
  rw [Bool.and_eq_true, Bool.and_eq_true, Bool.or_eq_true, Route.isReady_iff,
    Deployment.seemsReady_iff h.own]
  cases hexternal : server.spec.externalDB with
  | true =>
    constructor
    · rintro ⟨-, hroute, hown⟩
      exact ⟨hroute, hown, by simp [hexternal]⟩
    · rintro ⟨hroute, hown, -⟩
      exact ⟨.inl rfl, hroute, hown⟩
  | false =>
    rw [Deployment.seemsReady_iff (h.database hexternal)]
    constructor
    · rintro ⟨hdatabase, hroute, hown⟩
      exact ⟨hroute, hown, fun _ => hdatabase.resolve_left Bool.false_ne_true⟩
    · rintro ⟨hroute, hown, hdatabase⟩
      exact ⟨.inr (hdatabase hexternal), hroute, hown⟩

end Pass

/-! ## Clusters that differ in one status -/

/-- Two clusters hold the same, except that the status of one server may be another. -/
structure DifferInStatus (ns name : String) (c c₂ : Cluster) : Prop where
  own : ∃ server status, c.get? .unifiedPushServer ns name = some server ∧
    c₂.get? .unifiedPushServer ns name = some { server with status }
  others : ∀ k ns' name', (k, ns', name') ≠ (.unifiedPushServer, ns, name) →
    c₂.get? k ns' name' = c.get? k ns' name'
  missingApis : c₂.missingApis = c.missingApis

theorem DifferInStatus.get?_of_ne (h : DifferInStatus ns name c c₂) {k : Kind}
    (hk : k ≠ .unifiedPushServer) (ns' name' : String) : c₂.get? k ns' name' = c.get? k ns' name' :=
  h.others k ns' name' fun heq => hk (congrArg Prod.fst heq)

theorem DifferInStatus.filed (h : DifferInStatus ns name c c₂) (hc : c.Filed) : c₂.Filed := by
  intro k ns' name' o ho
  by_cases hplace : (k, ns', name') = (.unifiedPushServer, ns, name)
  · obtain ⟨rfl, hplace'⟩ := Prod.mk.inj hplace
    obtain ⟨rfl, rfl⟩ := Prod.mk.inj hplace'
    obtain ⟨server, status, hserver, hother⟩ := h.own
    obtain rfl := Option.some.inj (hother.symm.trans ho)
    have hplaced := hc _ _ _ _ hserver
    exact hplaced
  · rw [h.others k ns' name' hplace] at ho
    exact hc k ns' name' o ho

theorem DifferInStatus.serves (h : DifferInStatus ns name c c₂) : c₂.serves = c.serves := by
  unfold Cluster.serves
  rw [h.missingApis]

/-- What is waited for does not depend on a status. -/
theorem DifferInStatus.childrenReady (h : DifferInStatus ns name c c₂) (server : Server) :
    Pass.childrenReady c₂ ns server = Pass.childrenReady c ns server := by
  unfold Pass.childrenReady
  rw [Pass.databaseReady_congr (h.get?_of_ne (by decide) _ _),
    Pass.frontendReady_congr (h.get?_of_ne (by decide) _ _) (h.get?_of_ne (by decide) _ _)]

/-! ## What a pass says -/

/-- A status says of a pass that it has gone through, and whether its server is ready. -/
structure ServerStatus.Judges (status : ServerStatus) (ready : Prop) : Prop where
  ready : status.ready = true ↔ ready
  phase : status.phase = if status.ready then .reconciling else .initializing
  message : status.message = ""

/-- A pass that comes to the thirty seconds judges the server by what the cluster held when it
began. With a generation to observe, it comes to the same status whatever the status was. -/
theorem levelTriggered_of_reconcile {t : Trace} (hc : c.Filed)
    (hrun : Run flaky (reconcile settings ns name).run c t (some (.ok (.requeue 30))) c') :
    ∃ server live status, c.get? .unifiedPushServer ns name = some server ∧
      c'.get? .unifiedPushServer ns name = some live ∧ live.status = some status ∧
      status.Judges (ReadyIn c ns server) ∧
      ∀ generation, server.metadata.generation = some generation →
        ∀ c₂ t₂ c₂', DifferInStatus ns name c c₂ →
          Run flaky (reconcile settings ns name).run c₂ t₂ (some (.ok (.requeue 30))) c₂' →
          ∃ live₂, c₂'.get? .unifiedPushServer ns name = some live₂ ∧
            live₂.status = live.status := by
  obtain ⟨server, live, hserver, hpublishes⟩ := Pass.publishes_of_reconcile hc hrun
  obtain ⟨observed, hstatus, hobserved⟩ := hpublishes.status
  refine ⟨server, live, _, hserver, hpublishes.get?, hstatus,
    ⟨Pass.childrenReady_iff hpublishes.noneFailed, rfl, rfl⟩, ?_⟩
  intro generation hgeneration c₂ t₂ c₂' hdiffer hrun₂
  obtain ⟨server₂, live₂, hserver₂, hpublishes₂⟩ :=
    Pass.publishes_of_reconcile (hdiffer.filed hc) hrun₂
  obtain ⟨observed₂, hstatus₂, hobserved₂⟩ := hpublishes₂.status
  obtain ⟨server', status', hserver', hother⟩ := hdiffer.own
  obtain rfl : server = server' := Option.some.inj (hserver.symm.trans hserver')
  obtain rfl : { server with status := status' } = server₂ :=
    Option.some.inj (hother.symm.trans hserver₂)
  refine ⟨live₂, hpublishes₂.get?, ?_⟩
  rw [hstatus, hstatus₂, hobserved generation hgeneration, hobserved₂ generation hgeneration,
    hdiffer.childrenReady, hdiffer.serves]
  rfl

/-- A cluster in which another status is put in place of that of a server. -/
theorem differInStatus_put (h : c.get? .unifiedPushServer ns name = some server)
    (status : Option ServerStatus) :
    DifferInStatus ns name c (c.put ns name { server with status }) where
  own := by
    refine ⟨server, status, h, ?_⟩
    rw [get?_put, if_pos ⟨rfl, rfl⟩]
  others k ns' name' hne := by
    by_cases hk : Kind.unifiedPushServer = k
    · subst hk
      rw [get?_put, if_neg]
      rintro ⟨rfl, rfl⟩
      exact hne rfl
    · exact get?_put_of_ne _ _ _ _ _ _ hk
  missingApis := rfl

/-- What a pass that has failed may have left in the status. -/
def failedStatus : ServerStatus where
  phase := .failing
  message := "no such secret"
  secondaryResources := .ofList [("Secret", ["old"])]

def failedCluster : Cluster :=
  firstCluster.put "push" "a" { stampedServer with status := some failedStatus }

/-- The first pass over a new server and one that makes up for a failure. -/
theorem levelTriggered_of_reconcile_failedCluster : ∃ t c' t₂ c₂' server live live₂ status,
    Run flaky (reconcile {} "push" "a").run firstCluster t (some (.ok (.requeue 30))) c' ∧
      Run flaky (reconcile {} "push" "a").run failedCluster t₂ (some (.ok (.requeue 30))) c₂' ∧
      firstCluster.get? .unifiedPushServer "push" "a" = some server ∧
      c'.get? .unifiedPushServer "push" "a" = some live ∧
      c₂'.get? .unifiedPushServer "push" "a" = some live₂ ∧ live.status = some status ∧
      status.Judges (ReadyIn firstCluster "push" server) ∧ live₂.status = live.status := by
  have hfirst : (Rehearsal.run (reconcile {} "push" "a") { cluster := firstCluster }).1.toOption =
      some (.requeue 30) := by
    decide +kernel
  have hsecond : (Rehearsal.run (reconcile {} "push" "a") { cluster := failedCluster }).1.toOption =
      some (.requeue 30) := by
    decide +kernel
  obtain ⟨t, c', hrun⟩ := Rehearsal.exists_run_of_unplanned rfl rfl hfirst
  obtain ⟨t₂, c₂', hrun₂⟩ := Rehearsal.exists_run_of_unplanned rfl rfl hsecond
  have hrun' := hrun.mono flaky_of_reliable
  have hrun₂' := hrun₂.mono flaky_of_reliable
  obtain ⟨server, live, status, hserver, hlive, hstatus, hjudges, hagain⟩ :=
    levelTriggered_of_reconcile filed_firstCluster hrun'
  have hgeneration : server.metadata.generation = some 1 := by
    obtain rfl := Option.some.inj (get?_firstCluster.symm.trans hserver)
    rfl
  obtain ⟨live₂, hlive₂, hsame⟩ := hagain 1 hgeneration failedCluster t₂ c₂'
    (differInStatus_put get?_firstCluster (some failedStatus)) hrun₂'
  exact ⟨t, c', t₂, c₂', server, live, live₂, status, hrun', hrun₂', hserver, hlive, hlive₂,
    hstatus, hjudges, hsame⟩

end PushOperator
