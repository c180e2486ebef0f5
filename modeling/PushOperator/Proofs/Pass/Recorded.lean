import PushOperator.Proofs.Pass.Run

/-!
# What a pass records

What a pass that completes leaves in the status of its server: the children that it has seen, which
are the wanted ones, and whether all of them were ready when it began. All of that is collected in
`Publishes`.
-/

namespace PushOperator.Pass

open Child Cluster

variable {c c' : Cluster} {ns name : String} {server : Server} {st' : PassState}
  {settings : Settings}

/-- What a pass that completes leaves in the status of its server, and of all it has recorded there.
A server without a generation keeps the observed one. -/
structure Publishes (ns name : String) (server : Server) (c : Cluster) (live : Server)
    (c' : Cluster) : Prop where
  get? : c'.get? .unifiedPushServer ns name = some live
  status : ∃ observedGeneration,
    live.status = some {
      phase := if childrenReady c ns server then .reconciling else .initializing
      ready := childrenReady c ns server
      message := ""
      secondaryResources := (∅ : Registry).addAll (wanted server c.serves)
      observedGeneration } ∧
    ∀ generation, server.metadata.generation = some generation →
      observedGeneration = some generation
  noneFailed : NoneFailed c ns server
  present : ∀ child ∈ wanted server c.serves, ∃ o, c'.get? child.1 ns child.2 = some o
  recorded : ∀ k ns' name' o, c'.get? k ns' name' = some o →
    (∃ o', c.get? k ns' name' = some o') ∨ ns' = ns ∧ (k, name') ∈ wanted server c.serves

/-- Of a later version of a server, the same children are wanted and waited for. -/
theorem wanted_of_remains {later : Server} (h : server.Remains later) (serves : String → Bool) :
    wanted later serves = wanted server serves := by
  obtain ⟨⟩ := h
  rfl

theorem childrenReady_of_remains {later : Server} (h : server.Remains later) :
    childrenReady c ns later = childrenReady c ns server := by
  obtain ⟨⟩ := h
  rfl

theorem NoneFailed.of_remains {later : Server} (h : NoneFailed c ns later)
    (hremains : server.Remains later) : NoneFailed c ns server := by
  obtain ⟨⟩ := hremains
  exact ⟨h.own, h.database⟩

theorem NoneFailed.of_shelf (h : NoneFailed c' ns server)
    (hshelf : c'.shelf .deployment = c.shelf .deployment) : NoneFailed c ns server := by
  refine ⟨?_, fun hown => ?_⟩
  · rw [← get?_of_shelf hshelf]
    exact h.own
  · rw [← get?_of_shelf hshelf]
    exact h.database hown

theorem publishes_of_body {P : Entry → Prop} {action : Action}
    (h : Completes flaky P (body settings) { server, stored := server.status } c action st' c')
    (hc : c.Filed) (hserver : c.get? .unifiedPushServer ns name = some server) :
    Publishes ns name server c st'.server c' := by
  obtain ⟨st₁, c₁, st₂, c₂, hcontinues, hns, hconverge, hstores⟩ :=
    h.of_body (fun _ _ _ _ h => h) hc ⟨hserver, rfl⟩
  have hchildren : st₁.children = ∅ := hcontinues.children
  have hready : st₁.ready = true := hcontinues.ready
  obtain ⟨haccounts, hfailed, -⟩ :=
    completes_converge hconverge hcontinues.filed hns hchildren
  have hend := hstores haccounts.filed
  -- The first write of the status has changed nothing that the steps look at.
  have hshelf : ∀ k ∈ childKinds, c₁.shelf k = c.shelf k := fun k hk =>
    hcontinues.same.shelf k fun hmem => absurd hk (List.mem_singleton.1 hmem ▸ by decide)
  have hverdict : childrenReady c₁ ns st₁.server = childrenReady c ns server :=
    (childrenReady_of_shelf hshelf).trans (childrenReady_of_remains hcontinues.remains)
  have hwanted : wanted st₁.server c₁.serves = wanted server c.serves := by
    rw [hcontinues.same.serves]
    exact wanted_of_remains hcontinues.remains _
  rw [hverdict, hwanted] at haccounts
  refine ⟨hend.knows.get?, ?_, ?_, fun child hchild => ?_, fun k ns' name' o ho => ?_⟩
  · obtain ⟨observedGeneration, hstatus, hgeneration⟩ :=
      Server.status_succeed st₁.server st₂.ready st₂.children
    rw [hcontinues.remains.generation] at hgeneration
    refine ⟨observedGeneration, ?_, hgeneration⟩
    rw [hend.status, hstatus, haccounts.state]
    simp only [PassState.saw, hchildren, hready, Bool.true_and]
  · exact (hfailed.of_shelf (hshelf _ (by decide))).of_remains hcontinues.remains
  · rw [get?_of_shelf (hend.shelf (kind_of_wanted hchild))]
    exact haccounts.present child hchild
  · obtain ⟨o', ho'⟩ := hend.nothingNew k ns' name' o ho
    rcases haccounts.recorded k ns' name' o' ho' with ⟨o'', ho''⟩ | hmem
    · exact .inl (hcontinues.nothingNew k ns' name' o'' ho'')
    · exact .inr hmem

/-- What is published by a pass that comes to the thirty seconds. -/
theorem publishes_of_reconcile {t : Trace} (hc : c.Filed)
    (hrun : Run flaky (reconcile settings ns name).run c t (some (.ok (.requeue 30))) c') :
    ∃ server live, c.get? .unifiedPushServer ns name = some server ∧
      Publishes ns name server c live c' := by
  obtain ⟨-, server, st', hserver, hbody⟩ := completes_of_reconcile (fun _ _ _ _ h => h) hc hrun
  exact ⟨server, st'.server, hserver, publishes_of_body hbody hc hserver⟩

end PushOperator.Pass
