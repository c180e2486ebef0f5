import PushOperator.Proofs.Convergence

/-!
# Quiescence

After a pass that asks to be run again after thirty seconds, and as long as nothing but the passes
changes the cluster, the next pass only looks at the children. All that it may still write is the
status of the server, because children that it made itself were not ready then, and the pass after
that writes nothing at all.
-/

namespace PushOperator

open Child Cluster

variable {settings : Settings} {c c' : Cluster} {ns name : String} {server live : Server}

namespace Pass

/-- A cluster in which a pass finds nothing to do for the children of its server. -/
structure Calm (settings : Settings) (ns name : String) (live : Server) (c : Cluster) : Prop where
  get? : c.get? .unifiedPushServer ns name = some live
  active : (Server.phase live).isActive = true
  filed : c.Filed
  namespaced : live.metadata.ns = some ns
  identified : live.metadata.uid ≠ none
  settled : Settled settings c ns live
  legacy : LegacySettled c ns live

/-! ## A pass over a calm cluster -/

/-- The server with the status that a pass comes to which finds nothing to do. -/
def verdict (c : Cluster) (ns : String) (live : Server) : Server :=
  Server.succeed live (childrenReady c ns live) (Registry.addAll ∅ (wanted live c.serves))

/-- The server as it is stored with this status. -/
def judged (c : Cluster) (ns : String) (live : Server) : Server :=
  stamped (c.revision + 1) { live with status := (verdict c ns live).observe.status }

/-- The cluster in which it is stored. -/
def judgedCluster (c : Cluster) (ns name : String) (live : Server) : Cluster :=
  (c.store ns name { live with status := (verdict c ns live).observe.status }).2

theorem Calm.place (h : Calm settings ns name live c) :
    nsOf (verdict c ns live).observe = ns ∧ nameOf (verdict c ns live).observe = name := by
  show nsOf live = ns ∧ nameOf live = name
  exact ⟨(h.filed _ _ _ _ h.get?).1, h.filed.nameOf h.get?⟩

theorem exec_succeed (st : PassState) : succeed.exec st =
    (Task.persist (Server.succeed st.server st.ready st.children) st.stored).run.bind fun
      | .ok server => .done (.ok (), { st with server, stored := server.status, children := ∅ })
      | .error error => .done (.error (.failed error),
          { st with server := Server.succeed st.server st.ready st.children, children := ∅ }) := by
  show ((Task.persist _ _).run.bind _).bind _ = _
  rw [Interaction.bind_assoc]
  refine congrArg (Interaction.bind _) (funext fun result => ?_)
  cases result <;> rfl

/-- A part of a pass that only reads comes first. -/
theorem Completes.run_bind {α β : Type} {x : Pass α} {f : α → Pass β} {st st₁ : PassState} {a : α}
    {c₁ : Cluster} {last : Trace} {r : Except Halt β × PassState}
    (hx : Completes reliable Entry.IsRead x st c a st₁ c₁)
    (hf : ∃ t, (∀ e ∈ t, e.IsRead) ∧ Run reliable ((f a).exec st₁) c₁ (t ++ last) (some r) c') :
    ∃ t, (∀ e ∈ t, e.IsRead) ∧ Run reliable ((x >>= f).exec st) c (t ++ last) (some r) c' := by
  obtain ⟨t₁, ht₁, hrun₁⟩ := hx
  obtain ⟨t₂, ht₂, hrun₂⟩ := hf
  refine ⟨t₁ ++ t₂, List.forall_mem_append.2 ⟨ht₁, ht₂⟩, ?_⟩
  rw [exec_bind, List.append_assoc]
  exact hrun₁.bind hrun₂

/-- A pass over an active server does not look at the others. -/
theorem Calm.quiet_deferToActive (h : Calm settings ns name live c) :
    Quiet c live [] true deferToActive () := by
  refine quiet_server.bind_first ?_
  rw [if_pos h.active]
  exact quiet_pure ()

/-- A server that is active has been seen before. -/
theorem Calm.quiet_start (h : Calm settings ns name live c) : Quiet c live [] true start () := by
  have hseen : Server.isNew live = false := by
    have hactive := h.active
    unfold Server.isNew
    revert hactive
    cases Server.phase live <;> decide
  rintro st rfl
  refine completes_get_bind.2 ?_
  rw [if_neg (by simp [hseen])]
  exact quiet_pure () st rfl

/-- A pass over a calm cluster only reads until it comes to its last write of the status. -/
theorem Calm.run_body (hnames : settings.upsContainerName ≠ settings.oauthProxyContainerName)
    (h : Calm settings ns name live c) {last : Trace} {stored : Server}
    (hpersist : Run reliable (Task.persist (verdict c ns live) live.status).run c last
      (some (.ok stored)) c') :
    ∃ t st', (∀ e ∈ t, e.IsRead) ∧
      Run reliable ((body settings).exec { server := live, stored := live.status }) c (t ++ last)
        (some (.ok (.requeue 30), st')) c' := by
  have hconverge := quiet_converge hnames h.filed h.namespaced h.settled h.legacy
  -- The state in which the pass comes to its last write, and the one after it.
  let st₁ : PassState := PassState.saw { server := live, stored := live.status }
    (wanted live c.serves) (childrenReady c ns live)
  let st₂ : PassState := { st₁ with server := stored, stored := stored.status, children := ∅ }
  have hsucceed : Run reliable (succeed.exec st₁) c last (some (.ok (), st₂)) c' := by
    rw [exec_succeed, ← List.append_nil last]
    exact hpersist.bind (.done _ _)
  suffices hrun : ∃ t, (∀ e ∈ t, e.IsRead) ∧
      Run reliable ((body settings).exec { server := live, stored := live.status }) c (t ++ last)
        (some (.ok (.requeue 30), st₂)) c' by
    obtain ⟨t, ht, hrun⟩ := hrun
    exact ⟨t, st₂, ht, hrun⟩
  refine (h.quiet_deferToActive _ rfl).run_bind ((h.quiet_start _ rfl).run_bind ?_)
  refine (hconverge _ rfl).run_bind ⟨[], by simp, ?_⟩
  rw [exec_bind, List.nil_append, ← List.append_nil last]
  exact hsucceed.bind (.done _ _)

/-- What is written at last decides on the whole pass. -/
theorem Calm.run_reconcile (hwatched : settings.watches ns = true)
    (hnames : settings.upsContainerName ≠ settings.oauthProxyContainerName)
    (h : Calm settings ns name live c) {last : Trace} {stored : Server}
    (hsecret : ∀ text, .secret text ∉ last)
    (hpersist : Run reliable (Task.persist (verdict c ns live) live.status).run c last
      (some (.ok stored)) c') :
    ∃ t, (∀ e ∈ t, e.IsRead) ∧
      OnlyRun reliable (reconcile settings ns name).run c (t ++ last) (.ok (.requeue 30)) c' := by
  obtain ⟨t, st', ht, hbody⟩ := h.run_body hnames hpersist
  have hpass : Run reliable (run settings live) c (t ++ last) (some (.requeue 30)) c' := by
    rw [run_eq, ← List.append_nil (t ++ last)]
    exact hbody.bind (.done _ _)
  have hget : c.answer (.get .unifiedPushServer ns name) = (.ok (some live), c) :=
    answer_get.2 ⟨h.get?.symm, rfl⟩
  have hrun : Run reliable (reconcile settings ns name).run c
      (.call (.get .unifiedPushServer ns name) (.ok (some live)) :: (t ++ last))
      (some (.ok (.requeue 30))) c' := by
    rw [PushOperator.run_reconcile hwatched]
    refine .step (.call hget) ?_
    rw [← List.append_nil (t ++ last)]
    exact hpass.bind (.done _ _)
  have hread : Entry.IsRead (.call (.get .unifiedPushServer ns name) (.ok (some live))) := rfl
  refine ⟨_ :: t, List.forall_mem_cons.2 ⟨hread, ht⟩, hrun, fun t₁ a₁ c₁ hrun₁ => ?_⟩
  refine Run.unique reliable_unique (fun text hmem => ?_) hrun hrun₁
  rcases List.mem_cons.1 hmem with heq | hmem'
  · cases heq
  rcases List.mem_append.1 hmem' with hread | hlast
  · exact ht _ hread
  · exact hsecret text hlast

/-- A pass that would not change the status only reads. -/
theorem Calm.rests (hwatched : settings.watches ns = true)
    (hnames : settings.upsContainerName ≠ settings.oauthProxyContainerName)
    (h : Calm settings ns name live c) (hsame : (verdict c ns live).observe.status = live.status) :
    ∃ t, (∀ e ∈ t, e.IsRead) ∧
      OnlyRun reliable (reconcile settings ns name).run c t (.ok (.requeue 30)) c := by
  obtain ⟨t, ht, hrun⟩ :=
    h.run_reconcile hwatched hnames (by simp) (Task.run_persist_of_same hsame)
  rw [List.append_nil] at hrun
  exact ⟨t, ht, hrun⟩

/-- A pass that changes the status does so by its last call. -/
theorem Calm.writes (hwatched : settings.watches ns = true)
    (hnames : settings.upsContainerName ≠ settings.oauthProxyContainerName)
    (h : Calm settings ns name live c)
    (hchanged : (verdict c ns live).observe.status ≠ live.status) :
    ∃ t, (∀ e ∈ t, e.IsRead) ∧
      OnlyRun reliable (reconcile settings ns name).run c
        (t ++ [.call (.updateStatus .unifiedPushServer (verdict c ns live).observe)
          (.ok (judged c ns live))])
        (.ok (.requeue 30)) (judgedCluster c ns name live) := by
  have hanswer : c.answer (.updateStatus .unifiedPushServer (verdict c ns live).observe) =
      (.ok (judged c ns live), judgedCluster c ns name live) := by
    refine Cluster.answer_updateStatus.2 ⟨live, ?_, ?_, rfl, ?_⟩
    · rw [h.place.1, h.place.2]
      exact h.get?
    · show isStale live live = false
      simp [isStale]
    · rw [h.place.1, h.place.2]
      rfl
  have hpersist := Task.run_persist_of_changed hchanged
    ⟨ns, h.namespaced⟩ ⟨name, (h.filed _ _ _ _ h.get?).2⟩ hanswer
  exact h.run_reconcile hwatched hnames (by simp) hpersist

/-! ## From one pass to the next -/

/-- Which children belong to a server is a matter of its name and its uid. -/
theorem LegacySettled.remains {later : Server} (h : LegacySettled c ns server)
    (hremains : server.Remains later) (huid : server.metadata.uid ≠ none) :
    LegacySettled c ns later := by
  intro k hk hserved
  unfold legacyObjects
  rw [hremains.anyName, hremains.uid huid]
  exact h k hk hserved

theorem shelf_judgedCluster {k : Kind} (hk : k ∈ childKinds) :
    (judgedCluster c ns name live).shelf k = c.shelf k := by
  refine shelf_store_of_ne c ns name _ ?_
  rintro rfl
  exact absurd hk (by decide)

/-- A new status leaves a calm cluster calm. -/
theorem Calm.judged (h : Calm settings ns name live c) :
    Calm settings ns name (judged c ns live) (judgedCluster c ns name live) := by
  have hremains : live.Remains (Pass.judged c ns live) := Server.remains_stamped _ live _
  obtain ⟨hns, hname⟩ := h.filed _ _ _ _ h.get?
  refine ⟨get?_store_self c ns name _, ?_, h.filed.store hns hname, h.namespaced, ?_, ?_, ?_⟩
  · exact Server.isActive_succeed live _ _
  · rw [hremains.uid h.identified]
    exact h.identified
  · exact (settled_iff_of_remains hremains).2
      (h.settled.of_shelf rfl fun k hk => shelf_judgedCluster hk)
  · have hlegacy : LegacySettled (judgedCluster c ns name live) ns live := by
      refine h.legacy.of_shelf rfl fun k hk => shelf_judgedCluster ?_
      revert k
      decide
    exact hlegacy.remains hremains h.identified

/-- Once it is stored, the status is the one that the next pass comes to as well. -/
theorem verdict_judged (c : Cluster) (ns name : String) (live : Server) :
    (verdict (judgedCluster c ns name live) ns (judged c ns live)).observe.status =
      (judged c ns live).status := by
  have hready : childrenReady (judgedCluster c ns name live) ns live = childrenReady c ns live :=
    childrenReady_of_shelf fun k hk => shelf_judgedCluster hk
  have hgeneration : (judged c ns live).metadata.generation = live.metadata.generation := rfl
  have hagain := Server.observe_succeed_again hgeneration rfl
  rw [← hready] at hagain
  exact hagain

/-- What a pass leaves behind in a reliable cluster is calm. -/
theorem calm_of_body (hnames : settings.upsContainerName ≠ settings.oauthProxyContainerName)
    {P : Entry → Prop} {st' : PassState} {action : Action}
    (h : Completes reliable P (body settings) { server, stored := server.status } c action st' c')
    (hc : c.Filed) (hknows : Knows c ns name { server, stored := server.status })
    (huid : server.metadata.uid ≠ none) (hcomma : ',' ∉ server.anyName.toList)
    (hbackups : (server.spec.backups.map (·.name)).Nodup) :
    Calm settings ns name st'.server c' := by
  obtain ⟨hget, hremains, hactive, hfiled, hns, hsettled⟩ :=
    completes_body hnames (h.mono flaky_of_reliable) hc hknows hcomma hbackups
  obtain ⟨st₁, c₁, st₂, c₂, hcontinues, hns₁, hconverge, -, hstores⟩ :=
    h.settled_of_body flaky_of_reliable hnames hc hknows hcomma hbackups
  refine ⟨hget, hactive, hfiled, hns, ?_, hsettled, ?_⟩
  · rw [hremains.uid huid]
    exact huid
  -- The legacy step went by the uid that the server had then, which is still the same.
  have hlegacy : LegacySettled c' ns st₁.server := by
    refine (legacySettled_converge hconverge hcontinues.filed hns₁).of_shelf hstores.same.serves ?_
    intro k hk
    refine hstores.shelf ?_
    revert k
    decide
  refine hlegacy.remains hstores.remains ?_
  rw [hcontinues.remains.uid huid]
  exact huid

end Pass

/-- After a pass that comes to the thirty seconds, the next one at most writes the status, and the
one after that only reads. Like everything that an API server stores, the server has a uid. -/
theorem quiescent_of_reconcile {t : Trace}
    (hnames : settings.upsContainerName ≠ settings.oauthProxyContainerName) (hc : c.Filed)
    (hserver : c.get? .unifiedPushServer ns name = some server)
    (huid : server.metadata.uid ≠ none) (hcomma : ',' ∉ server.anyName.toList)
    (hbackups : (server.spec.backups.map (·.name)).Nodup)
    (hrun : Run reliable (reconcile settings ns name).run c t (some (.ok (.requeue 30))) c') :
    ∃ t₂ c₂, OnlyRun reliable (reconcile settings ns name).run c' t₂ (.ok (.requeue 30)) c₂ ∧
      (∃ reads last, t₂ = reads ++ last ∧ (∀ e ∈ reads, e.IsRead) ∧
        (last = [] ∨ ∃ o a, nsOf o = ns ∧ nameOf o = name ∧
          last = [.call (.updateStatus .unifiedPushServer o) a])) ∧
      ∃ t₃, OnlyRun reliable (reconcile settings ns name).run c₂ t₃ (.ok (.requeue 30)) c₂ ∧
        ∀ e ∈ t₃, e.IsRead := by
  obtain ⟨hwatched, server', st', hserver', hbody⟩ :=
    completes_of_reconcile flaky_of_reliable hc hrun
  obtain rfl : server = server' := Option.some.inj (hserver.symm.trans hserver')
  have hcalm := Pass.calm_of_body hnames hbody hc ⟨hserver, rfl⟩ huid hcomma hbackups
  -- The status may be new once more, when children have become ready since they were created.
  by_cases hsame : (Pass.verdict c' ns st'.server).observe.status = st'.server.status
  · obtain ⟨t₂, ht₂, hrun₂⟩ := hcalm.rests hwatched hnames hsame
    exact ⟨t₂, c', hrun₂, ⟨t₂, [], by simp, ht₂, .inl rfl⟩, t₂, hrun₂, ht₂⟩
  · obtain ⟨t₂, ht₂, hrun₂⟩ := hcalm.writes hwatched hnames hsame
    obtain ⟨t₃, ht₃, hrun₃⟩ :=
      hcalm.judged.rests hwatched hnames (Pass.verdict_judged c' ns name st'.server)
    obtain ⟨hns, hname⟩ := hcalm.place
    exact ⟨_, _, hrun₂, ⟨t₂, _, rfl, ht₂, .inr ⟨_, _, hns, hname, rfl⟩⟩, t₃, hrun₃, ht₃⟩

/-- The third pass over a new server only reads. -/
theorem quiescent_of_reconcile_sampleCluster : ∃ t c' t₂ c₂ t₃,
    Run reliable (reconcile {} "push" "a").run sampleCluster t (some (.ok (.requeue 30))) c' ∧
      OnlyRun reliable (reconcile {} "push" "a").run c' t₂ (.ok (.requeue 30)) c₂ ∧
        OnlyRun reliable (reconcile {} "push" "a").run c₂ t₃ (.ok (.requeue 30)) c₂ ∧
          ∀ e ∈ t₃, e.IsRead := by
  obtain ⟨t, c', hrun⟩ := exists_run_sampleCluster
  obtain ⟨t₂, c₂, hrun₂, -, t₃, hrun₃, ht₃⟩ := quiescent_of_reconcile (by decide)
    filed_sampleCluster get?_sampleCluster (by decide) (by decide) (by decide) hrun
  exact ⟨t, c', t₂, c₂, t₃, hrun, hrun₂, hrun₃, ht₃⟩

end PushOperator
