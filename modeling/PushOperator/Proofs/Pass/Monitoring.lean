import PushOperator.Pass.Monitoring
import PushOperator.Proofs.Child.Wanted
import PushOperator.Proofs.Pass.Ensure

/-!
# The monitoring step completes

Where the monitoring APIs are served, a monitoring step that completes has left the monitoring
objects with the wanted specs. An object with another spec gets the wanted one in the same step,
which then goes on. On what it leaves behind the step is quiet.
-/

namespace PushOperator.Pass

open Child Cluster

variable {k : Kind} {P : Entry → Prop} {c c' : Cluster} {ns : String} {server : Server}
  {st st' : PassState} {u : Unit}

/-- The kinds that the monitoring step writes. -/
def monitoringKinds : List Kind := [.serviceMonitor, .prometheusRule, .grafanaDashboard]

theorem kind_of_monitoring {serves : String → Bool} {child : Kind × String}
    (h : child ∈ Monitoring.wanted server serves) : child.1 ∈ monitoringKinds := by
  unfold Monitoring.wanted at h
  dsimp only at h
  rcases List.mem_append.1 h with h | h
  · split at h
    · simp only [List.mem_cons, List.not_mem_nil, or_false] at h
      rcases h with rfl | rfl <;> simp [monitoringKinds]
    · cases h
  · split at h
    · obtain rfl := List.mem_singleton.1 h
      simp [monitoringKinds]
    · cases h

/-- An object is there with the spec of the wanted one. -/
def SpecSettled (c : Cluster) (ns name : String) (wanted : Except Error (Object k)) : Prop :=
  ∃ found desired, c.get? k ns name = some found ∧ wanted = .ok desired ∧ found.spec = desired.spec

/-- What the monitoring step leaves behind. -/
structure MonitoringSettled (c : Cluster) (ns : String) (server : Server) : Prop where
  serviceMonitor : c.serves Kind.serviceMonitor.apiVersion = true →
    SpecSettled c ns (childName server unifiedpush) (Monitoring.serviceMonitor server)
  prometheusRule : c.serves Kind.prometheusRule.apiVersion = true →
    SpecSettled c ns (childName server unifiedpush) (Monitoring.prometheusRule server)
  grafanaDashboard : c.serves Kind.grafanaDashboard.apiVersion = true →
    SpecSettled c ns (childName server unifiedpush) (Monitoring.grafanaDashboard server)

theorem SpecSettled.mono {name : String} {wanted : Except Error (Object k)}
    (h : SpecSettled c ns name wanted) (hkeeps : Keeps k c c') : SpecSettled c' ns name wanted := by
  obtain ⟨found, desired, hfound, hrest⟩ := h
  exact ⟨found, desired, hkeeps _ _ _ hfound, hrest⟩

theorem MonitoringSettled.mono (h : MonitoringSettled c ns server) (hserves : c'.serves = c.serves)
    (hkeeps : ∀ k ∈ monitoringKinds, Keeps k c c') : MonitoringSettled c' ns server where
  serviceMonitor hserved :=
    (h.serviceMonitor (hserves ▸ hserved)).mono (hkeeps _ (by decide))
  prometheusRule hserved :=
    (h.prometheusRule (hserves ▸ hserved)).mono (hkeeps _ (by decide))
  grafanaDashboard hserved :=
    (h.grafanaDashboard (hserves ▸ hserved)).mono (hkeeps _ (by decide))

/-! ## What is written -/

theorem writesOnly_reconcileSpec {kinds : List Kind} (hk : k ∈ kinds)
    {build : Server → Except Error (Object k)} : WritesOnly kinds (reconcileSpec build) := by
  refine writesOnly_server.bind fun server => writesOnly_build.bind fun desired => ?_
  exact (writesOnly_liftM (Task.obeys_createOrUpdate hk)).bind fun _ => writesOnly_track

theorem writesOnly_reconcileDashboard : WritesOnly monitoringKinds (do
    if ← Task.call (.probe Kind.grafanaDashboard.apiVersion) then
      reconcileSpec Monitoring.grafanaDashboard) := by
  refine (writesOnly_read rfl).bind fun served => ?_
  split
  · exact writesOnly_reconcileSpec (by decide)
  · exact writesOnly_pure

theorem writesOnly_reconcileMonitoring : WritesOnly monitoringKinds reconcileMonitoring := by
  refine (writesOnly_read rfl).bind fun served => ?_
  split
  · refine (writesOnly_reconcileSpec (by decide)).bind fun _ => ?_
    exact (writesOnly_reconcileSpec (by decide)).bind fun _ => writesOnly_reconcileDashboard
  · exact writesOnly_reconcileDashboard

/-! ## What is left behind -/

theorem completes_createOrUpdate {owner : Server} {desired : Object k} {ensured : Ensured k}
    (h : Task.Completes flaky P (Task.createOrUpdate owner desired) c ensured c') (hc : c.Filed)
    (hns : owner.metadata.ns = some ns) {name : String} (hplaced : Placed ns name desired) :
    c'.Filed ∧ ensured.object.metadata.name = some name ∧
      (∀ ns' name', ¬(ns' = ns ∧ name' = name) → c'.get? k ns' name' = c.get? k ns' name') ∧
      ∃ found, c'.get? k ns name = some found ∧ found.spec = desired.spec := by
  obtain ⟨ns', c₁, hrequire, hrest₁⟩ := Task.completes_bind.1 h
  obtain ⟨hns', rfl⟩ := Task.completes_requireNs.1 hrequire
  obtain ⟨name', c₂, hrequire', hrest₂⟩ := Task.completes_bind.1 hrest₁
  obtain ⟨hname', rfl⟩ := Task.completes_requireName.1 hrequire'
  obtain rfl : ns = ns' := Option.some.inj (hns.symm.trans hns')
  obtain rfl : name = name' := Option.some.inj (hplaced.2.symm.trans hname')
  obtain ⟨live, c₃, hget, hrest₃⟩ := Task.completes_bind.1 hrest₂
  obtain ⟨-, rfl, rfl⟩ := Task.completes_get.1 hget
  split at hrest₃
  · obtain ⟨created, c₄, hcreated, hend⟩ := Task.completes_bind.1 hrest₃
    obtain ⟨rfl, rfl⟩ := Task.completes_pure.1 hend
    obtain ⟨reference, -, rfl, rfl⟩ := Task.completes_createOwned hcreated
    rw [hplaced.nsOf, hplaced.nameOf]
    refine ⟨hc.store hplaced.nsOf hplaced.2, hplaced.2, fun ns' name' hne => ?_, _,
      get?_store_self c₃ ns name _, rfl⟩
    rw [get?_store, if_neg hne]
  · next found hfound =>
    split at hrest₃
    · next hspec =>
      obtain ⟨rfl, rfl⟩ := Task.completes_pure.1 hrest₃
      exact ⟨hc, (hc k ns name found hfound).2, fun _ _ _ => rfl, found, hfound, hspec⟩
    · obtain ⟨updated, c₄, hupdate, hend⟩ := Task.completes_bind.1 hrest₃
      obtain ⟨rfl, rfl⟩ := Task.completes_pure.1 hend
      obtain ⟨-, stored, -, -, rfl, rfl⟩ := Task.completes_update.1 hupdate
      obtain ⟨hnsOf, hname⟩ := hc k ns name found hfound
      have hnameOf : nameOf found = name := hc.nameOf hfound
      have hplace : nsOf { found with spec := desired.spec } = ns ∧
          nameOf { found with spec := desired.spec } = name := ⟨hnsOf, hnameOf⟩
      rw [hplace.1, hplace.2]
      refine ⟨hc.store hnsOf hname, hname, fun ns' name' hne => ?_, _,
        get?_store_self c₃ ns name _, rfl⟩
      rw [get?_store, if_neg hne]

theorem completes_reconcileSpec {name : Server → String}
    {build : Server → Except Error (Object k)} (hplaces : Places name build)
    (h : Completes flaky P (reconcileSpec build) st c u st' c') (hc : c.Filed)
    (hns : st.server.metadata.ns = some ns) :
    Accounts ns [k] [(k, name st.server)] true st c st' c' ∧
      SpecSettled c' ns (name st.server) (build st.server) := by
  have hwrites : WritesOnly [k] (reconcileSpec build) :=
    writesOnly_reconcileSpec (List.mem_singleton_self k)
  obtain ⟨-, -, hsame⟩ := hwrites.completes h
  have hrest := completes_server_bind.1 h
  obtain ⟨desired, hdesired, hrest₁⟩ := completes_build_bind.1 hrest
  obtain ⟨ensured, c₁, htask, htrack⟩ := completes_liftM_bind.1 hrest₁
  obtain ⟨recorded, hrecorded, rfl, rfl⟩ := htrack.track
  obtain ⟨hfiled, hname, hothers, found, hfound, hspec⟩ :=
    completes_createOrUpdate htask hc hns (hplaces.placed hns hdesired)
  obtain rfl : recorded = name st.server := Option.some.inj (hrecorded.symm.trans hname)
  refine ⟨⟨rfl, hfiled, fun k' hk' => keeps_of_shelf (hsame.shelf k' hk'),
    by simpa using ⟨found, hfound⟩, ?_⟩, found, desired, hfound, hdesired, hspec⟩
  intro k' ns' name' o ho
  by_cases hk : k' = k
  · subst hk
    by_cases hplace : ns' = ns ∧ name' = name st.server
    · obtain ⟨rfl, rfl⟩ := hplace
      exact .inr ⟨rfl, List.mem_singleton_self _⟩
    · rw [hothers ns' name' hplace] at ho
      exact .inl ⟨o, ho⟩
  · rw [get?_of_shelf (hsame.shelf k' (by simpa using hk))] at ho
    exact .inl ⟨o, ho⟩

theorem completes_reconcileDashboard
    (h : Completes flaky P (do
      if ← Task.call (.probe Kind.grafanaDashboard.apiVersion) then
        reconcileSpec Monitoring.grafanaDashboard) st c u st' c')
    (hc : c.Filed) (hns : st.server.metadata.ns = some ns) :
    Accounts ns [.grafanaDashboard]
      (if c.serves Kind.grafanaDashboard.apiVersion then
        [(.grafanaDashboard, childName st.server unifiedpush)] else []) true st c st' c' ∧
      (c.serves Kind.grafanaDashboard.apiVersion = true →
        SpecSettled c' ns (childName st.server unifiedpush)
          (Monitoring.grafanaDashboard st.server)) := by
  obtain ⟨served, _, hprobe, hrest⟩ := completes_liftM_bind.1 h
  obtain ⟨-, rfl, rfl⟩ := Task.completes_probe.1 hprobe
  split at hrest
  · next hserved =>
    rw [if_pos hserved]
    obtain ⟨hdashboard, hsettled⟩ := completes_reconcileSpec places_grafanaDashboard hrest hc hns
    exact ⟨hdashboard, fun _ => hsettled⟩
  · next hmissing =>
    obtain ⟨-, rfl, rfl⟩ := completes_pure.1 hrest
    rw [if_neg hmissing]
    exact ⟨(Accounts.refl _ hc).mono (by simp), fun hserved => absurd hserved hmissing⟩

theorem completes_reconcileMonitoring (h : Completes flaky P reconcileMonitoring st c u st' c')
    (hc : c.Filed) (hns : st.server.metadata.ns = some ns) :
    Accounts ns monitoringKinds (Monitoring.wanted st.server c.serves) true st c st' c' ∧
      MonitoringSettled c' ns st.server := by
  have hserves : c'.serves = c.serves := (writesOnly_reconcileMonitoring.completes h).2.2.serves
  obtain ⟨served, c₀, hprobe, hrest⟩ := completes_liftM_bind.1 h
  obtain ⟨-, rfl, rfl⟩ := Task.completes_probe.1 hprobe
  unfold Monitoring.wanted
  dsimp only
  split at hrest
  · next hserved =>
    rw [if_pos hserved]
    obtain ⟨_, st₁, c₁, hmonitor, hrest₁⟩ := completes_bind.1 hrest
    obtain ⟨_, st₂, c₂, hrule, hdashboard⟩ := completes_bind.1 hrest₁
    obtain ⟨hmonitor', hmonitored⟩ :=
      completes_reconcileSpec places_serviceMonitor hmonitor hc hns
    obtain ⟨hrule', hruled⟩ := completes_reconcileSpec places_prometheusRule hrule hmonitor'.filed
      (hmonitor'.server ▸ hns)
    rw [hmonitor'.server] at hrule' hruled
    have hpair := hmonitor'.trans hrule' (by simp)
    obtain ⟨hdashboard', hdisplayed⟩ :=
      completes_reconcileDashboard hdashboard hpair.filed (hpair.server ▸ hns)
    have hserves₂ : c₂.serves = c₀.serves :=
      ((writesOnly_reconcileDashboard.completes hdashboard).2.2.serves).symm.trans hserves
    rw [hpair.server, hserves₂] at hdashboard' hdisplayed
    refine ⟨hpair.trans hdashboard' (by simp), ?_, ?_, hserves ▸ hdisplayed⟩
    · exact fun _ => hmonitored.mono ((hrule'.trans hdashboard' (by simp)).keeps _ (by decide))
    · exact fun _ => hruled.mono (hdashboard'.keeps _ (by decide))
  · next hmissing =>
    rw [if_neg hmissing]
    obtain ⟨hdashboard, hdisplayed⟩ := completes_reconcileDashboard hrest hc hns
    refine ⟨hdashboard.mono (by decide), ?_, ?_, hserves ▸ hdisplayed⟩
    · exact fun hserved => absurd (hserves ▸ hserved) hmissing
    · exact fun hserved => absurd (hserves ▸ hserved) hmissing

/-! ## What is looked at -/

theorem quiet_reconcileSpec (hc : c.Filed) (hns : server.metadata.ns = some ns)
    {name : Server → String} {build : Server → Except Error (Object k)}
    (hplaces : Places name build) (h : SpecSettled c ns (name server) (build server)) :
    Quiet c server [(k, name server)] true (reconcileSpec build) () := by
  obtain ⟨found, desired, hfound, hdesired, hspec⟩ := h
  refine quiet_server.bind_first ((quiet_ofExcept hdesired).bind_first ?_)
  refine Quiet.bind_first (a := Ensured.found found) (quiet_liftM ?_) ?_
  · refine Task.completes_bind.2 ⟨ns, c, Task.completes_requireNs.2 ⟨hns, rfl⟩, ?_⟩
    refine Task.completes_bind.2 ⟨name server, c, ?_, ?_⟩
    · exact Task.completes_requireName.2 ⟨(hplaces server desired hdesired).2, rfl⟩
    · refine Task.completes_bind.2 ⟨some found, c, ?_, ?_⟩
      · exact Task.completes_call.2 ⟨rfl, answer_get.2 ⟨hfound.symm, rfl⟩⟩
      · dsimp only
        rw [if_pos hspec]
        exact Task.completes_pure.2 ⟨rfl, rfl⟩
  · exact quiet_track (hc k ns (name server) found hfound).2

theorem quiet_probe (groupVersion : String) : Quiet c server [] true
    (liftM (Task.call (.probe groupVersion)) : Pass Bool) (c.serves groupVersion) :=
  quiet_call rfl (answer_probe.2 ⟨rfl, rfl⟩)

theorem quiet_reconcileMonitoring (hc : c.Filed) (hns : server.metadata.ns = some ns)
    (h : MonitoringSettled c ns server) :
    Quiet c server (Monitoring.wanted server c.serves) true reconcileMonitoring () := by
  have hdashboard : Quiet c server
      (if c.serves Kind.grafanaDashboard.apiVersion then
        [(.grafanaDashboard, childName server unifiedpush)] else []) true
      (do
        if ← Task.call (.probe Kind.grafanaDashboard.apiVersion) then
          reconcileSpec Monitoring.grafanaDashboard) () := by
    refine (quiet_probe _).bind_first ?_
    split
    · next hserved =>
      exact quiet_reconcileSpec hc hns places_grafanaDashboard (h.grafanaDashboard hserved)
    · exact quiet_pure ()
  refine (quiet_probe _).bind_first ?_
  unfold Monitoring.wanted
  split
  · next hserved =>
    refine (quiet_reconcileSpec hc hns places_serviceMonitor (h.serviceMonitor hserved)).bind ?_
    refine (quiet_reconcileSpec hc hns places_prometheusRule (h.prometheusRule hserved)).bind ?_
    exact hdashboard
  · exact hdashboard

end PushOperator.Pass
