import PushOperator.Proofs.Cluster.Circumstances
import PushOperator.Proofs.Pass.ReportedSteps
import PushOperator.Proofs.Pass.Replaces

/-!
# Passes are confined to their namespace

Two clusters that agree on a namespace can not be told apart by a pass in it: under the same
circumstances the pass asks the same, is answered the same and leaves the same there, and what is in
other namespaces stays as it is in either of them (`confined_of_reconcile`).
-/

namespace PushOperator

open Cluster

variable {α τ ε : Type} {k : Kind} {ns name : String} {c c' c₁ c₂ : Cluster} {r : Request}

/-! ## Clusters that agree on a namespace -/

namespace Cluster

/-- Two clusters hold the same objects in a namespace and serve the same, and have come equally far
with their revisions. -/
structure AgreeOn (ns : String) (c c' : Cluster) : Prop where
  get? : ∀ k name, c.get? k ns name = c'.get? k ns name
  serves : ∀ groupVersion, c.serves groupVersion = c'.serves groupVersion
  revision : c.revision = c'.revision

theorem AgreeOn.objects (h : AgreeOn ns c c') (k : Kind) : c.objects k ns = c'.objects k ns :=
  Dict.eq_of_get? (h.get? k)

/-- What is stored in the namespace is the same and looks the same. -/
theorem AgreeOn.store (h : AgreeOn ns c c') (name : String) (o : Object k) :
    (c.store ns name o).1 = (c'.store ns name o).1 ∧
      AgreeOn ns (c.store ns name o).2 (c'.store ns name o).2 := by
  have hstamped : stamped (c.revision + 1) o = stamped (c'.revision + 1) o := by rw [h.revision]
  refine ⟨hstamped, ⟨fun k' name' => ?_, h.serves, congrArg (· + 1) h.revision⟩⟩
  by_cases hk : k = k'
  · subst hk
    rw [get?_store, get?_store, hstamped, h.get?]
  · exact (get?_put_of_ne _ _ _ _ _ _ hk).trans
      ((h.get? k' name').trans (get?_put_of_ne _ _ _ _ _ _ hk).symm)

theorem AgreeOn.remove (h : AgreeOn ns c c') (k : Kind) (name : String) :
    AgreeOn ns (c.remove k ns name) (c'.remove k ns name) := by
  refine ⟨fun k' name' => ?_, h.serves, h.revision⟩
  by_cases hk : k = k'
  · subst hk
    rw [get?_remove, get?_remove, h.get?]
  · rw [get?_remove_of_ne _ _ _ _ _ hk, get?_remove_of_ne _ _ _ _ _ hk, h.get?]

theorem AgreeOn.replace (h : AgreeOn ns c c') {o : Object k} (hns : nsOf o = ns)
    (merged : Object k → Object k) : (c.replace o merged).1 = (c'.replace o merged).1 ∧
      AgreeOn ns (c.replace o merged).2 (c'.replace o merged).2 := by
  unfold Cluster.replace
  rw [hns, ← h.get?]
  cases c.get? k ns (nameOf o) with
  | none => exact ⟨rfl, h⟩
  | some stored =>
    dsimp only
    split
    · exact ⟨rfl, h⟩
    · obtain ⟨hstored, hagree⟩ := h.store (nameOf o) (merged stored)
      exact ⟨congrArg Except.ok hstored, hagree⟩

/-- Requests in a namespace do not tell apart clusters that agree on it. -/
theorem AgreeOn.answer (h : AgreeOn ns c c') (hr : r.Inside ns) :
    (c.answer r).1 = (c'.answer r).1 ∧ AgreeOn ns (c.answer r).2 (c'.answer r).2 := by
  cases r with
  | get k ns' name =>
    obtain rfl : ns' = ns := hr
    exact ⟨congrArg Except.ok (h.get? k name), h⟩
  | list k ns' selector =>
    obtain rfl : ns' = ns := hr
    refine ⟨?_, h⟩
    unfold Cluster.answer
    dsimp only
    rw [h.objects]
  | create k o =>
    have hns : nsOf o = ns := hr
    unfold Cluster.answer
    dsimp only
    rw [hns, ← h.get?]
    cases c.get? k ns (nameOf o) with
    | some stored => exact ⟨rfl, h⟩
    | none =>
      obtain ⟨hstored, hagree⟩ := h.store (nameOf o) o
      exact ⟨congrArg Except.ok hstored, hagree⟩
  | update k o => exact h.replace hr _
  | updateStatus k o => exact h.replace hr _
  | delete k o =>
    have hns : nsOf o = ns := hr
    unfold Cluster.answer
    dsimp only
    rw [hns, ← h.get?]
    cases c.get? k ns (nameOf o) with
    | none => exact ⟨rfl, h⟩
    | some stored => exact ⟨rfl, h.remove k (nameOf o)⟩
  | probe groupVersion => exact ⟨congrArg Except.ok (h.serves groupVersion), h⟩

/-! ## What is elsewhere -/

/-- Outside of a namespace there are the same objects. -/
def SameOutside (ns : String) (c c' : Cluster) : Prop :=
  ∀ k ns' name, ns' ≠ ns → c'.get? k ns' name = c.get? k ns' name

theorem SameOutside.refl (ns : String) (c : Cluster) : SameOutside ns c c := fun _ _ _ _ => rfl

theorem SameOutside.trans (h : SameOutside ns c c₁) (h' : SameOutside ns c₁ c₂) :
    SameOutside ns c c₂ :=
  fun k ns' name hns => (h' k ns' name hns).trans (h k ns' name hns)

theorem sameOutside_store (c : Cluster) (ns name : String) (o : Object k) :
    SameOutside ns c (c.store ns name o).2 := by
  intro k' ns' name' hns
  by_cases hk : k = k'
  · subst hk
    rw [get?_store, if_neg fun h => hns h.1]
  · exact get?_put_of_ne _ _ _ _ _ _ hk

theorem sameOutside_remove (c : Cluster) (k : Kind) (ns name : String) :
    SameOutside ns c (c.remove k ns name) := by
  intro k' ns' name' hns
  by_cases hk : k = k'
  · subst hk
    rw [get?_remove, if_neg fun h => hns h.1]
  · exact get?_remove_of_ne _ _ _ _ _ hk

theorem sameOutside_replace {o : Object k} (hns : nsOf o = ns) (merged : Object k → Object k) :
    SameOutside ns c (c.replace o merged).2 := by
  unfold replace
  split
  · exact .refl ns c
  · split
    · exact .refl ns c
    · exact hns ▸ sameOutside_store c _ _ _

/-- Requests in a namespace change nothing outside of it. -/
theorem sameOutside_answer (hr : r.Inside ns) : SameOutside ns c (c.answer r).2 := by
  cases r with
  | get | list | probe => exact .refl ns c
  | create k o =>
    have hns : nsOf o = ns := hr
    unfold answer
    dsimp only
    split
    · exact .refl ns c
    · exact hns ▸ sameOutside_store c _ _ _
  | update k o => exact sameOutside_replace hr _
  | updateStatus k o => exact sameOutside_replace hr _
  | delete k o =>
    have hns : nsOf o = ns := hr
    unfold answer
    dsimp only
    split
    · exact .refl ns c
    · exact hns ▸ sameOutside_remove c k _ _

end Cluster

/-! ## Two runs -/

/-- What two runs share, one in each of two clusters, and what each of them leaves as it is. -/
structure ConfinedTo (ns : String) (s s' : Scene τ ε) (t t' : Trace) (result result' : α)
    (after after' : Scene τ ε) : Prop where
  trace : t = t'
  inside : ∀ r a, .call r a ∈ t → r.Inside ns
  result : result = result'
  luck : after.luck = after'.luck
  sunk : after.sunk = after'.sunk
  agree : AgreeOn ns after.cluster after'.cluster
  elsewhere : SameOutside ns s.cluster after.cluster
  elsewhere' : SameOutside ns s'.cluster after'.cluster

/-- What keeps to a namespace does the same in clusters that agree on it. -/
theorem confined_of_obeys {post : α → Prop} (w : Circumstances τ) (sink : Sink ε)
    {x : Interaction α} (hx : x.Obeys (insideOf ns) post) (hc : c.Keyed) (h : AgreeOn ns c c')
    (luck : τ) (sunk : ε) :
    ConfinedTo ns ⟨c, luck, sunk⟩ ⟨c', luck, sunk⟩ (x.trace (w.handler sink) ⟨c, luck, sunk⟩)
      (x.trace (w.handler sink) ⟨c', luck, sunk⟩) (x.run (w.handler sink) ⟨c, luck, sunk⟩).1
      (x.run (w.handler sink) ⟨c', luck, sunk⟩).1 (x.run (w.handler sink) ⟨c, luck, sunk⟩).2
      (x.run (w.handler sink) ⟨c', luck, sunk⟩).2 := by
  have halike : Alike (insideOf ns) (Circumstances.Beside (τ := τ) (fun c₁ c₂ => c₁.Keyed ∧
      AgreeOn ns c₁ c₂ ∧ SameOutside ns c c₁ ∧ SameOutside ns c' c₂) Eq) (w.handler sink)
      (w.handler sink) := by
    refine w.alike_handler ?_ ?_ ?_
    · rintro r c₁ c₂ ⟨hkeyed, hagree, hsame, hsame'⟩ hasks
      obtain ⟨hanswer, hagree'⟩ := hagree.answer hasks
      refine ⟨hanswer, (becomes_answer hkeyed r).keyed hkeyed, hagree', ?_, ?_⟩
      · exact hsame.trans (sameOutside_answer hasks)
      · exact hsame'.trans (sameOutside_answer hasks)
    · rintro r c₁ c₂ a c₃ ⟨hkeyed, -⟩ hasks hflaky
      exact answeredInPlace_of_flaky hkeyed hflaky
    · rintro server event _ _ rfl
      rfl
  have hstart : Circumstances.Beside (fun c₁ c₂ => c₁.Keyed ∧ AgreeOn ns c₁ c₂ ∧
      SameOutside ns c c₁ ∧ SameOutside ns c' c₂) Eq (⟨c, luck, sunk⟩ : Scene τ ε)
      ⟨c', luck, sunk⟩ :=
    ⟨⟨hc, h, .refl ns c, .refl ns c'⟩, rfl, rfl⟩
  obtain ⟨htrace, hresult, ⟨-, hagree, hsame, hsame'⟩, hluck, hsunk⟩ := halike.run hx hstart
  obtain ⟨-, -, hinside⟩ := hx.run (honors_insideOf ns) hc (w.run_flaky sink x ⟨c, luck, sunk⟩)
  exact ⟨htrace, fun r a hcall => (hinside _ hcall).1, hresult, hluck, hsunk, hagree, hsame, hsame'⟩

/-- Under the same circumstances, a pass in a namespace does the same in two clusters that agree on
it: it asks for the same, all of it in the namespace, is answered the same and emits the same. It
comes to the same result, leaves the same objects in the namespace and changes nothing elsewhere. In
a namespace that is not watched it does nothing at all. -/
theorem confined_of_reconcile (w : Circumstances τ) (sink : Sink ε) (settings : Settings)
    (ns name : String) (hc : c.Keyed) (h : AgreeOn ns c c') (luck : τ) (sunk : ε) :
    let pass := (reconcile settings ns name).run
    let t := pass.trace (w.handler sink) ⟨c, luck, sunk⟩
    let end₁ := pass.run (w.handler sink) ⟨c, luck, sunk⟩
    let end₂ := pass.run (w.handler sink) ⟨c', luck, sunk⟩
    ConfinedTo ns ⟨c, luck, sunk⟩ ⟨c', luck, sunk⟩ t
      (pass.trace (w.handler sink) ⟨c', luck, sunk⟩) end₁.1 end₂.1 end₁.2 end₂.2 ∧
    (settings.watches ns = false → t = []) := by
  refine ⟨confined_of_obeys w sink inside_of_reconcile hc h luck sunk, fun hwatched => ?_⟩
  rw [run_reconcile_of_unwatched hwatched]
  rfl

/-- The same cluster with a server in another namespace. -/
def neighbouredCluster : Cluster :=
  sampleCluster.put "other" "a" { sampleServer "a" with
    metadata := { (sampleServer "a").metadata with ns := some "other" } }

theorem agreeOn_neighbouredCluster : AgreeOn "push" sampleCluster neighbouredCluster := by
  refine ⟨fun k name => ?_, fun _ => rfl, rfl⟩
  by_cases hk : .unifiedPushServer = k
  · subst hk
    unfold neighbouredCluster
    rw [get?_put, if_neg fun h => absurd h.1 (by decide)]
  · exact (get?_put_of_ne _ _ _ _ _ _ hk).symm

/-- A pass in the one namespace comes to its end in both, and leaves the server in the other one as
it is. -/
theorem confined_of_reconcile_neighbouredCluster :
    let pass := (reconcile {} "push" "a").run
    let h := Circumstances.planned.handler .record
    let start₁ : Scene _ (List Event) := ⟨sampleCluster, ([], 0), []⟩
    let start₂ : Scene _ (List Event) := ⟨neighbouredCluster, ([], 0), []⟩
    ConfinedTo "push" start₁ start₂ (pass.trace h start₁) (pass.trace h start₂)
      (pass.run h start₁).1 (pass.run h start₂).1 (pass.run h start₁).2 (pass.run h start₂).2 ∧
    (pass.run h start₁).1.toOption = some (.requeue 30) ∧
    (pass.run h start₂).2.cluster.get? .unifiedPushServer "other" "a" ≠ none := by
  intro pass h start₁ start₂
  have hconfined := (confined_of_reconcile .planned .record {} "push" "a"
    stamped_sampleCluster.keyed agreeOn_neighbouredCluster ([], 0) []).1
  refine ⟨hconfined, by decide +kernel, ?_⟩
  rw [hconfined.elsewhere' .unifiedPushServer "other" "a" (by decide)]
  exact Option.some_ne_none _

end PushOperator
