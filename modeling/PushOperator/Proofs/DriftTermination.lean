import PushOperator.Proofs.DriftedFields
import PushOperator.Proofs.OwnedChanges

/-!
# Corrections come to an end

A pass that has put a child right asks to be run again at once. This does not go on for ever: as
long as the spec of the server stays and nobody else writes its children, nothing that a pass does
makes drift grow, and every correction takes one drifted field away. There are seven of them, so
there are seven such passes at most (`driftTerminates_of_passes`).
-/

namespace PushOperator

open Cluster Child

variable {k : Kind} {settings : Settings} {ns name : String} {server live : Server} {t t' : Trace}
  {r : Request} {o : Object k} {c c' c'' : Cluster} {x : Interaction (Except Error Action)}

/-! ## The same server -/

/-- Another version of a server with a name: all that children are built from is the same. -/
structure Server.Alike (server live : Server) : Prop where
  spec : live.spec = server.spec
  ns : live.metadata.ns = server.metadata.ns
  name : live.metadata.name = server.metadata.name
  named : ∃ name, server.metadata.name = some name

theorem Server.Alike.anyName (h : server.Alike live) : live.anyName = server.anyName := by
  obtain ⟨name, hname⟩ := h.named
  rw [Object.anyName, Object.anyName, ObjectMeta.anyName, ObjectMeta.anyName, h.name, hname]
  rfl

theorem Server.Alike.built (h : server.Alike live) (settings : Settings) (cookieSecret : String) :
    Database.claim live settings = Database.claim server settings ∧
      Database.deployment live settings = Database.deployment server settings ∧
      Frontend.deployment live settings cookieSecret =
        Frontend.deployment server settings cookieSecret := by
  obtain ⟨⟨_, _, _, _, _, _, _, _, _, _⟩, _, _⟩ := live
  obtain ⟨⟨_, _, _, _, _, _, _, _, _, _⟩, _, _⟩ := server
  obtain ⟨rfl, rfl, rfl, _, rfl⟩ := h
  exact ⟨rfl, rfl, rfl⟩

theorem Server.Alike.builds (h : server.Alike live) (hbuilds : Pass.Builds settings live k o) :
    Pass.Builds settings server k o := by
  cases k with
  | persistentVolumeClaim =>
    obtain ⟨hclaim, -⟩ := h.built settings ""
    exact hclaim.symm.trans hbuilds
  | deployment =>
    rcases hbuilds with ⟨hown, hbuilt⟩ | ⟨cookieSecret, hbuilt⟩
    · obtain ⟨-, hdatabase, -⟩ := h.built settings ""
      exact .inl ⟨h.spec ▸ hown, hdatabase.symm.trans hbuilt⟩
    · obtain ⟨-, -, hfrontend⟩ := h.built settings cookieSecret
      exact .inr ⟨cookieSecret, hfrontend.symm.trans hbuilt⟩
  | _ => exact hbuilds

theorem Server.Alike.corrects {name : String} {found : Object k} (h : server.Alike live)
    (hcorrects : Pass.Corrects settings live name found o) :
    Pass.Corrects settings server name found o := by
  obtain ⟨hclaim, hdatabase, hfrontend⟩ := h.built settings ""
  have hchild : childName live postgresql = childName server postgresql := by
    rw [childName, h.anyName, ← childName]
  cases hcorrects with
  | storage hown hdesired hdrift =>
    rw [hchild]
    exact .storage (h.spec ▸ hown) (hclaim.symm.trans hdesired) hdrift
  | database hown hdesired hdrift =>
    rw [hchild]
    exact .database (h.spec ▸ hown) (hdatabase.symm.trans hdesired) hdrift
  | frontend hdesired hdrift =>
    rw [h.anyName]
    exact .frontend (hfrontend.symm.trans hdesired) hdrift

/-! ## What is seen of the server -/

/-- Wherever the server is seen or stored, it has the same spec. -/
structure Cluster.Steady (server : Server) (t : Trace) (c : Cluster) : Prop where
  shown : ∀ live : Server, ⟨.unifiedPushServer, live⟩ ∈ shown t → nsOf live = nsOf server →
    nameOf live = nameOf server → live.spec = server.spec
  stored : ∀ live, c.get? .unifiedPushServer (nsOf server) (nameOf server) = some live →
    live.spec = server.spec

theorem Fetched.spec_eq (h : Fetched (nsOf server) (nameOf server) t live)
    (ht : ∀ e ∈ t, e.InPlace) (hsteady : c.Steady server t) : live.spec = server.spec := by
  induction h with
  | get hget =>
    obtain ⟨hns, hname⟩ := ht _ hget
    exact hsteady.shown _ (mem_shown_of_get hget) hns hname
  | written hfetched hwritten _ =>
    obtain ⟨hns, hname⟩ := hfetched.inPlace ht
    obtain ⟨hns', hname'⟩ := ht _ hwritten
    exact hsteady.shown _ (mem_shown_of_entry hwritten List.mem_cons_self) (hns'.trans hns)
      (hname'.trans hname)
  | withStatus _ _ ih => exact ih

theorem Fetched.alike (h : Fetched (nsOf server) (nameOf server) t live)
    (ht : ∀ e ∈ t, e.InPlace) (hsteady : c.Steady server t) (hns : nsOf server ≠ "")
    (hname : nameOf server ≠ "") : server.Alike live := by
  obtain ⟨hliveNs, hliveName⟩ := h.inPlace ht
  have hserverName : server.metadata.name = some (nameOf server) := eq_some_of_getD rfl hname
  refine ⟨h.spec_eq ht hsteady, ?_, ?_, _, hserverName⟩
  · exact (eq_some_of_getD hliveNs hns).trans (eq_some_of_getD rfl hns).symm
  · exact (eq_some_of_getD hliveName hname).trans hserverName.symm

/-! ## Calls -/

/-- From one cluster to another there is no more drift, and less if a correction was accepted. -/
structure Cluster.Ebbs (settings : Settings) (server : Server) (c : Cluster) (t : Trace)
    (c' : Cluster) : Prop where
  le : c'.drift settings server ≤ c.drift settings server
  lt : Corrected t → c'.drift settings server < c.drift settings server

theorem Cluster.Ebbs.of_le (h : c'.drift settings server ≤ c.drift settings server)
    (hclear : ¬Corrected t) : c.Ebbs settings server t c' :=
  ⟨h, fun hcorrected => (hclear hcorrected).elim⟩

theorem Cluster.Ebbs.trans (h : c.Ebbs settings server t c') (h' : c'.Ebbs settings server t' c'') :
    c.Ebbs settings server (t ++ t') c'' := by
  refine ⟨h'.le.trans h.le, fun hcorrected => ?_⟩
  rcases corrected_append.1 hcorrected with hcorrected | hcorrected
  · exact h'.le.trans_lt (h.lt hcorrected)
  · exact (h'.lt hcorrected).trans_le h.le

section

variable (hnames : settings.upsContainerName ≠ settings.oauthProxyContainerName)
  (hrecent : Recent t c) (ht : ∀ e ∈ t, e.InPlace)
  (halike : ∀ live, Fetched ns name t live → server.Alike live)
include hnames hrecent ht halike

/-- A correction that is accepted was made of the child that is stored. -/
theorem drift_answer_lt {updated : Object k} (hk : k ∈ correctedKinds)
    (hwarranted : Warranted settings ns name t (.update k o))
    (hanswer : c.answer (.update k o) = (.ok updated, c')) :
    c'.drift settings server < c.drift settings server := by
  obtain ⟨live, hfetched, hwarrant⟩ := hwarranted.2 rfl
  cases hwarrant with
  | @correct _ ns' name' found _ hns hget hcorrects =>
    have hlive := halike live hfetched
    have hmetadata := hcorrects.metadata
    obtain ⟨hstored, -, -, rfl⟩ :=
      hrecent.of_replace_ok (mem_shown_of_get hget) (by rw [hmetadata]) hanswer
    have hplace : nsOf o = nsOf server ∧ nameOf o = name' := by
      have hserver : nsOf server = ns' := by
        rw [nsOf, ← hlive.ns, hns]
        rfl
      rw [nsOf, nameOf, hmetadata, hserver]
      exact ht _ hget
    rw [hplace.1, hplace.2] at hstored ⊢
    rw [merged_eq_withSpec hmetadata, ← hcorrects.eq_withSpec]
    exact drift_store_corrected hnames (hlive.corrects hcorrects) hstored
  | spec _ hspec => exact (not_corrected_of_spec k hspec hk).elim
  | job => exact absurd hk (by decide)

theorem drift_answer_le (hwarranted : Warranted settings ns name t r) :
    (c.answer r).2.drift settings server ≤ c.drift settings server := by
  by_cases hwrites : ∃ k ∈ correctedKinds, r.Writes k
  · obtain ⟨k', hk', hwrites⟩ := hwrites
    obtain ⟨live, hfetched, hwarrant⟩ := hwarranted.2 hwrites.isWrite
    cases hwarrant with
    | @create k o reference hbuilds =>
      rcases hanswer : c.answer (.create k (o.withOwner reference)) with ⟨error | created, c'⟩
      · obtain ⟨rfl, -⟩ := answer_error hanswer
        exact Nat.le_refl _
      · obtain ⟨-, -, rfl⟩ := answer_create.1 hanswer
        exact drift_store_built (o := o) hnames reference ((halike live hfetched).builds hbuilds)
    | @correct k _ _ _ o _ _ hcorrects =>
      rcases hanswer : c.answer (.update k o) with ⟨error | updated, c'⟩
      · obtain ⟨rfl, -⟩ := answer_error hanswer
        exact Nat.le_refl _
      · have hk := hcorrects.mem_correctedKinds
        exact (drift_answer_lt hnames hrecent ht halike hk hwarranted hanswer).le
    | spec _ hk =>
      cases hwrites
      exact (not_corrected_of_spec _ hk hk').elim
    | job =>
      cases hwrites
      exact absurd hk' (by decide)
    | status =>
      cases hwrites
      exact absurd hk' (by decide)
    | delete _ hk =>
      cases hwrites
      exact (not_corrected_of_deleted _ hk hk').elim
  · -- What writes no claims and no deployments leaves the drift as it is.
    have hsame : SameChildren server c (c.answer r).2 :=
      sameChildren_of_shelf fun k hk => shelf_answer c fun hk' => hwrites ⟨k, hk, hk'⟩
    exact (hsame.drift_eq settings).le

theorem ebbs_of_flaky {a : Except Error r.Reply} (hwarranted : Warranted settings ns name t r)
    (hanswer : flaky r c a c') : c.Ebbs settings server [.call r a] c' := by
  have hle := drift_answer_le hnames hrecent ht halike hwarranted
  constructor
  · -- Behind an error the request may have had its effect.
    rcases flaky_cases hanswer with rfl | rfl
    · exact Nat.le_refl _
    · exact hle
  · rintro ⟨e, he, hcorrects⟩
    obtain rfl := List.mem_singleton.1 he
    unfold Entry.Corrects at hcorrects
    split at hcorrects
    · next heq =>
      obtain ⟨rfl, heq⟩ := Entry.call.inj heq
      obtain rfl := eq_of_heq heq
      have hanswered := flaky_ok_iff.1 hanswer
      exact drift_answer_lt hnames hrecent ht halike hcorrects.1 hwarranted hanswered
    · exact hcorrects.elim

end

/-! ## Passes -/

/-- What others do who leave the children of a server alone. They may write the server itself, but
they give it no other spec. -/
structure Cluster.Tended (server : Server) (c c' : Cluster) : Prop where
  becomes : c.Becomes c'
  children : c.SameChildren server c'
  spec : ∀ after, c'.get? .unifiedPushServer (nsOf server) (nameOf server) = some after →
    after.spec = server.spec ∨
      ∃ before, c.get? .unifiedPushServer (nsOf server) (nameOf server) = some before ∧
        after.spec = before.spec

/-- A server that is kept keeps its spec. -/
theorem Cluster.ServersKept.spec (h : c.ServersKept c')
    (hlive : c'.get? .unifiedPushServer ns name = some live) :
    ∃ before, c.get? .unifiedPushServer ns name = some before ∧ live.spec = before.spec := by
  obtain ⟨before, status, hbefore, hsame⟩ := h.exists_get? hlive
  exact ⟨before, hbefore, congrArg (·.spec) hsame⟩

theorem Cluster.Tended.refl (server : Server) (c : Cluster) : c.Tended server c where
  becomes := .refl
  children := ⟨rfl, rfl, rfl⟩
  spec after hafter := .inr ⟨after, hafter, rfl⟩

theorem Cluster.Steady.tended (h : c.Steady server t) (hothers : c.Tended server c') :
    c'.Steady server t := by
  refine ⟨h.shown, fun live hlive => ?_⟩
  rcases hothers.spec live hlive with hsame | ⟨before, hbefore, hsame⟩
  · exact hsame
  · exact hsame.trans (h.stored before hbefore)

theorem Cluster.Steady.call {a : Except Error r.Reply} (h : c.Steady server t) (hc : c.Stamped)
    (hwarranted : Warranted settings ns name t r) (hanswer : flaky r c a c') :
    c'.Steady server (t ++ [.call r a]) := by
  have hstored (live : Server)
      (hlive : c'.get? .unifiedPushServer (nsOf server) (nameOf server) = some live) :
      live.spec = server.spec := by
    rcases flaky_cases hanswer with rfl | rfl
    · exact h.stored live hlive
    · obtain ⟨before, hbefore, hsame⟩ := (serversKept_of_answer hc hwarranted).spec hlive
      exact hsame.trans (h.stored before hbefore)
  refine ⟨fun live hlive hns hname => ?_, hstored⟩
  rw [shown_concat, List.mem_append] at hlive
  rcases hlive with hlive | hlive
  · exact h.shown live hlive hns hname
  · have hget := stored_of_shows hc.keyed hanswer hlive
    dsimp only at hget
    rw [hns, hname] at hget
    exact hstored live hget

theorem Cluster.Steady.concat {e : Entry} (h : c.Steady server t) (he : e.shows = []) :
    c.Steady server (t ++ [e]) := by
  refine ⟨fun live hlive => h.shown live ?_, h.stored⟩
  rwa [shown_concat, he, List.append_nil] at hlive

/-- The steps of a pass make no drift grow, and there is less once a correction was accepted. -/
theorem ebbs_of_steps (hnames : settings.upsContainerName ≠ settings.oauthProxyContainerName)
    (hns : nsOf server ≠ "") (hname : nameOf server ≠ "") (hc : c.Stamped)
    (hsteady : c.Steady server [])
    (h : Steps (amid (Tended server)) (reconcile settings (nsOf server) (nameOf server)).run c t x
      c') : c'.Steady server t ∧ c.Ebbs settings server t c' := by
  induction h with
  | refl => exact ⟨hsteady, .of_le (Nat.le_refl _) not_corrected_nil⟩
  | step hsteps hlast ih =>
    obtain ⟨hsteady₀, hebbs⟩ := ih
    cases hlast with
    | call hcall =>
      obtain ⟨c₁, hothers, hanswer⟩ := hcall
      obtain ⟨hstamped, hrecent⟩ := recent_of_steps (fun _ _ h => h.becomes) hc hsteps
      have hplaces := (inPlace_of_steps (fun _ _ h => h.becomes) hc.keyed hsteps).2
      have hwarranted := warranted_of_steps hsteps
      have hsteady₁ := hsteady₀.tended hothers
      have halike (live : Server) (hlive : Fetched (nsOf server) (nameOf server) _ live) :
          server.Alike live := hlive.alike hplaces hsteady₁ hns hname
      refine ⟨hsteady₁.call (hothers.becomes.stamped hstamped) hwarranted hanswer, ?_⟩
      have hbetween : Ebbs settings server _ [] c₁ :=
        .of_le (hothers.children.drift_eq settings).le not_corrected_nil
      exact hebbs.trans (hbetween.trans
        (ebbs_of_flaky hnames (hrecent.becomes hothers.becomes) hplaces halike hwarranted hanswer))
    | emit | secret =>
      refine ⟨hsteady₀.concat rfl, hebbs.trans (.of_le (Nat.le_refl _) ?_)⟩
      rintro ⟨e, he, hcorrects⟩
      obtain rfl := List.mem_singleton.1 he
      exact hcorrects

/-! ## Runs of passes -/

/-- A pass has come to its end and asks to be run again after a second. -/
def asksAgain : Option (Except Error Action) → Bool
  | some (.ok (.requeue 1)) => true
  | _ => false

theorem asksAgain_iff {outcome : Option (Except Error Action)} :
    asksAgain outcome = true ↔ outcome = some (.ok (.requeue 1)) := by
  constructor
  · intro h
    unfold asksAgain at h
    split at h
    · rfl
    · cases h
  · rintro rfl
    rfl

/-- What becomes of a cluster when passes are run over a server, to their end or not, while calls
may fail and others are at work. The outcomes of the passes are listed, the last one first. -/
inductive Cluster.Passes (settings : Settings) (server : Server) (c : Cluster) :
    List (Option (Except Error Action)) → Cluster → Prop
  | refl : Passes settings server c [] c
  | others {outcomes : List (Option (Except Error Action))} {c' c'' : Cluster} :
    Passes settings server c outcomes c' → c'.Tended server c'' →
    Passes settings server c outcomes c''
  | pass {outcomes : List (Option (Except Error Action))} {c' c'' : Cluster} {t : Trace}
    {outcome : Option (Except Error Action)} : Passes settings server c outcomes c' →
    Run (amid (Tended server)) (reconcile settings (nsOf server) (nameOf server)).run c' t outcome
      c'' →
    Passes settings server c (outcome :: outcomes) c''

section

variable {outcome : Option (Except Error Action)} {outcomes : List (Option (Except Error Action))}
  (hnames : settings.upsContainerName ≠ settings.oauthProxyContainerName)
  (hns : nsOf server ≠ "") (hname : nameOf server ≠ "") (hc : c.Stamped)
  (hsteady : c.Steady server [])
include hnames hns hname hc hsteady

/-- A pass makes no drift grow, and one that asks to be run again makes it less. -/
theorem drift_of_run (h : Run (amid (Tended server))
    (reconcile settings (nsOf server) (nameOf server)).run c t outcome c') :
    c'.Stamped ∧ c'.Steady server [] ∧ c'.drift settings server ≤ c.drift settings server ∧
      (asksAgain outcome = true → c'.drift settings server < c.drift settings server) := by
  obtain ⟨x, hsteps, hend⟩ := Steps.of_run h
  obtain ⟨hsteady', hebbs⟩ := ebbs_of_steps hnames hns hname hc hsteady hsteps
  obtain ⟨hstamped, -⟩ := recent_of_steps (fun _ _ h => h.becomes) hc hsteps
  refine ⟨hstamped, ⟨by simp [shown], hsteady'.stored⟩, hebbs.le, fun hagain => ?_⟩
  obtain rfl := hend _ (asksAgain_iff.1 hagain)
  have hends : Corrected ([] ++ t) ↔ _ := grounded_reconcile.steps hsteps
  exact hebbs.lt (hends.2 rfl)

/-- Every pass that asks to be run again is paid for with drift. -/
theorem Cluster.Passes.drift (h : c.Passes settings server outcomes c') :
    c'.Stamped ∧ c'.Steady server [] ∧
      outcomes.countP asksAgain + c'.drift settings server ≤ c.drift settings server := by
  induction h with
  | refl => exact ⟨hc, hsteady, by simp⟩
  | others _ hothers ih =>
    obtain ⟨hstamped, hsteady', hle⟩ := ih
    rw [← hothers.children.drift_eq settings] at hle
    exact ⟨hothers.becomes.stamped hstamped, hsteady'.tended hothers, hle⟩
  | pass _ hrun ih =>
    obtain ⟨hstamped, hsteady', hle⟩ := ih
    obtain ⟨hstamped', hsteady'', hpassLe, hpassLt⟩ :=
      drift_of_run hnames hns hname hstamped hsteady' hrun
    refine ⟨hstamped', hsteady'', ?_⟩
    rw [List.countP_cons]
    split
    · next hagain =>
      have hless := hpassLt hagain
      omega
    · omega

end

/-- Passes are run over a server of which the spec stays, any calls fail, and others leave the
children alone that are put right field by field. Then there are at most as many passes that ask to
be run again at once as fields have drifted, and these are seven at most. Whatever pass comes next,
it makes the drift no greater, and if it asks to be run again it has made it less. -/
theorem driftTerminates_of_passes {outcomes : List (Option (Except Error Action))}
    (hnames : settings.upsContainerName ≠ settings.oauthProxyContainerName)
    (hns : nsOf server ≠ "") (hname : nameOf server ≠ "") (hc : c.Stamped)
    (hspec : ∀ live, c.get? .unifiedPushServer (nsOf server) (nameOf server) = some live →
      live.spec = server.spec)
    (h : c.Passes settings server outcomes c') :
    outcomes.countP asksAgain ≤ c.drift settings server ∧ c.drift settings server ≤ 7 ∧
      ∀ t outcome c'', Run (amid (Tended server))
          (reconcile settings (nsOf server) (nameOf server)).run c' t outcome c'' →
        c''.drift settings server ≤ c'.drift settings server ∧
          (outcome = some (.ok (.requeue 1)) →
            c''.drift settings server < c'.drift settings server) := by
  have hsteady : c.Steady server [] := ⟨by simp [shown], hspec⟩
  obtain ⟨hstamped, hsteady', hle⟩ := h.drift hnames hns hname hc hsteady
  refine ⟨by omega, drift_le_seven c settings server, fun t outcome c'' hrun => ?_⟩
  obtain ⟨-, -, hpassLe, hpassLt⟩ := drift_of_run hnames hns hname hstamped hsteady' hrun
  exact ⟨hpassLe, fun hagain => hpassLt (asksAgain_iff.2 hagain)⟩

/-- The claim of a server has drifted. A pass asks to be run again, and then there is less drift. -/
theorem driftTerminates_of_passes_driftedCluster : ∃ c',
    driftedCluster.Passes {} (sampleServer "a") [some (.ok (.requeue 1))] c' ∧
      1 ≤ driftedCluster.drift {} (sampleServer "a") ∧
      driftedCluster.drift {} (sampleServer "a") ≤ 7 ∧
      c'.drift {} (sampleServer "a") < driftedCluster.drift {} (sampleServer "a") := by
  obtain ⟨t, c', hrun⟩ := exists_run_driftedCluster
  have hamid : Run (amid (Tended (sampleServer "a"))) (reconcile {} "push" "a").run driftedCluster t
      (some (.ok (.requeue 1))) c' :=
    hrun.mono (amid_of_reliable (.refl _))
  have hspec (live : Server) (hlive : driftedCluster.get? .unifiedPushServer
      (nsOf (sampleServer "a")) (nameOf (sampleServer "a")) = some live) :
      live.spec = (sampleServer "a").spec := by
    obtain rfl := Option.some.inj hlive
    rfl
  have hnames : Settings.upsContainerName {} ≠ Settings.oauthProxyContainerName {} := by decide
  have hstart : driftedCluster.Passes {} (sampleServer "a") [] driftedCluster := .refl
  have hpasses : driftedCluster.Passes {} (sampleServer "a") [some (.ok (.requeue 1))] c' :=
    .pass hstart hamid
  obtain ⟨hcount, hseven, -⟩ := driftTerminates_of_passes hnames (by decide) (by decide)
    stamped_driftedCluster hspec hpasses
  obtain ⟨-, -, hnext⟩ := driftTerminates_of_passes hnames (by decide) (by decide)
    stamped_driftedCluster hspec hstart
  exact ⟨c', hpasses, hcount, hseven, (hnext t _ c' hamid).2 rfl⟩

example : driftedCluster.drift {} (sampleServer "a") = 1 := by decide +kernel

end PushOperator
