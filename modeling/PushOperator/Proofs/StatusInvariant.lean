import PushOperator.Proofs.Cluster.Shared
import PushOperator.Proofs.Cluster.Versions
import PushOperator.Proofs.Interaction.Invariant
import PushOperator.Proofs.Pass.Outcome

/-!
# What a status says

A pass changes the status of its server up to three times in memory and tries to write it at most as
often; a write may be refused, and the pass may be cut short. Meanwhile others may edit the server.
Whatever happens, the fields of a stored status agree with each other and with the generation that
was current when it was written (`coherent_of_reaches`).

A write is refused unless the pass has read the latest version. So it is enough that what the pass
has in mind is right about the version that it has read (`Recalls`).
-/

namespace PushOperator

open Cluster Interaction

/-- The fields of a status agree with each other. -/
structure ServerStatus.Coherent (status : ServerStatus) : Prop where
  phase : status.phase ≠ .empty
  ready : status.ready = true ↔ status.phase = .reconciling
  message : status.message ≠ "" ↔ status.phase = .failing
  distinct : status.secondaryResources.Distinct

namespace Server

variable {server : Server}

theorem coherent_start (hnone : server.status = none) :
    (statusOrDefault (start server)).Coherent := by
  have hnew : isNew server = true := by
    unfold isNew phase
    rw [hnone]
    rfl
  have hstart : statusOrDefault (start server) = { phase := .initializing } := by
    unfold start
    rw [if_pos hnew]
    unfold statusOrDefault
    rw [hnone]
    rfl
  rw [hstart]
  exact ⟨by simp, by simp, by simp, Registry.distinct_empty⟩

theorem coherent_succeed {children : Registry} (ready : Bool) (hchildren : children.Distinct) :
    (statusOrDefault (succeed server ready children)).Coherent := by
  have hstatus : statusOrDefault (succeed server ready children) = { statusOrDefault server with
      phase := if ready then .reconciling else .initializing
      ready
      message := ""
      secondaryResources := children } := rfl
  rw [hstatus]
  cases ready with
  | true => exact ⟨by simp, by simp, by simp, hchildren⟩
  | false => exact ⟨by simp, by simp, by simp, hchildren⟩

theorem coherent_fail {error : Error} (hwords : error.message ≠ "")
    (hdistinct : (statusOrDefault server).secondaryResources.Distinct) :
    (statusOrDefault (fail server error)).Coherent := by
  have hstatus : statusOrDefault (fail server error) = { statusOrDefault server with
      phase := .failing
      ready := false
      message := error.message } := rfl
  rw [hstatus]
  exact ⟨by simp, by simp, by simp [hwords], hdistinct⟩

theorem coherent_observe (h : (statusOrDefault server).Coherent) :
    (statusOrDefault server.observe).Coherent := by
  have hstatus : statusOrDefault server.observe =
      observeStatus (statusOrDefault server) server.metadata := rfl
  rw [hstatus]
  unfold observeStatus
  split
  · exact ⟨h.phase, h.ready, h.message, h.distinct⟩
  · exact h

/-- A status describes the generation of its server, also if neither has one. -/
theorem observedGeneration_observe (h : server.metadata.generation = none →
      (statusOrDefault server).observedGeneration = none) :
    (statusOrDefault server.observe).observedGeneration = server.metadata.generation := by
  have hstatus : statusOrDefault server.observe =
      observeStatus (statusOrDefault server) server.metadata := rfl
  rw [hstatus]
  unfold observeStatus
  cases hgeneration : server.metadata.generation with
  | none => exact h hgeneration
  | some generation => rfl

end Server

variable {α β : Type} {settings : Settings} {ns name : String} {server live : Server}
  {s s' : Shared} {st : PassState}

/-! ## What is stored and what is in mind -/

/-- An object has a version that the cluster has given. -/
def Cluster.Versioned {k : Kind} (c : Cluster) (o : Object k) : Prop :=
  ∃ n ≤ c.revision, o.metadata.resourceVersion = some (toString n)

/-- The server is stored, and if it has a status, that is coherent and describes the generation that
the server had when it was written. -/
structure Kept (ns name : String) (s : Shared) (live : Server) : Prop where
  get? : s.cluster.get? .unifiedPushServer ns name = some live
  place : nsOf live = ns ∧ nameOf live = name
  versioned : s.cluster.Versioned live
  coherent : ∀ status, live.status = some status →
    status.Coherent ∧ status.observedGeneration = s.written
  generation : live.metadata.generation = none →
    ∀ status, live.status = some status → status.observedGeneration = none

theorem Kept.since (h : Kept ns name s live) (hsince : Shared.Since ns name s s') :
    ∃ live', Kept ns name s' live' := by
  obtain ⟨hmeanwhile, hwritten⟩ := hsince
  rcases hmeanwhile.server with hsame | ⟨live', edited, hlive, hedited, hedit⟩
  · obtain ⟨n, hle, hversion⟩ := h.versioned
    refine ⟨live, hsame.trans h.get?, h.place, ⟨n, ?_, hversion⟩, ?_, h.generation⟩
    · exact Nat.le_trans hle hmeanwhile.revision
    · rw [hwritten]
      exact h.coherent
  · obtain rfl : live = live' := Option.some.inj (h.get?.symm.trans hlive)
    obtain ⟨m, -, hle, hversion⟩ := hedit.version
    refine ⟨edited, hedited, ?_, ⟨m, hle, hversion⟩, ?_, ?_⟩
    · rw [hedit.ns, hedit.name]
      exact h.place
    · rw [hedit.status, hwritten]
      exact h.coherent
    · intro hnone
      rw [hedit.status]
      refine h.generation (Classical.byContradiction fun hsome => ?_)
      exact hedit.generation hsome hnone

/-- What a pass has in mind is the server of some version, and what it knows of it is still right if
that is the version that is stored. Its status is one to go on from. -/
structure Recalls (ns name : String) (s : Shared) (server : Server) : Prop where
  place : nsOf server = ns ∧ nameOf server = name
  versioned : s.cluster.Versioned server
  live : ∀ live, s.cluster.get? .unifiedPushServer ns name = some live →
    live.metadata.resourceVersion = server.metadata.resourceVersion →
    live.metadata.generation = server.metadata.generation
  seen : Server.phase server = .empty → server.status = none
  distinct : (Server.statusOrDefault server).secondaryResources.Distinct
  generation : server.metadata.generation = none →
    (Server.statusOrDefault server).observedGeneration = none

/-- The stored server is one to have in mind. -/
theorem Kept.recalls (h : Kept ns name s live) : Recalls ns name s live := by
  refine ⟨h.place, h.versioned, ?_, ?_, ?_, ?_⟩
  · intro live' hlive' _
    obtain rfl : live = live' := Option.some.inj (h.get?.symm.trans hlive')
    rfl
  · intro hphase
    cases hstatus : live.status with
    | none => rfl
    | some status =>
      unfold Server.phase at hphase
      rw [hstatus] at hphase
      exact absurd hphase (h.coherent status hstatus).1.phase
  · unfold Server.statusOrDefault
    cases hstatus : live.status with
    | none => exact Registry.distinct_empty
    | some status => exact (h.coherent status hstatus).1.distinct
  · intro hnone
    unfold Server.statusOrDefault
    cases hstatus : live.status with
    | none => rfl
    | some status => exact h.generation hnone status hstatus

/-- Once there is a newer version, what was in mind is out of date, but not wrong. -/
theorem Recalls.outdated {m : Nat} (h : Recalls ns name s server)
    (hrevision : s.cluster.revision ≤ s'.cluster.revision)
    (hlive : s'.cluster.get? .unifiedPushServer ns name = some live)
    (hversion : live.metadata.resourceVersion = some (toString m)) (hm : s.cluster.revision < m) :
    Recalls ns name s' server := by
  obtain ⟨n, hle, hread⟩ := h.versioned
  refine { h with versioned := ⟨n, Nat.le_trans hle hrevision, hread⟩, live := ?_ }
  intro live' hlive' hsame
  obtain rfl : live = live' := Option.some.inj (hlive.symm.trans hlive')
  rw [hversion, hread] at hsame
  obtain rfl : m = n := eq_of_toString_eq (Option.some.inj hsame)
  exact absurd hle (Nat.not_le_of_lt hm)

theorem Recalls.since (h : Recalls ns name s server) (hsince : Shared.Since ns name s s') :
    Recalls ns name s' server := by
  obtain ⟨hmeanwhile, -⟩ := hsince
  rcases hmeanwhile.server with hsame | ⟨_, edited, -, hedited, hedit⟩
  · obtain ⟨n, hle, hversion⟩ := h.versioned
    exact { h with
      versioned := ⟨n, Nat.le_trans hle hmeanwhile.revision, hversion⟩
      live := fun live hlive => h.live live (hsame ▸ hlive) }
  · obtain ⟨m, hlt, -, hversion⟩ := hedit.version
    exact h.outdated hmeanwhile.revision hedited hversion hlt

/-- Another status in mind. -/
theorem Recalls.withStatus {status : ServerStatus} (h : Recalls ns name s server)
    (hcoherent : status.Coherent)
    (hgeneration : server.metadata.generation = none → status.observedGeneration = none) :
    Recalls ns name s (Server.withStatus server status) :=
  ⟨h.place, h.versioned, h.live, fun hphase => absurd hphase hcoherent.phase, hcoherent.distinct,
    hgeneration⟩

theorem Recalls.observe (h : Recalls ns name s server)
    (hcoherent : (Server.statusOrDefault server).Coherent) : Recalls ns name s server.observe := by
  refine h.withStatus (Server.coherent_observe hcoherent) fun hnone => ?_
  exact (Server.observedGeneration_observe h.generation).trans hnone

/-- A coherent status that is written is stored, in a new version of the server. -/
theorem Kept.written {updated : Server} (h : Kept ns name s live)
    (hrecalls : Recalls ns name s server) (hcoherent : (Server.statusOrDefault server).Coherent)
    (hworld : Shared.world ns name (.updateStatus .unifiedPushServer server.observe) s (.ok updated)
      s') :
    Kept ns name s' updated ∧ Recalls ns name s' server := by
  obtain ⟨c, hmeanwhile, hanswer, hnoted⟩ := hworld
  have hsince : Shared.Since ns name s ⟨c, s.written⟩ := ⟨hmeanwhile, rfl⟩
  obtain ⟨live₁, hkept₁⟩ := h.since hsince
  have hrecalls₁ := hrecalls.since hsince
  obtain ⟨stored, hget, hfresh, hupdated, hcluster⟩ := answer_updateStatus.1 (refusing_ok hanswer)
  have hplace : nsOf server.observe = ns ∧ nameOf server.observe = name := hrecalls.place
  rw [hplace.1, hplace.2] at hget hcluster
  obtain rfl : live₁ = stored := Option.some.inj (hkept₁.get?.symm.trans hget)
  obtain ⟨n, -, hversion⟩ := hrecalls₁.versioned
  have hgeneration : live₁.metadata.generation = server.metadata.generation :=
    hrecalls₁.live live₁ hget (version_of_fresh hfresh hversion)
  have hobserved := Server.observedGeneration_observe hrecalls.generation
  have hstored : s'.cluster.get? .unifiedPushServer ns name = some updated := by
    rw [hcluster, hupdated]
    exact get?_store_self c ns name _
  have hrevision : s'.cluster.revision = c.revision + 1 := by
    rw [hcluster]
    rfl
  have hwritten : s'.written = server.metadata.generation := by
    rw [hnoted, ← hgeneration]
    show (if _ then updated.metadata.generation else _) = _
    rw [if_pos hplace, hupdated]
    rfl
  have hstatus : updated.status = some (Server.statusOrDefault server.observe) := by
    rw [hupdated]
    rfl
  have hversion' : updated.metadata.resourceVersion = some (toString (c.revision + 1)) := by
    rw [hupdated]
    rfl
  refine ⟨⟨hstored, ?_, ⟨_, ?_, hversion'⟩, ?_, ?_⟩, ?_⟩
  · rw [hupdated]
    exact hkept₁.place
  · exact Nat.le_of_eq hrevision.symm
  · intro status h
    obtain rfl := Option.some.inj (hstatus.symm.trans h)
    exact ⟨Server.coherent_observe hcoherent, hobserved.trans hwritten.symm⟩
  · intro hnone status h
    obtain rfl := Option.some.inj (hstatus.symm.trans h)
    rw [hupdated] at hnone
    rw [hobserved, ← hgeneration]
    exact hnone
  · refine hrecalls₁.outdated ?_ hstored hversion' (Nat.lt_succ_self _)
    rw [hrevision]
    exact Nat.le_succ _

/-! ## Parts of passes -/

/-- Errors of the API have words. -/
theorem message_of_api {error : Error} (h : error.message ≠ "" ∨ ∃ e, error = .api e) :
    error.message ≠ "" := by
  rcases h with hwords | ⟨e, rfl⟩
  · exact hwords
  · exact Error.message_ne_empty (by simp)

namespace Pass

/-- Wherever a part of a pass ends, the stored status is as it should be, the pass is right about
what it has read, and if it has failed, it can say why. -/
structure Sustained (ns name : String) (p : Except Halt α × PassState) (s : Shared) : Prop where
  kept : ∃ live, Kept ns name s live
  recalls : Recalls ns name s p.2.server
  children : p.2.children.Distinct
  words : ∀ error, p.1 = .error (.failed error) → error.message ≠ ""

/-- Whatever is answered, the stored status is as it should be, and in the end it is as `post` says.
-/
abbrev Guards (ns name : String) (post : α → Shared → Prop) (x : Interaction α) (s : Shared) :
    Prop :=
  x.Secures (Shared.world ns name) (fun s => ∃ live, Kept ns name s live) post s

/-- A part of a pass keeps the stored status as it should be. -/
def Sustains (ns name : String) (x : Pass α) : Prop :=
  ∀ st s, (∃ live, Kept ns name s live) → Recalls ns name s st.server → st.children.Distinct →
    Guards ns name (Sustained ns name) (x.exec st) s

theorem sustains_pure (a : α) : Sustains ns name (pure a) := by
  intro st s hkept hrecalls hchildren
  refine ⟨hkept, hrecalls, hchildren, ?_⟩
  intro error h
  cases h

theorem Sustains.bind {x : Pass α} {f : α → Pass β} (hx : Sustains ns name x)
    (hf : ∀ a, Sustains ns name (f a)) : Sustains ns name (x >>= f) := by
  intro st s hkept hrecalls hchildren
  rw [exec_bind]
  refine secures_bind (hx st s hkept hrecalls hchildren) ?_
  rintro ⟨halt | a, st'⟩ s' hsustained
  · refine ⟨hsustained.kept, hsustained.recalls, hsustained.children, ?_⟩
    intro error h
    exact hsustained.words error (congrArg Except.error (Except.error.inj h))
  · exact hf a st' s' hsustained.kept hsustained.recalls hsustained.children

/-- A part that writes no server and heeds what stands in its way. -/
theorem sustains_of_heeds {kinds : List Kind} {x : Pass α} (hwrites : WritesOnly kinds x)
    (hkinds : .unifiedPushServer ∉ kinds)
    (hheeds : ∀ server, Heeds settings server (fun error => ∃ e, error = .api e) x) :
    Sustains ns name x := by
  rintro st s ⟨live, hkept⟩ hrecalls hchildren
  have hothers := (hwrites st.server st.stored st ⟨rfl, rfl⟩).secures
    (Shared.honors_writesOnly hkinds s) ⟨Meanwhile.refl ns name s.cluster, rfl⟩
  have hboth := (hothers.weaken fun _ => hkept.since).and_heeds
    (hheeds st.server st rfl hchildren) fun _ _ _ _ h => Shared.error_of_world h
  refine hboth.mono ?_
  rintro ⟨r, st'⟩ s' ⟨⟨-, hsince⟩, hserver, hdistinct, hwords⟩
  refine ⟨hkept.since hsince, ?_, hdistinct, fun error h => message_of_api (hwords error h)⟩
  rw [hserver]
  exact hrecalls.since hsince

/-- Storing a coherent status. -/
theorem guards_persist (hkept : Kept ns name s live) (hrecalls : Recalls ns name s st.server)
    (hchildren : st.children.Distinct)
    (hcoherent : (Server.statusOrDefault st.server).Coherent) :
    Guards ns name (Sustained ns name) (persist.exec st) s := by
  rw [exec_persist]
  split
  · refine ⟨⟨live, hkept⟩, hrecalls.observe hcoherent, hchildren, ?_⟩
    intro error h
    cases h
  · rintro (error | updated) s' hworld
    · have hsince := Shared.since_of_error hworld
      refine ⟨hkept.since hsince, hkept.since hsince, hrecalls.since hsince, hchildren, ?_⟩
      intro error' h
      obtain rfl := Halt.failed.inj (Except.error.inj h)
      exact message_of_api (.inr (Shared.error_of_world hworld))
    · obtain ⟨hwritten, houtdated⟩ := hkept.written hrecalls hcoherent hworld
      refine ⟨⟨updated, hwritten⟩, ?_⟩
      cases hplaced : placed st.server.metadata with
      | ok =>
        refine ⟨⟨updated, hwritten⟩, hwritten.recalls, hchildren, ?_⟩
        intro error h
        cases h
      | error error =>
        refine ⟨⟨updated, hwritten⟩, houtdated, hchildren, ?_⟩
        intro error' h
        obtain rfl := Halt.failed.inj (Except.error.inj h)
        have hexplains : Explains (placed st.server.metadata) :=
          st.server.metadata.explains_requireNs.bind fun _ =>
            st.server.metadata.explains_requireName.bind fun _ => explains_ok ()
        exact hexplains _ hplaced

theorem sustains_deferToActive : Sustains ns name deferToActive := by
  have hheeds (server : Server) :
      Heeds {} server (fun error => ∃ e, error = .api e) deferToActive := heeds_deferToActive
  exact sustains_of_heeds writesOnly_deferToActive (by simp) hheeds

theorem sustains_start : Sustains ns name start := by
  rintro st s ⟨live, hkept⟩ hrecalls hchildren
  rw [exec_start]
  split
  · next hnew =>
    have hnone : st.server.status = none := hrecalls.seen (beq_iff_eq.1 hnew)
    have hstart : Server.start st.server = Server.withStatus st.server
        { Server.statusOrDefault st.server with phase := .initializing } := if_pos hnew
    have hcoherent := Server.coherent_start hnone
    rw [hstart] at hcoherent ⊢
    exact guards_persist hkept (hrecalls.withStatus hcoherent hrecalls.generation) hchildren
      hcoherent
  · exact sustains_pure () st s ⟨live, hkept⟩ hrecalls hchildren

theorem sustains_converge : Sustains ns name (converge settings) :=
  sustains_of_heeds writesOnly_converge (by decide) fun _ => heeds_converge

theorem sustains_succeed : Sustains ns name succeed := by
  rintro st s ⟨live, hkept⟩ hrecalls hchildren
  have hcoherent : (Server.statusOrDefault
      (Server.succeed st.server st.ready st.children)).Coherent :=
    Server.coherent_succeed st.ready hchildren
  exact guards_persist hkept (hrecalls.withStatus hcoherent hrecalls.generation)
    Registry.distinct_empty hcoherent

theorem sustains_body : Sustains ns name (body settings) :=
  sustains_deferToActive.bind fun _ => sustains_start.bind fun _ =>
    sustains_converge.bind fun _ => sustains_succeed.bind fun _ => sustains_pure _

/-- A pass that has failed still knows enough to say so. -/
theorem guards_conclude {error : Error} (hkept : Kept ns name s live)
    (hrecalls : Recalls ns name s st.server) (hchildren : st.children.Distinct)
    (hwords : error.message ≠ "") :
    Guards ns name (fun _ s => ∃ live, Kept ns name s live) (conclude error st) s := by
  have hcoherent : (Server.statusOrDefault (Server.fail st.server error)).Coherent :=
    Server.coherent_fail hwords hrecalls.distinct
  have hpersist : Guards ns name (Sustained ns name)
      (persist.exec { st with server := Server.fail st.server error }) s :=
    guards_persist hkept (hrecalls.withStatus hcoherent hrecalls.generation) hchildren hcoherent
  exact secures_bind hpersist fun _ _ hsustained => hsustained.kept

end Pass

/-- A pass keeps the stored status as it should be, at each of its calls and at its end. -/
theorem guards_reconcile (hkept : Kept ns name s live) :
    Pass.Guards ns name (fun _ s => ∃ live, Kept ns name s live) (reconcile settings ns name).run
      s := by
  cases hwatched : settings.watches ns with
  | false =>
    rw [run_reconcile_of_unwatched hwatched]
    exact ⟨live, hkept⟩
  | true =>
    rw [run_reconcile hwatched]
    rintro answer s' hworld
    have hsince : Shared.Since ns name s s' := Shared.since_of_not_writes id hworld
    obtain ⟨live', hkept'⟩ := hkept.since hsince
    refine ⟨⟨live', hkept'⟩, ?_⟩
    rcases answer with error | _ | server
    · exact ⟨live', hkept'⟩
    · exact ⟨live', hkept'⟩
    · obtain ⟨c, -, hanswer, -⟩ := hworld
      obtain ⟨hserver, hcluster⟩ := answer_get.1 (refusing_ok hanswer)
      obtain rfl : server = live' :=
        Option.some.inj (hserver.trans (hcluster ▸ hkept'.get?))
      have hbody : Pass.Guards ns name (Pass.Sustained ns name)
          ((Pass.body settings).exec { server, stored := server.status }) s' :=
        Pass.sustains_body _ s' ⟨server, hkept'⟩ hkept'.recalls Registry.distinct_empty
      refine secures_bind ?_ fun _ _ h => h
      rw [Pass.run_eq]
      refine secures_bind hbody ?_
      rintro ⟨(error | action) | action, st⟩ s'' hsustained
      · obtain ⟨live'', hkept''⟩ := hsustained.kept
        exact Pass.guards_conclude hkept'' hsustained.recalls hsustained.children
          (hsustained.words error rfl)
      · exact hsustained.kept
      · exact hsustained.kept

/-! ## Runs of passes -/

/-- What may become of a server: others go on with their work, and passes over it are run, each with
its own settings, to their end or not. -/
inductive Reaches (ns name : String) (s : Shared) : Shared → Prop
  | refl : Reaches ns name s s
  | others {s' : Shared} {c : Cluster} : Reaches ns name s s' → Meanwhile ns name s'.cluster c →
    Reaches ns name s { s' with cluster := c }
  | pass {s' s'' : Shared} {settings : Settings} {t : Trace} {o : Option (Except Error Action)} :
    Reaches ns name s s' →
    Run (Shared.world ns name) (reconcile settings ns name).run s' t o s'' → Reaches ns name s s''

theorem Kept.reaches (h : Kept ns name s live) (hreaches : Reaches ns name s s') :
    ∃ live', Kept ns name s' live' := by
  induction hreaches with
  | refl => exact ⟨live, h⟩
  | others _ hmeanwhile ih =>
    obtain ⟨live', hkept⟩ := ih
    exact hkept.since ⟨hmeanwhile, rfl⟩
  | pass _ hrun ih =>
    obtain ⟨live', hkept⟩ := ih
    exact ((guards_reconcile hkept).run ⟨live', hkept⟩ hrun).1

/-- In all that becomes of a server without a status, a status that is stored is coherent and
describes the generation that the server had when it was written. -/
theorem coherent_of_reaches {status : ServerStatus}
    (hget : s.cluster.get? .unifiedPushServer ns name = some server)
    (hplace : nsOf server = ns ∧ nameOf server = name) (hversioned : s.cluster.Versioned server)
    (hnone : server.status = none) (h : Reaches ns name s s')
    (hlive : s'.cluster.get? .unifiedPushServer ns name = some live)
    (hstatus : live.status = some status) :
    status.Coherent ∧ status.observedGeneration = s'.written := by
  have hkept : Kept ns name s server := by
    refine ⟨hget, hplace, hversioned, ?_, ?_⟩
    · rw [hnone]
      simp
    · rw [hnone]
      simp
  obtain ⟨live', hkept'⟩ := hkept.reaches h
  obtain rfl : live' = live := Option.some.inj (hkept'.get?.symm.trans hlive)
  exact hkept'.coherent status hstatus

def firstGeneration : Rehearsal where
  cluster := firstCluster

theorem coherent_of_reaches_firstGeneration : ∃ s' live status,
    Reaches "push" "a" ⟨firstGeneration.cluster, none⟩ s' ∧
    s'.cluster.get? .unifiedPushServer "push" "a" = some live ∧ live.status = some status ∧
    status.Coherent ∧ status.observedGeneration = s'.written := by
  obtain ⟨t, hrun⟩ := firstGeneration.isRun_of_unhooked (reconcile {} "push" "a") rfl
  have hstatus : (((firstGeneration.run (reconcile {} "push" "a")).2.cluster.get?
      .unifiedPushServer "push" "a").bind (·.status)).isSome = true := by
    decide +kernel
  generalize (firstGeneration.run (reconcile {} "push" "a")).2.cluster = c' at hrun hstatus
  obtain ⟨written, hrun'⟩ := Shared.exists_run_of_refusing hrun none
  obtain ⟨status, hsome⟩ := Option.isSome_iff_exists.1 hstatus
  obtain ⟨live, hlive, hlast⟩ := Option.bind_eq_some_iff.1 hsome
  have hreaches : Reaches "push" "a" ⟨firstGeneration.cluster, none⟩ ⟨c', written⟩ :=
    Reaches.pass .refl hrun'
  refine ⟨_, live, status, hreaches, hlive, hlast, ?_⟩
  exact coherent_of_reaches (s := ⟨firstGeneration.cluster, none⟩) get?_firstCluster ⟨rfl, rfl⟩
    ⟨_, Nat.le_refl _, rfl⟩ rfl hreaches hlive hlast

end PushOperator
