import PushOperator.Proofs.Cluster.World

/-!
# A cluster that others work on

While a pass is running, users edit servers and controllers write the objects that are theirs. Any
of them may do anything but write the status of the server that the pass is about; where they change
that server, the cluster gives it a new version, so a write by someone who has read an older one is
refused. Of every status that is written the world notes which generation its server had then.
-/

namespace PushOperator

/-- A server after an edit, which leaves its place and its status alone. Of all versions up to `n'`
the new one is later than `n`. A server that has a generation goes on to have one. -/
structure Server.Edited (n n' : Nat) (live edited : Server) : Prop where
  status : edited.status = live.status
  ns : Cluster.nsOf edited = Cluster.nsOf live
  name : Cluster.nameOf edited = Cluster.nameOf live
  generation : live.metadata.generation ≠ none → edited.metadata.generation ≠ none
  version : ∃ m, n < m ∧ m ≤ n' ∧ edited.metadata.resourceVersion = some (toString m)

namespace Cluster

variable {k : Kind} {ns name : String} {c c' c'' : Cluster}

/-- What others have done between two moments, as far as it matters to one server: they may have
edited it. -/
structure Meanwhile (ns name : String) (c c' : Cluster) : Prop where
  revision : c.revision ≤ c'.revision
  server : c'.get? .unifiedPushServer ns name = c.get? .unifiedPushServer ns name ∨
    ∃ live edited, c.get? .unifiedPushServer ns name = some live ∧
      c'.get? .unifiedPushServer ns name = some edited ∧
      Server.Edited c.revision c'.revision live edited

theorem Meanwhile.refl (ns name : String) (c : Cluster) : Meanwhile ns name c c :=
  ⟨Nat.le_refl _, .inl rfl⟩

theorem Meanwhile.trans (h : Meanwhile ns name c c') (h' : Meanwhile ns name c' c'') :
    Meanwhile ns name c c'' := by
  refine ⟨Nat.le_trans h.revision h'.revision, ?_⟩
  rcases h.server with hsame | ⟨live, edited, hlive, hedited, hedit⟩
  · rcases h'.server with hsame' | ⟨live', edited', hlive', hedited', hedit'⟩
    · exact .inl (hsame'.trans hsame)
    · obtain ⟨m, hlt, hle, hversion⟩ := hedit'.version
      exact .inr ⟨live', edited', hsame ▸ hlive', hedited', { hedit' with
        version := ⟨m, Nat.lt_of_le_of_lt h.revision hlt, hle, hversion⟩ }⟩
  · rcases h'.server with hsame' | ⟨live', edited', hlive', hedited', hedit'⟩
    · obtain ⟨m, hlt, hle, hversion⟩ := hedit.version
      exact .inr ⟨live, edited, hlive, hsame'.trans hedited, { hedit with
        version := ⟨m, hlt, Nat.le_trans hle h'.revision, hversion⟩ }⟩
    · obtain rfl : edited = live' := Option.some.inj (hedited.symm.trans hlive')
      obtain ⟨m, hlt, hle, hversion⟩ := hedit'.version
      exact .inr ⟨live, edited', hlive, hedited', {
        status := hedit'.status.trans hedit.status
        ns := hedit'.ns.trans hedit.ns
        name := hedit'.name.trans hedit.name
        generation := fun hsome => hedit'.generation (hedit.generation hsome)
        version := ⟨m, Nat.lt_of_le_of_lt h.revision hlt, hle, hversion⟩ }⟩

theorem revision_replace (c : Cluster) (o : Object k) (merged : Object k → Object k) :
    c.revision ≤ (c.replace o merged).2.revision := by
  unfold replace
  split
  · exact Nat.le_refl _
  · split
    · exact Nat.le_refl _
    · exact Nat.le_succ _

/-- Revisions go up. -/
theorem revision_answer (c : Cluster) (r : Request) : c.revision ≤ (c.answer r).2.revision := by
  cases r with
  | get | list | probe => exact Nat.le_refl _
  | create k o =>
    unfold answer
    dsimp only
    split
    · exact Nat.le_refl _
    · exact Nat.le_succ _
  | update k o => exact revision_replace c o _
  | updateStatus k o => exact revision_replace c o _
  | delete k o =>
    unfold answer
    dsimp only
    split <;> exact Nat.le_refl _

/-- A call that writes no server is like the work of others. -/
theorem meanwhile_of_refusing {refusal : Error → Prop} {r : Request} {a : Except Error r.Reply}
    (hr : ¬r.Writes .unifiedPushServer) (h : refusing refusal r c a c') :
    Meanwhile ns name c c' := by
  rcases h with hanswer | ⟨_, _, _, rfl⟩
  · obtain rfl : (c.answer r).2 = c' := by rw [hanswer]
    exact ⟨revision_answer c r, .inl (get?_of_shelf (shelf_answer c hr) ns name)⟩
  · exact .refl ns name c'

end Cluster

/-! ## The world -/

open Cluster

/-- A cluster, and the generation that a server had when its status was written last. -/
structure Shared where
  cluster : Cluster
  written : Option Int64

namespace Shared

/-- What is noted of a call: the generation of the server whose status has been written. -/
def noted (ns name : String) (before : Option Int64) :
    (r : Request) → Except Error r.Reply → Option Int64
  | .updateStatus .unifiedPushServer o, .ok updated =>
    if nsOf o = ns ∧ nameOf o = name then updated.metadata.generation else before
  | _, _ => before

/-- Others may have been at work before a call, and the call may be refused with an error of the
API. -/
def world (ns name : String) : World Shared := fun r s a s' =>
  ∃ c, Meanwhile ns name s.cluster c ∧
    refusing (fun error => ∃ e, error = .api e) r c a s'.cluster ∧
    s'.written = noted ns name s.written r a

variable {ns name : String} {s s' : Shared}

theorem noted_of_not_writes {before : Option Int64} {r : Request} {a : Except Error r.Reply}
    (hr : ¬r.Writes .unifiedPushServer) : noted ns name before r a = before := by
  unfold noted
  split
  · exact absurd rfl hr
  · rfl

/-- Since some moment only others have been at work on the server. -/
def Since (ns name : String) (s s' : Shared) : Prop :=
  Meanwhile ns name s.cluster s'.cluster ∧ s'.written = s.written

theorem Since.trans {s'' : Shared} (h : Since ns name s s') (h' : Since ns name s' s'') :
    Since ns name s s'' :=
  ⟨h.1.trans h'.1, h'.2.trans h.2⟩

theorem since_of_not_writes {r : Request} {a : Except Error r.Reply}
    (hr : ¬r.Writes .unifiedPushServer) (h : world ns name r s a s') : Since ns name s s' := by
  obtain ⟨c, hothers, hanswer, hnoted⟩ := h
  exact ⟨hothers.trans (meanwhile_of_refusing hr hanswer), hnoted.trans (noted_of_not_writes hr)⟩

theorem since_of_error {r : Request} {error : Error} (h : world ns name r s (.error error) s') :
    Since ns name s s' := by
  obtain ⟨c, hothers, hanswer, hnoted⟩ := h
  obtain ⟨hcluster, -⟩ := refusing_error hanswer
  refine ⟨hcluster ▸ hothers, hnoted.trans ?_⟩
  unfold noted
  split
  · next heq => cases heq
  · rfl

theorem honors_writesOnly {kinds : List Kind} (hkinds : .unifiedPushServer ∉ kinds) (s₀ : Shared) :
    Interaction.Honors (world ns name) (writesOnly kinds) (Since ns name s₀) := by
  intro r s a s' hsince hasks hanswer
  exact ⟨trivial, hsince.trans (since_of_not_writes (fun hr => hkinds (hasks _ hr)) hanswer)⟩

theorem error_of_world {r : Request} {error : Error} (h : world ns name r s (.error error) s') :
    ∃ e, error = .api e := by
  obtain ⟨c, -, hanswer, -⟩ := h
  obtain ⟨-, hrefused | hapi⟩ := refusing_error hanswer
  · exact hrefused
  · exact hapi

/-- Others need not have done anything. -/
theorem exists_run_of_refusing {α : Type} {x : Interaction α} {c c' : Cluster} {t : Trace}
    {o : Option α} (h : Run (refusing fun error => ∃ e, error = .api e) x c t o c')
    (before : Option Int64) :
    ∃ after, Run (world ns name) x ⟨c, before⟩ t o ⟨c', after⟩ := by
  induction h generalizing before with
  | done a c => exact ⟨before, .done a _⟩
  | cut x c => exact ⟨before, .cut x _⟩
  | step hstep _ ih =>
    cases hstep with
    | @call r _ _ a _ hanswer =>
      obtain ⟨after, hrest⟩ := ih (noted ns name before r a)
      exact ⟨after, .step (.call ⟨_, .refl ns name _, hanswer, rfl⟩) hrest⟩
    | emit =>
      obtain ⟨after, hrest⟩ := ih before
      exact ⟨after, .step .emit hrest⟩
    | secret text =>
      obtain ⟨after, hrest⟩ := ih before
      exact ⟨after, .step (.secret text) hrest⟩

end Shared

end PushOperator
