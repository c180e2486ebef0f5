import PushOperator.Proofs.Pass.Failures
import PushOperator.Proofs.Pass.Run

/-!
# How a pass comes to its end

A pass may end with its last step, halt before, or fail, and each of its calls may be refused. All
the while it knows the server as it is stored, but for a status that it has not written yet. This
carries over from one part of the pass to the next, and with it what the parts heed.
-/

namespace PushOperator

open Cluster Interaction

variable {α β σ : Type} {settings : Settings} {refusal : Error → Prop} {ns name : String}
  {server live : Server} {c c' : Cluster} {st st' : PassState} {t : Trace}

namespace Pass

/-- A run of two parts in a row halts in the first one, or goes on to the second. -/
theorem run_exec_bind {w : World σ} {x : Pass α} {f : α → Pass β} {s s' : σ} {r : Except Halt β}
    (h : Run w ((x >>= f).exec st) s t (some (r, st')) s') :
    (∃ halt, r = .error halt ∧ Run w (x.exec st) s t (some (.error halt, st')) s') ∨
      ∃ a st₁ s₁ t₁ t₂, Run w (x.exec st) s t₁ (some (.ok a, st₁)) s₁ ∧
        Run w ((f a).exec st₁) s₁ t₂ (some (r, st')) s' ∧ t = t₁ ++ t₂ := by
  rw [exec_bind] at h
  obtain ⟨⟨halt | a, st₁⟩, s₁, t₁, t₂, hx, hf, rfl⟩ := run_bind_iff.1 h
  · obtain ⟨hr, rfl, rfl⟩ := run_done_some.1 hf
    obtain ⟨rfl, rfl⟩ := Prod.mk.inj hr
    exact .inl ⟨halt, rfl, by rwa [List.append_nil]⟩
  · exact .inr ⟨a, st₁, s₁, t₁, t₂, hx, hf, rfl⟩

/-! ## What a pass knows -/

/-- The pass knows the server as it is stored, but for a status that is yet to be written. -/
structure Tracks (ns name : String) (c : Cluster) (live : Server) (st : PassState) : Prop where
  filed : c.FiledOf .unifiedPushServer
  get? : c.get? .unifiedPushServer ns name = some live
  server : st.server = { live with status := st.server.status }
  stored : st.stored = live.status

theorem Tracks.nsOf_eq (h : Tracks ns name c live st) : nsOf st.server = ns := by
  rw [h.server]
  exact (h.filed _ _ _ h.get?).1

theorem Tracks.nameOf_eq (h : Tracks ns name c live st) : nameOf st.server = name := by
  rw [h.server]
  show nameOf live = name
  exact h.filed.nameOf h.get?

/-- Another status in mind. -/
theorem Tracks.withStatus (h : Tracks ns name c live st) {status : Option ServerStatus}
    (hserver : st'.server = { st.server with status }) (hstored : st'.stored = st.stored) :
    Tracks ns name c live st' := by
  refine ⟨h.filed, h.get?, ?_, hstored.trans h.stored⟩
  rw [hserver, h.server]

/-- What changes neither the servers nor the view of this one. -/
theorem Tracks.of_sameBut {kinds : List Kind} (h : Tracks ns name c live st)
    (hsame : SameBut kinds c c') (hkinds : .unifiedPushServer ∉ kinds)
    (hserver : st'.server = st.server) (hstored : st'.stored = st.stored) :
    Tracks ns name c' live st' := by
  have hget (ns' name' : String) := get?_of_shelf (hsame.shelf _ hkinds) ns' name'
  refine ⟨fun ns' name' o ho => h.filed ns' name' o (hget ns' name' ▸ ho), ?_, ?_, ?_⟩
  · rw [hget, h.get?]
  · rw [hserver]
    exact h.server
  · rw [hstored]
    exact h.stored

/-! ## Storing the status -/

/-- What storing the status comes to: it is stored already, it is written, or the write is refused.
-/
inductive Persists (ns name : String) (live : Server) (st : PassState) (c : Cluster) :
    Trace → Except Halt Unit → PassState → Cluster → Prop
  | same (h : st.server.observe = live) :
    Persists ns name live st c [] (.ok ()) { st with server := live, stored := live.status } c
  | written {r : Except Halt Unit} {st' : PassState} (updated : Server)
    (hupdated : updated = stamped (c.revision + 1)
      { live with status := st.server.observe.status })
    (hanswer : c.answer (.updateStatus .unifiedPushServer st.server.observe) =
      (.ok updated, (c.store ns name { live with status := st.server.observe.status }).2))
    (hplaced : (∃ ns', live.metadata.ns = some ns') →
      r = .ok () ∧ st' = { st with server := updated, stored := updated.status }) :
    Persists ns name live st c
      [.call (.updateStatus .unifiedPushServer st.server.observe) (.ok updated)] r st'
      (c.store ns name { live with status := st.server.observe.status }).2
  | refused (error : Error) :
    Persists ns name live st c
      [.call (.updateStatus .unifiedPushServer st.server.observe) (.error error)]
      (.error (.failed error)) st c

/-- What is checked of an object that has been written. -/
def placed (m : ObjectMeta) : Except Error Unit := do
  let _ ← m.requireNs
  let _ ← m.requireName

theorem run_requirePlace (m : ObjectMeta) : (Task.requirePlace m).run = .done (placed m) := by
  unfold Task.requirePlace placed
  cases m.requireNs <;> cases m.requireName <;> rfl

theorem placed_eq_ok {m : ObjectMeta} (hns : ∃ ns, m.ns = some ns)
    (hname : ∃ name, m.name = some name) : placed m = .ok () := by
  obtain ⟨ns, hns⟩ := hns
  obtain ⟨name, hname⟩ := hname
  unfold placed
  rw [ObjectMeta.requireNs_eq_ok.2 hns, ObjectMeta.requireName_eq_ok.2 hname]
  rfl

/-- Storing the status is one call at most. -/
theorem exec_persist (st : PassState) : persist.exec st =
    if st.server.observe.status = st.stored then
      .done (.ok (), { st with server := st.server.observe, stored := st.server.observe.status })
    else .call (.updateStatus .unifiedPushServer st.server.observe) fun
      | .error error => .done (.error (.failed error), st)
      | .ok updated => match placed st.server.metadata with
        | .ok () => .done (.ok (), { st with server := updated, stored := updated.status })
        | .error error => .done (.error (.failed error), st) := by
  have htask : persist.exec st = (Task.persist st.server st.stored).run.bind fun
      | .ok server => .done (.ok (), { st with server, stored := server.status })
      | .error error => .done (.error (.failed error), st) := by
    show ((Task.persist _ _).run.bind _).bind _ = _
    rw [Interaction.bind_assoc]
    refine congrArg (Interaction.bind _) (funext fun result => ?_)
    cases result <;> rfl
  rw [htask]
  unfold Task.persist
  dsimp only
  split
  · rfl
  · refine congrArg (Interaction.call _) (funext fun answer => ?_)
    rcases answer with error | updated
    · rfl
    · show ((Task.requirePlace st.server.metadata >>= fun _ => pure updated : Task Server).run.bind
        _) = _
      rw [Task.run_bind, run_requirePlace]
      cases placed st.server.metadata <;> rfl

theorem run_persist {r : Except Halt Unit} (htracks : Tracks ns name c live st)
    (h : Run (refusing refusal) (persist.exec st) c t (some (r, st')) c') :
    Persists ns name live st c t r st' c' := by
  have hobserved : st.server.observe = { live with status := st.server.observe.status } := by
    rw [htracks.server]
    rfl
  rw [exec_persist] at h
  split at h
  · next hsame =>
    obtain ⟨hr, rfl, rfl⟩ := run_done_some.1 h
    obtain ⟨rfl, rfl⟩ := Prod.mk.inj hr
    have hlive : st.server.observe = live := by
      rw [hobserved, hsame, htracks.stored]
    rw [hlive]
    exact .same hlive
  obtain ⟨answer, c₁, t', hanswer, hrest, rfl⟩ := run_call_some.1 h
  rcases answer with error | updated
  · obtain ⟨hr, rfl, rfl⟩ := run_done_some.1 hrest
    obtain ⟨rfl, rfl⟩ := Prod.mk.inj hr
    obtain ⟨rfl, -⟩ := refusing_error hanswer
    exact .refused error
  · have hns : nsOf st.server.observe = ns := htracks.nsOf_eq
    have hname : nameOf st.server.observe = name := htracks.nameOf_eq
    have hgranted := refusing_ok hanswer
    obtain ⟨stored, hget, -, hupdated, rfl⟩ := answer_updateStatus.1 hgranted
    rw [hns, hname] at hget hrest hgranted
    obtain rfl : live = stored := Option.some.inj (htracks.get?.symm.trans hget)
    -- The answer is checked for a place; it has the name of the server, but a namespace only if
    -- the server has one.
    have hmetadata : st.server.metadata = live.metadata := by rw [htracks.server]
    rw [hmetadata] at hrest
    cases hplaced : placed live.metadata with
    | ok =>
      rw [hplaced] at hrest
      obtain ⟨hr, rfl, rfl⟩ := run_done_some.1 hrest
      exact .written updated hupdated hgranted fun _ => Prod.mk.inj hr
    | error error =>
      rw [hplaced] at hrest
      obtain ⟨-, rfl, rfl⟩ := run_done_some.1 hrest
      refine .written updated hupdated hgranted fun hsome => ?_
      rw [placed_eq_ok hsome ⟨name, (htracks.filed _ _ _ htracks.get?).2⟩] at hplaced
      cases hplaced

/-! ## How parts of a pass end -/

/-- What stands in the way of a pass is a matter of the spec and the place of its server. -/
theorem flaw_of_remains (h : server.Remains live) : flaw settings live = flaw settings server := by
  obtain ⟨⟩ := h
  rfl

/-- A part of a pass over a server ends knowing the server, with every child recorded once, and has
heeded all answers. -/
structure Ends (settings : Settings) (ns name : String) (server : Server) (t : Trace)
    (r : Except Halt α) (st' : PassState) (c' : Cluster) : Prop where
  tracks : ∃ live, Tracks ns name c' live st' ∧ server.Remains live
  distinct : st'.children.Distinct
  heeded : Heeded (flaw settings server) (fun error => r = .error (.failed error)) t

/-- A whole ends with the first part when that halts, and else with what comes after it. -/
theorem Ends.bind {x : Pass α} {f : α → Pass β} {r : Except Halt β}
    (h : Run (refusing refusal) ((x >>= f).exec st) c t (some (r, st')) c')
    (hx : ∀ t r st' c', Run (refusing refusal) (x.exec st) c t (some (r, st')) c' →
      Ends settings ns name server t r st' c')
    (hf : ∀ a t₁ st₁ c₁ t', Run (refusing refusal) (x.exec st) c t₁ (some (.ok a, st₁)) c₁ →
      Ends settings ns name server t₁ (.ok a : Except Halt α) st₁ c₁ →
      Run (refusing refusal) ((f a).exec st₁) c₁ t' (some (r, st')) c' →
      Ends settings ns name server t' r st' c') :
    Ends settings ns name server t r st' c' := by
  obtain ⟨halt, rfl, hhalt⟩ | ⟨a, st₁, c₁, t₁, t', hfirst, hrest, rfl⟩ := run_exec_bind h
  · have hends := hx t (.error halt) st' c' hhalt
    refine ⟨hends.tracks, hends.distinct, hends.heeded.mono fun error heq => ?_⟩
    rw [Except.error.inj heq]
  · have hends := hx t₁ (.ok a) st₁ c₁ hfirst
    have hrest' := hf a t₁ st₁ c₁ t' hfirst hends hrest
    have hclean : Heeded (flaw settings server) (fun _ => False) t₁ :=
      hends.heeded.mono fun _ heq => nomatch heq
    exact ⟨hrest'.tracks, hrest'.distinct, hclean.append hrest'.heeded⟩

theorem server_remains (htracks : Tracks ns name c live st) (hremains : server.Remains live) :
    server.Remains st.server := by
  rw [htracks.server]
  exact hremains.trans (.restamp _ _ _ fun _ => rfl)

/-- A part that writes no server and heeds what stands in its way. -/
theorem ends_of_heeds {kinds : List Kind} {x : Pass α} {r : Except Halt α}
    (hwrites : WritesOnly kinds x) (hkinds : .unifiedPushServer ∉ kinds)
    (hheeds : Heeds settings st.server (fun _ => True) x) (htracks : Tracks ns name c live st)
    (hremains : server.Remains live) (hdistinct : st.children.Distinct)
    (h : Run (refusing refusal) (x.exec st) c t (some (r, st')) c') :
    Ends settings ns name server t r st' c' := by
  have hworld : ∀ r c a c', refusing refusal r c a c' → flaky r c a c' := flaky_of_refusing
  obtain ⟨hsame, hkept, -⟩ := (hwrites st.server st.stored st ⟨rfl, rfl⟩).run
    (honors_writesOnly kinds c) ⟨fun _ _ => rfl, rfl⟩ (h.mono hworld)
  obtain ⟨⟨hserver, hstored⟩, -⟩ := hkept _ rfl
  obtain ⟨⟨-, hdistinct', -⟩, hheeded⟩ :=
    (hheeds st rfl hdistinct).run (fun _ _ _ _ _ => trivial) h
  refine ⟨⟨live, htracks.of_sameBut hsame hkinds hserver hstored, hremains⟩, hdistinct', ?_⟩
  rw [flaw_of_remains (server_remains htracks hremains)] at hheeded
  exact hheeded

/-- Storing the status of a server with a place. -/
theorem ends_persist {r : Except Halt Unit} (htracks : Tracks ns name c live st)
    (hremains : server.Remains live) (hdistinct : st.children.Distinct)
    (hns : ∃ ns', live.metadata.ns = some ns')
    (h : Run (refusing refusal) (persist.exec st) c t (some (r, st')) c') :
    Ends settings ns name server t r st' c' := by
  obtain ⟨-⟩ | ⟨updated, hupdated, -, hplaced⟩ | ⟨error⟩ := run_persist htracks h
  · exact ⟨⟨live, ⟨htracks.filed, htracks.get?, rfl, rfl⟩, hremains⟩, hdistinct, .nil⟩
  · obtain ⟨rfl, rfl⟩ := hplaced hns
    obtain ⟨hplace, hname⟩ := htracks.filed _ _ _ htracks.get?
    refine ⟨⟨updated, ⟨htracks.filed.store hplace hname, ?_, rfl, rfl⟩, ?_⟩, hdistinct, ?_⟩
    · rw [hupdated]
      exact get?_store_self c ns name _
    · rw [hupdated]
      exact hremains.trans (Server.remains_stamped _ live _)
    · exact Heeded.nil.cons trivial fun _ hflaw => hflaw.elim
  · refine ⟨⟨live, htracks, hremains⟩, hdistinct, Heeded.nil.cons trivial ?_⟩
    rintro error' ⟨-, rfl⟩
    exact ⟨rfl, by simp⟩

/-! ## The parts of a pass -/

theorem writesOnly_deferToActive : WritesOnly [] deferToActive := by
  refine writesOnly_server.bind fun server => ?_
  split
  · exact writesOnly_pure
  · refine writesOnly_build.bind fun ns => (writesOnly_read rfl).bind fun others => ?_
    split
    · exact writesOnly_stop (by decide)
    · exact writesOnly_pure

theorem heeds_deferToActive : Heeds settings server refusal deferToActive := by
  refine heeds_server_bind ?_
  split
  · exact heeds_pure ()
  refine (heeds_build server.metadata.explains_requireNs).bind fun ns => ?_
  refine (heeds_liftM (Task.heeds_call (.list .unifiedPushServer ns "") fun _ _ h => h)).bind ?_
  intro others
  split
  · exact heeds_stop
  · exact heeds_pure ()

/-- A pass goes on over a server that is active, or has a namespace at least. -/
theorem place_of_deferToActive {u : Unit}
    (h : Run (refusing refusal) (deferToActive.exec st) c t (some (.ok u, st')) c') :
    (Server.phase st'.server).isActive = true ∨ ∃ ns, st'.server.metadata.ns = some ns := by
  have hcompletes : Completes (refusing refusal) (fun _ => True) deferToActive st c u st' c' :=
    ⟨t, fun _ _ => trivial, h⟩
  have hserver : st'.server = st.server :=
    (writesOnly_deferToActive.completes (hcompletes.mono flaky_of_refusing)).1
  have hrest := completes_server_bind.1 hcompletes
  rw [hserver]
  split at hrest
  · next hactive => exact .inl hactive
  · obtain ⟨ns, hns, -⟩ := completes_build_bind.1 hrest
    exact .inr ⟨ns, ObjectMeta.requireNs_eq_ok.1 hns⟩

theorem exec_start (st : PassState) : start.exec st =
    if Server.isNew st.server then persist.exec { st with server := Server.start st.server }
    else .done (.ok (), st) := by
  show (if Server.isNew st.server then _ else _ : Pass Unit).exec st = _
  split <;> rfl

theorem ends_start {r : Except Halt Unit} (htracks : Tracks ns name c live st)
    (hremains : server.Remains live) (hdistinct : st.children.Distinct)
    (hplace : (Server.phase st.server).isActive = true ∨ ∃ ns, st.server.metadata.ns = some ns)
    (h : Run (refusing refusal) (start.exec st) c t (some (r, st')) c') :
    Ends settings ns name server t r st' c' := by
  rw [exec_start] at h
  split at h
  · next hnew =>
    have hstart : Server.start st.server =
        { st.server with status := (Server.start st.server).status } := by
      unfold Server.start
      rw [if_pos hnew]
      rfl
    have hns : ∃ ns', live.metadata.ns = some ns' := by
      rcases hplace with hactive | hsome
      · rw [Server.isNew, beq_iff_eq] at hnew
        rw [hnew] at hactive
        cases hactive
      · rw [htracks.server] at hsome
        exact hsome
    have hstarted : Tracks ns name c live { st with server := Server.start st.server } :=
      htracks.withStatus hstart rfl
    exact ends_persist hstarted hremains hdistinct hns h
  · obtain ⟨hr, rfl, rfl⟩ := run_done_some.1 h
    obtain ⟨rfl, rfl⟩ := Prod.mk.inj hr
    exact ⟨⟨live, htracks, hremains⟩, hdistinct, .nil⟩

/-- The last write of a pass, whose steps have needed a namespace. -/
theorem ends_succeed {r : Except Halt Unit} (htracks : Tracks ns name c live st)
    (hremains : server.Remains live) (hns : ∃ ns, st.server.metadata.ns = some ns)
    (h : Run (refusing refusal) (succeed.exec st) c t (some (r, st')) c') :
    Ends settings ns name server t r st' c' := by
  have hsucceeded : Tracks ns name c live { st with
      server := Server.succeed st.server st.ready st.children
      children := ∅ } :=
    htracks.withStatus rfl rfl
  rw [htracks.server] at hns
  exact ends_persist hsucceeded hremains Registry.distinct_empty hns h

/-- The body of a pass, in which each part relies on what the one before has left. -/
theorem ends_body {r : Except Halt Action} (htracks : Tracks ns name c live st)
    (hdistinct : st.children.Distinct)
    (h : Run (refusing refusal) ((body settings).exec st) c t (some (r, st')) c') :
    Ends settings ns name live t r st' c' := by
  rw [body_eq] at h
  refine Ends.bind h ?_ fun _ t₁ st₁ c₁ t' hdefer hends hrest => ?_
  · intro t r st' c' hdefer
    exact ends_of_heeds writesOnly_deferToActive (by simp) heeds_deferToActive htracks (.refl live)
      hdistinct hdefer
  obtain ⟨live₁, htracks₁, hremains₁⟩ := hends.tracks
  have hplace := place_of_deferToActive hdefer
  refine Ends.bind hrest ?_ fun _ t₂ st₂ c₂ t' _ hends₂ hrest₂ => ?_
  · intro t r st' c' hstart
    exact ends_start htracks₁ hremains₁ hends.distinct hplace hstart
  obtain ⟨live₂, htracks₂, hremains₂⟩ := hends₂.tracks
  refine Ends.bind hrest₂ ?_ fun _ t₃ st₃ c₃ t' hconverge hends₃ hrest₃ => ?_
  · intro t r st' c' hconverge
    exact ends_of_heeds writesOnly_converge (by decide) heeds_converge htracks₂ hremains₂
      hends₂.distinct hconverge
  obtain ⟨live₃, htracks₃, hremains₃⟩ := hends₃.tracks
  have hcompletes : Completes flaky (fun _ => True) (converge settings) st₂ c₂ () st₃ c₃ :=
    ⟨t₃, fun _ _ => trivial, hconverge.mono flaky_of_refusing⟩
  have hns : ∃ ns', st₃.server.metadata.ns = some ns' := by
    rw [(writesOnly_converge.completes hcompletes).1]
    exact ns_of_converge hcompletes
  refine Ends.bind hrest₃ ?_ fun _ t₄ st₄ c₄ t' _ hends₄ hrest₄ => ?_
  · intro t r st' c' hsucceed
    exact ends_succeed htracks₃ hremains₃ hns hsucceed
  obtain ⟨hr, rfl, rfl⟩ := run_done_some.1 hrest₄
  obtain ⟨rfl, rfl⟩ := Prod.mk.inj hr
  exact ⟨hends₄.tracks, hends₄.distinct, .nil⟩

end Pass

end PushOperator
