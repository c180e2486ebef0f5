import PushOperator.Proofs.OwnedCreations
import PushOperator.Proofs.Pass.Closing

/-!
# The record of the children

The status of a server records the children that the last successful pass has found. What a pass has
in mind agrees with the record until its last write (`Pass.Minds`). From then on it has the children
in mind that it has found itself, also if that write is refused and the pass fails: the write that
says so then records them. As long as this does not happen, the record is at any time what the last
successful pass has found (`records_of_lastFound`).
-/

namespace PushOperator

open Cluster Interaction

variable {α β : Type} {settings : Settings} {ns name : String} {server : Server}
  {c c₀ c' c'' : Cluster} {children last : Registry} {st : PassState} {error : Error} {t : Trace}

/-! ## The record -/

/-- The children that the status of a server records. -/
def Server.recorded (server : Server) : Registry :=
  (Server.statusOrDefault server).secondaryResources

namespace Server

@[simp] theorem recorded_observe (server : Server) : server.observe.recorded = server.recorded := by
  unfold recorded observe
  show (observeStatus (statusOrDefault server) server.metadata).secondaryResources = _
  unfold observeStatus
  split <;> rfl

@[simp] theorem recorded_start (server : Server) : (start server).recorded = server.recorded := by
  unfold start
  split <;> rfl

@[simp] theorem recorded_fail (server : Server) (error : Error) :
    (fail server error).recorded = server.recorded := rfl

@[simp] theorem recorded_succeed (server : Server) (ready : Bool) (children : Registry) :
    (succeed server ready children).recorded = children := rfl

theorem recorded_congr {server server' : Server} (h : server'.status = server.status) :
    server'.recorded = server.recorded := by
  unfold recorded statusOrDefault
  rw [h]

end Server

/-- If the server is stored, its status records these children. -/
def Cluster.Records (ns name : String) (children : Registry) (c : Cluster) : Prop :=
  ∀ live, c.get? .unifiedPushServer ns name = some live →
    Placed ns name live ∧ Server.recorded live = children

/-! ## A cluster in which others spare the status -/

/-- Between two moments nobody else has written the status of the server: if it is there, it was
there before, with the same status. -/
def Cluster.SparesStatus (ns name : String) (c c' : Cluster) : Prop :=
  ∀ live', c'.get? .unifiedPushServer ns name = some live' →
    ∃ live, c.get? .unifiedPushServer ns name = some live ∧ live'.status = live.status ∧
      live'.metadata.ns = live.metadata.ns ∧ live'.metadata.name = live.metadata.name

/-- Others may do anything before a call but write that status, and every call may be refused. -/
def Cluster.sparing (ns name : String) : World Cluster := fun r c a c' =>
  ∃ c₁, SparesStatus ns name c c₁ ∧ refusing (fun _ => True) r c₁ a c'

theorem Cluster.SparesStatus.refl (c : Cluster) : SparesStatus ns name c c :=
  fun live hlive => ⟨live, hlive, rfl, rfl, rfl⟩

theorem Cluster.SparesStatus.records (h : SparesStatus ns name c c')
    (hc : c.Records ns name children) : c'.Records ns name children := by
  intro live' hlive'
  obtain ⟨live, hlive, hstatus, hns, hname⟩ := h live' hlive'
  obtain ⟨hplace, hrecorded⟩ := hc live hlive
  refine ⟨⟨hns.trans hplace.1, hname.trans hplace.2⟩, ?_⟩
  exact (Server.recorded_congr hstatus).trans hrecorded

/-- What is refused changes no record. -/
theorem records_of_refused {r : Request} (hc : c.Records ns name children)
    (h : sparing ns name r c (.error error) c') : c'.Records ns name children := by
  obtain ⟨c₁, hspares, hanswer⟩ := h
  obtain ⟨rfl, -⟩ := refusing_error hanswer
  exact hspares.records hc

/-- Neither does what writes no server. -/
theorem honors_records {kinds : List Kind} (hkinds : .unifiedPushServer ∉ kinds) :
    Honors (sparing ns name) (writesOnly kinds) (Records ns name children) := by
  rintro r c a c' hc hasks ⟨c₁, hspares, hanswer | ⟨error, -, -, rfl⟩⟩
  · refine ⟨trivial, fun live hlive => hspares.records hc live ?_⟩
    have hshelf := shelf_answer (k := .unifiedPushServer) c₁ fun hr => hkinds (hasks _ hr)
    rw [hanswer] at hshelf
    rwa [get?_of_shelf hshelf] at hlive
  · exact ⟨trivial, hspares.records hc⟩

/-- A status that is written is the record from then on. -/
theorem records_of_written {updated : Server} (hplace : Placed ns name server)
    (hc : c.Records ns name children)
    (h : sparing ns name (.updateStatus .unifiedPushServer server.observe) c (.ok updated) c') :
    c'.Records ns name server.recorded ∧ Placed ns name updated ∧
      updated.recorded = server.recorded := by
  obtain ⟨c₁, hspares, hanswer⟩ := h
  obtain ⟨stored, hget, -, hupdated, rfl⟩ := answer_updateStatus.1 (refusing_ok hanswer)
  have hns : nsOf server.observe = ns := Placed.nsOf (o := server.observe) hplace
  have hname : nameOf server.observe = name := Placed.nameOf (o := server.observe) hplace
  rw [hns, hname] at hget ⊢
  obtain ⟨hstored, -⟩ := hspares.records hc stored hget
  have hplaced : Placed ns name updated := hupdated ▸ hstored
  have hrecorded : updated.recorded = server.recorded := by
    rw [← Server.recorded_observe server]
    exact Server.recorded_congr (hupdated ▸ rfl)
  refine ⟨?_, hplaced, hrecorded⟩
  intro live hlive
  rw [get?_store_self, ← hupdated] at hlive
  obtain rfl := Option.some.inj hlive
  exact ⟨hplaced, hrecorded⟩

namespace Pass

/-! ## The opening -/

/-- What a pass has in mind of its server agrees with the record. -/
structure Minds (ns name : String) (children : Registry) (st : PassState) : Prop where
  place : Placed ns name st.server
  recorded : st.server.recorded = children
  stored : (st.stored.getD {}).secondaryResources = children

theorem minds_of_fetched (hplace : Placed ns name server) :
    Minds ns name server.recorded { server, stored := server.status } :=
  ⟨hplace, rfl, rfl⟩

/-- How a part of a pass ends that has changed neither the record nor what is in mind of it. -/
structure Retained (ns name : String) (children : Registry) (p : Except Halt α × PassState)
    (c : Cluster) : Prop where
  records : c.Records ns name children
  minds : Minds ns name children p.2
  early : ∀ action, p.1 = .error (.early action) → action ≠ .requeue 30

/-- A part of a pass that changes neither. -/
def Retains (ns name : String) (children : Registry) (x : Pass α) : Prop :=
  ∀ st c, Minds ns name children st → c.Records ns name children →
    (x.exec st).Secures (sparing ns name) (Records ns name children) (Retained ns name children) c

theorem Retains.bind {x : Pass α} {f : α → Pass β} (hx : Retains ns name children x)
    (hf : ∀ a, Retains ns name children (f a)) : Retains ns name children (x >>= f) := by
  intro st c hminds hc
  rw [exec_bind]
  refine secures_bind (hx st c hminds hc) ?_
  rintro ⟨halt | a, st'⟩ c' hretained
  · refine ⟨hretained.records, hretained.minds, fun action h => ?_⟩
    exact hretained.early action (congrArg Except.error (Except.error.inj h))
  · exact hf a st' c' hretained.minds hretained.records

theorem retains_of_writesOnly {kinds : List Kind} {x : Pass α} (hwrites : WritesOnly kinds x)
    (hkinds : .unifiedPushServer ∉ kinds) : Retains ns name children x := by
  intro st c hminds hc
  have hhonors : Honors (sparing ns name) (writesOnly kinds) (Records ns name children) :=
    honors_records hkinds
  refine ((hwrites st.server st.stored st ⟨rfl, rfl⟩).secures hhonors hc).mono ?_
  rintro ⟨result, st'⟩ c' ⟨⟨⟨hserver, hstored⟩, -, hearly⟩, hc'⟩
  refine ⟨hc', ⟨?_, ?_, ?_⟩, hearly⟩
  · rw [hserver]
    exact hminds.place
  · rw [hserver]
    exact hminds.recorded
  · rw [hstored]
    exact hminds.stored

theorem retains_start : Retains ns name children start := by
  intro st c hminds hc
  rw [exec_start]
  split
  · have hmetadata : (Server.start st.server).metadata = st.server.metadata := by
      unfold Server.start
      split <;> rfl
    have hplace : Placed ns name (Server.start st.server) := by
      unfold Placed
      rw [hmetadata]
      exact hminds.place
    have hrecorded : (Server.start st.server).recorded = children := by
      rw [Server.recorded_start]
      exact hminds.recorded
    have hstarted : Minds ns name children { st with server := Server.start st.server } :=
      ⟨hplace, hrecorded, hminds.stored⟩
    rw [exec_persist]
    split
    · refine ⟨hc, ⟨hplace, ?_, ?_⟩, by simp⟩
      · exact (Server.recorded_observe _).trans hrecorded
      · exact (Server.recorded_observe _).trans hrecorded
    rintro (refused | updated) c' hanswer
    · exact ⟨records_of_refused hc hanswer, records_of_refused hc hanswer, hstarted, by simp⟩
    · obtain ⟨hc', hplace', hrecorded'⟩ := records_of_written hplace hc hanswer
      rw [hrecorded] at hc' hrecorded'
      refine ⟨hc', ?_⟩
      dsimp only
      split
      · exact ⟨hc', ⟨hplace', hrecorded', hrecorded'⟩, by simp⟩
      · exact ⟨hc', hstarted, by simp⟩
  · exact ⟨hc, hminds, by simp⟩

theorem retains_opening : Retains ns name children (opening settings) := by
  refine (retains_of_writesOnly writesOnly_deferToActive (by simp)).bind fun _ => ?_
  exact retains_start.bind fun _ => retains_of_writesOnly writesOnly_converge (by decide)

/-! ## The closing -/

/-- After a failure the status that says so was written. -/
def Announced (t : Trace) : Prop :=
  ∃ server event o updated,
    t = [.event server event, .call (.updateStatus .unifiedPushServer o) (.ok updated)]

/-- The last write of a pass was refused, but not the one that says so. -/
def Slipped (t : Trace) : Prop :=
  ∃ o error t', t = .call (.updateStatus .unifiedPushServer o) (.error error) :: t' ∧ Announced t'

/-- A pass that has failed writes what it has in mind. -/
theorem records_of_conclude {x : Interaction Action} (hplace : Placed ns name st.server)
    (hc : c.Records ns name last) (h : Steps (sparing ns name) (conclude error st) c t x c') :
    x ≠ .done (.requeue 30) ∧ (Announced t → c'.Records ns name st.server.recorded) ∧
      (¬Announced t → c'.Records ns name last) := by
  rw [conclude_eq] at h
  rcases h.emit_cases with ⟨rfl, rfl, rfl⟩ | ⟨t, hrest, rfl⟩
  · exact ⟨by simp, by simp [Announced], fun _ => hc⟩
  split at hrest
  · obtain ⟨rfl, rfl, rfl⟩ := hrest.of_done
    exact ⟨by simp, by simp [Announced], fun _ => hc⟩
  rcases hrest.call_cases with ⟨rfl, rfl, rfl⟩ | ⟨refused | updated, c₁, t', hanswer, hend, rfl⟩
  · exact ⟨by simp, by simp [Announced], fun _ => hc⟩
  · obtain ⟨rfl, rfl, rfl⟩ := hend.of_done
    refine ⟨by simp, ?_, fun _ => records_of_refused hc hanswer⟩
    rintro ⟨_, _, _, _, heq⟩
    cases heq
  · obtain ⟨rfl, rfl, rfl⟩ := hend.of_done
    have hfailed : Placed ns name (Server.fail st.server error) := hplace
    obtain ⟨hc', -, -⟩ := records_of_written hfailed hc hanswer
    refine ⟨by simp, fun _ => hc', fun hnot => ?_⟩
    exact absurd ⟨_, _, _, _, rfl⟩ hnot

/-- What the closing of a pass makes of the record. -/
structure Closes (ns name : String) (last children : Registry) (t : Trace) (x : Interaction Action)
    (c : Cluster) : Prop where
  renewed : Slipped t ∨ x = .done (.requeue 30) → c.Records ns name children
  kept : ¬Slipped t → x ≠ .done (.requeue 30) → c.Records ns name last

theorem closes_of_opened {x : Interaction Action} (hminds : Minds ns name last st)
    (hc : c.Records ns name last) (h : Steps (sparing ns name) (close (.ok (), st)) c t x c') :
    Closes ns name last st.children t x c' := by
  rw [close_of_placed (placed_eq_ok ⟨ns, hminds.place.1⟩ ⟨name, hminds.place.2⟩)] at h
  split at h
  · next hsame =>
    -- What would be written is stored already, so the children are those of the record.
    obtain ⟨rfl, rfl, rfl⟩ := h.of_done
    have hchildren : st.children = last := by
      rw [← hminds.stored, ← hsame]
      exact (Server.recorded_observe (succeeded st).server).symm
    rw [hchildren]
    exact ⟨fun _ => hc, fun _ _ => hc⟩
  have hplace : Placed ns name (succeeded st).server := hminds.place
  rcases h.call_cases with ⟨rfl, rfl, rfl⟩ | ⟨refused | updated, c₁, t', hanswer, hrest, rfl⟩
  · exact ⟨by simp [Slipped], fun _ _ => hc⟩
  · obtain ⟨hx, hannounced, hkept⟩ :=
      records_of_conclude hplace (records_of_refused hc hanswer) hrest
    constructor
    · rintro (⟨_, _, _, heq, hwas⟩ | heq)
      · obtain ⟨-, rfl⟩ := List.cons.inj heq
        exact hannounced hwas
      · exact absurd heq hx
    · exact fun hnot _ => hkept fun hwas => hnot ⟨_, _, _, rfl, hwas⟩
  · obtain ⟨rfl, rfl, rfl⟩ := hrest.of_done
    obtain ⟨hc', -, -⟩ := records_of_written hplace hc hanswer
    exact ⟨fun _ => hc', fun _ hx => absurd rfl hx⟩

/-- A pass that has not come through its steps leaves the record as it was. -/
theorem records_of_halted {p : Except Halt Unit × PassState} {x : Interaction Action}
    (hhalted : ∀ u, p.1 ≠ .ok u) (hretained : Retained ns name last p c)
    (h : Steps (sparing ns name) (close p) c t x c') :
    c'.Records ns name last ∧ x ≠ .done (.requeue 30) := by
  rcases p with ⟨(error | action) | u, st⟩
  · obtain ⟨hx, hannounced, hkept⟩ :=
      records_of_conclude hretained.minds.place hretained.records h
    refine ⟨?_, hx⟩
    rw [hretained.minds.recorded] at hannounced
    exact (Classical.em (Announced t)).elim hannounced hkept
  · obtain ⟨rfl, rfl, rfl⟩ := h.of_done
    refine ⟨hretained.records, fun heq => hretained.early action rfl ?_⟩
    exact Interaction.done.inj heq
  · exact absurd rfl (hhalted u)

/-! ## Whole passes -/

/-- Any answers at all. -/
def anything : World Unit := fun _ _ _ _ => True

theorem steps_anything {x x' : Interaction α} (h : Steps (sparing ns name) x c t x' c') :
    Steps anything x () t x' () := by
  induction h with
  | refl => exact .refl
  | step _ hlast ih =>
    cases hlast with
    | call => exact ih.step (.call trivial)
    | emit => exact ih.step .emit
    | secret text => exact ih.step (.secret text)

/-- What is seen of a pass that has come through its steps: it has found these children, and `after`
came next. -/
inductive Found (settings : Settings) (ns name : String) (children : Registry) :
    Trace → Trace → Prop
  | intro {server : Server} {st : PassState} {before after : Trace}
    (h : Steps anything ((opening settings).exec { server, stored := server.status }) () before
      (.done (.ok (), st)) ())
    (hchildren : st.children = children) :
    Found settings ns name children
      (.call (.get .unifiedPushServer ns name) (.ok (some server)) :: (before ++ after)) after

/-- The pass has come through its steps and found these children, its last write was refused, but
not the one that says so. -/
def Slips (settings : Settings) (ns name : String) (children : Registry) (t : Trace) : Prop :=
  ∃ after, Found settings ns name children t after ∧ Slipped after

end Pass

open Pass

/-- The server that a pass fetches has the record, which the opening retains. -/
theorem opening_of_fetched (settings : Settings) (hc : c.Records ns name last)
    (h : sparing ns name (.get .unifiedPushServer ns name) c (.ok (some server)) c') :
    c'.Records ns name last ∧
      ((opening settings).exec { server, stored := server.status }).Secures (sparing ns name)
        (Records ns name last) (Retained ns name last) c' := by
  obtain ⟨c₁, hspares, hanswer⟩ := h
  obtain ⟨hget, rfl⟩ := answer_get.1 (refusing_ok hanswer)
  have hc₁ := hspares.records hc
  obtain ⟨hplace, rfl⟩ := hc₁ server hget.symm
  exact ⟨hc₁, retains_opening _ _ (minds_of_fetched hplace) hc₁⟩

theorem done_of_bind_ok {x : Interaction Action} {action : Action} :
    x.bind (fun action => .done (.ok action : Except Error Action)) = .done (.ok action) ↔
      x = .done action := by
  cases x <;> simp [Interaction.bind]

section

variable {x : Interaction (Except Error Action)} (hc : c.Records ns name last)
include hc

/-- At any point of a pass the record is what it was, unless the pass has come to its end with other
children, or has slipped. -/
theorem records_of_steps
    (h : Steps (sparing ns name) (reconcile settings ns name).run c t x c') :
    (c'.Records ns name last ∧ x ≠ .done (.ok (.requeue 30))) ∨
      ∃ children after, Found settings ns name children t after ∧
        (Slipped after ∨ x = .done (.ok (.requeue 30))) ∧ c'.Records ns name children := by
  cases hwatched : settings.watches ns with
  | false =>
    rw [run_reconcile_of_unwatched hwatched] at h
    obtain ⟨rfl, rfl, rfl⟩ := h.of_done
    exact .inl ⟨hc, by simp⟩
  | true =>
  rw [run_reconcile hwatched] at h
  rcases h.call_cases with ⟨rfl, rfl, rfl⟩ | ⟨answer, c₁, t', hanswer, hrest, rfl⟩
  · exact .inl ⟨hc, by simp⟩
  have hread : (writesOnly []).asks (.get .unifiedPushServer ns name) := fun _ hr => hr.elim
  have hc₁ : c₁.Records ns name last := (honors_records (by simp) _ _ _ _ hc hread hanswer).2
  rcases answer with refused | _ | server
  · obtain ⟨rfl, rfl, rfl⟩ := hrest.of_done
    exact .inl ⟨hc₁, by simp⟩
  · obtain ⟨rfl, rfl, rfl⟩ := hrest.of_done
    exact .inl ⟨hc₁, by simp⟩
  obtain ⟨-, hsecures⟩ := opening_of_fetched settings hc hanswer
  dsimp only at hrest
  rw [run_eq_opening, Interaction.bind_assoc] at hrest
  rcases hrest.bind_unfinished with ⟨x', hwithin, hx⟩ | ⟨p, c₂, t₁, t₂, hopened, hclosing, rfl⟩
  · exact .inl ⟨(hsecures.steps hc₁ hwithin).1, hx _⟩
  obtain ⟨hc₂, hretained⟩ := hsecures.steps hc₁ hopened
  obtain ⟨x', hclose, rfl⟩ := hclosing.of_bind_done
  rw [Ne, done_of_bind_ok]
  by_cases hhalted : ∀ u, p.1 ≠ .ok u
  · exact .inl (records_of_halted hhalted hretained hclose)
  rcases p with ⟨halt | ⟨⟩, st⟩
  · exact absurd (by simp) hhalted
  have hcloses := closes_of_opened hretained.minds hc₂ hclose
  by_cases hend : Slipped t₂ ∨ x' = .done (.requeue 30)
  · exact .inr ⟨st.children, t₂, ⟨steps_anything hopened, rfl⟩, hend, hcloses.renewed hend⟩
  · obtain ⟨hslipped, hx⟩ := not_or.1 hend
    exact .inl ⟨hcloses.kept hslipped hx, hx⟩

/-- When a pass ends well, or slips, what it has found is the record. -/
theorem records_of_found {after : Trace}
    (h : Steps (sparing ns name) (reconcile settings ns name).run c t x c')
    (hfound : Found settings ns name children t after)
    (hend : Slipped after ∨ x = .done (.ok (.requeue 30))) : c'.Records ns name children := by
  obtain ⟨hopens, rfl⟩ := hfound
  cases hwatched : settings.watches ns with
  | false =>
    rw [run_reconcile_of_unwatched hwatched] at h
    cases h.of_done.1
  | true =>
  rw [run_reconcile hwatched] at h
  rcases h.call_cases with ⟨hnil, -, -⟩ | ⟨answer, c₁, t', hanswer, hrest, heq⟩
  · cases hnil
  obtain ⟨hentry, rfl⟩ := List.cons.inj heq
  obtain rfl := eq_of_heq (Entry.call.inj hentry).2
  obtain ⟨hc₁, hsecures⟩ := opening_of_fetched settings hc hanswer
  dsimp only at hrest
  rw [run_eq_opening, Interaction.bind_assoc] at hrest
  obtain ⟨c₂, hopened, hclosing⟩ := hopens.resume hrest
  obtain ⟨hc₂, hretained⟩ := hsecures.steps hc₁ hopened
  obtain ⟨x', hclose, rfl⟩ := hclosing.of_bind_done
  rw [done_of_bind_ok] at hend
  exact (closes_of_opened hretained.minds hc₂ hclose).renewed hend

end

/-! ## Passes one after the other -/

/-- What the last pass that ended well has found, after passes over the server that were run to
their end or not. Each call of each of them may have been refused, but none has slipped, unless it
has found the same. -/
inductive Cluster.LastFound (ns name : String) (c₀ : Cluster) : Registry → Cluster → Prop
  | start : LastFound ns name c₀ ∅ c₀
  | others {last : Registry} {c c' : Cluster} : LastFound ns name c₀ last c →
    SparesStatus ns name c c' → LastFound ns name c₀ last c'
  | succeeded {last children : Registry} {c c' : Cluster} {settings : Settings}
    {t after : Trace} : LastFound ns name c₀ last c →
    Steps (sparing ns name) (reconcile settings ns name).run c t (.done (.ok (.requeue 30))) c' →
    Found settings ns name children t after → LastFound ns name c₀ children c'
  | pass {last : Registry} {c c' : Cluster} {settings : Settings} {t : Trace}
    {x : Interaction (Except Error Action)} : LastFound ns name c₀ last c →
    Steps (sparing ns name) (reconcile settings ns name).run c t x c' →
    x ≠ .done (.ok (.requeue 30)) →
    (∀ children, Slips settings ns name children t → children = last) →
    LastFound ns name c₀ last c'

theorem Cluster.LastFound.records (hc₀ : c₀.Records ns name ∅)
    (h : LastFound ns name c₀ last c) : c.Records ns name last := by
  induction h with
  | start => exact hc₀
  | others _ hspares ih => exact hspares.records ih
  | succeeded _ hsteps hfound ih => exact records_of_found ih hsteps hfound (.inr rfl)
  | pass _ hsteps hx hslips ih =>
    rcases records_of_steps ih hsteps with ⟨hkept, -⟩ | ⟨children, after, hfound, hend, hrecords⟩
    · exact hkept
    · obtain rfl := hslips children ⟨after, hfound, hend.resolve_right hx⟩
      exact hrecords

/-- Over a server that was stored without a status, the record is at all times what the last pass
that ended well has found, and empty before the first one, as long as no pass slips. Every pass that
ends well has found some children, and one that slips puts what it has found in the place of the
record. -/
theorem records_of_lastFound
    (hnew : ∀ server, c₀.get? .unifiedPushServer ns name = some server →
      Placed ns name server ∧ server.status = none)
    (h : LastFound ns name c₀ last c) :
    c.Records ns name last ∧
    ∀ settings t x c', Steps (sparing ns name) (reconcile settings ns name).run c t x c' →
      (x = .done (.ok (.requeue 30)) →
        ∃ children after, Found settings ns name children t after) ∧
      ∀ children, Slips settings ns name children t → c'.Records ns name children := by
  have hc₀ : c₀.Records ns name ∅ := by
    intro server hserver
    obtain ⟨hplace, hnone⟩ := hnew server hserver
    refine ⟨hplace, ?_⟩
    unfold Server.recorded Server.statusOrDefault
    rw [hnone]
    rfl
  have hc := h.records hc₀
  refine ⟨hc, fun settings t x c' hsteps => ⟨fun hx => ?_, ?_⟩⟩
  · rcases records_of_steps hc hsteps with ⟨-, hnot⟩ | ⟨children, after, hfound, -, -⟩
    · exact absurd hx hnot
    · exact ⟨children, after, hfound⟩
  · rintro children ⟨after, hfound, hslipped⟩
    exact records_of_found hc hsteps hfound (.inl hslipped)

/-! ## Passes to try -/

theorem Cluster.sparing_drawing (refuses : Request → Bool) (r : Request) (c : Cluster) :
    sparing ns name r c (if refuses r then (.error .unreachable, c) else c.answer r).1
      (if refuses r then (.error .unreachable, c) else c.answer r).2 := by
  refine ⟨c, .refl c, ?_⟩
  split
  · exact .inr ⟨_, trivial, rfl, rfl⟩
  · exact .inl rfl

/-- Whether the write of a status was refused. -/
def Entry.refusesStatus : Entry → Bool
  | .call (.updateStatus _ _) (.error _) => true
  | _ => false

theorem not_slips_of_all (h : t.all (!·.refusesStatus) = true) :
    ¬Slips settings ns name children t := by
  rintro ⟨after, ⟨-, -⟩, o, error, t', rfl, -⟩
  simp [Entry.refusesStatus] at h

/-- The cluster after a first pass. -/
def recordedCluster : Cluster := (tried (fun _ => false) sampleCluster).2

/-- After a pass that has ended well, one that may not list the jobs leaves the record as it is. -/
theorem records_of_lastFound_recordedCluster :
    ∃ (t : Trace) (c' : Cluster) (children : Registry),
      Run (sparing "push" "a") (reconcile {} "push" "a").run recordedCluster t
        (some (.ok (.requeue 5))) c' ∧
      LastFound "push" "a" sampleCluster children c' ∧ c'.Records "push" "a" children ∧
      children.contains "Deployment" "a" = true := by
  have hnew : ∀ server, sampleCluster.get? .unifiedPushServer "push" "a" = some server →
      Placed "push" "a" server ∧ server.status = none := by
    intro server hserver
    obtain rfl := Option.some.inj (get?_sampleCluster.symm.trans hserver)
    exact ⟨⟨rfl, rfl⟩, rfl⟩
  have hfirst : Run (sparing "push" "a") (reconcile {} "push" "a").run sampleCluster _
      (some (.ok (.requeue 30))) recordedCluster :=
    run_tried (sparing_drawing fun _ => false) (by decide +kernel)
  have hsecond : Run (sparing "push" "a") (reconcile {} "push" "a").run recordedCluster _
      (some (.ok (.requeue 5))) (tried Request.listsJobs recordedCluster).2 :=
    run_tried (sparing_drawing Request.listsJobs) (by decide +kernel)
  obtain ⟨x, hsteps, hx⟩ := Steps.of_run hfirst
  obtain rfl := hx _ rfl
  obtain ⟨-, hpasses⟩ := records_of_lastFound hnew .start
  obtain ⟨children, after, hfound⟩ := (hpasses _ _ _ _ hsteps).1 rfl
  obtain ⟨x', hsteps', hx'⟩ := Steps.of_run hsecond
  obtain rfl := hx' _ rfl
  have hlast : LastFound "push" "a" sampleCluster children
      (tried Request.listsJobs recordedCluster).2 := by
    refine (LastFound.start.succeeded hsteps hfound).pass hsteps' (by simp) fun _ hslips => ?_
    exact absurd hslips (not_slips_of_all (by decide +kernel))
  obtain ⟨hrecords, -⟩ := records_of_lastFound hnew hlast
  have hlive : ((tried Request.listsJobs recordedCluster).2.get? .unifiedPushServer "push" "a").any
      (fun live => (Server.recorded live).contains "Deployment" "a") = true := by
    decide +kernel
  obtain ⟨live, hget, hcontains⟩ := (Option.any_eq_true _ _).1 hlive
  obtain ⟨-, rfl⟩ := hrecords live hget
  exact ⟨_, _, _, hsecond, hlast, hrecords, hcontains⟩

/-- Whether a status is written that says how a pass has succeeded. -/
def Request.closes : Request → Bool
  | .updateStatus .unifiedPushServer o =>
    Server.phase o != .failing && (Server.recorded o).contains "Deployment" "a"
  | _ => false

/-- A first pass whose last write is refused fails, and says so in a status that records what it has
found. -/
theorem records_slipped_sampleCluster : ∃ t c' live status,
    Run (refusing fun _ => True) (reconcile {} "push" "a").run sampleCluster t
      (some (.ok (.requeue 5))) c' ∧
    (∀ server, sampleCluster.get? .unifiedPushServer "push" "a" = some server →
      server.status = none) ∧
    c'.get? .unifiedPushServer "push" "a" = some live ∧ live.status = some status ∧
    status.phase = .failing ∧ status.secondaryResources ≠ ∅ := by
  have hrefuses (r : Request) (c : Cluster) : refusing (fun _ => True) r c
      (if r.closes then (.error .unreachable, c) else c.answer r).1
      (if r.closes then (.error .unreachable, c) else c.answer r).2 := by
    split
    · exact .inr ⟨_, trivial, rfl, rfl⟩
    · exact .inl rfl
  have hended : (tried Request.closes sampleCluster).1.toOption = some (.requeue 5) := by
    decide +kernel
  have hrun := run_tried hrefuses hended
  have hlive : ((tried Request.closes sampleCluster).2.get? .unifiedPushServer "push" "a").any
      (fun live => live.status.any fun (status : ServerStatus) =>
        status.phase == .failing && status.secondaryResources != ∅) = true := by
    decide +kernel
  obtain ⟨live, hget, hstatus⟩ := (Option.any_eq_true _ _).1 hlive
  obtain ⟨status, hsome, hfields⟩ := (Option.any_eq_true _ _).1 hstatus
  obtain ⟨hphase, hchildren⟩ := Bool.and_eq_true_iff.1 hfields
  refine ⟨_, _, live, status, hrun, fun server => status_sampleCluster, hget, hsome, ?_, ?_⟩
  · exact beq_iff_eq.1 hphase
  · exact bne_iff_ne.1 hchildren

end PushOperator
