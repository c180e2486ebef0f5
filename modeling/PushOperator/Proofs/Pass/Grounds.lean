import PushOperator.Proofs.Pass.Replaces

/-!
# What the parts of a pass are grounded in

Rules for parts of passes whose requests are to be grounded in the trace. They are triples: after a
trace as `pre` says, all requests are grounded, and when the part comes to a result the trace is as
`post` says. Most of what is known of a trace stays known as it grows (`Lasting`).

Which server a whole pass is about depends on how the writes of its status are answered. When all
answers show the same server (`Told`), what is grounded for any later version of the server is
grounded in the pass (`grounds_of_steps`).
-/

namespace PushOperator

open Child

variable {α β σ : Type} {k : Kind} {settings : Settings} {ns name : String} {server : Server}
  {t : Trace} {grounds : Trace → Request → Prop} {pre stops : Trace → Prop}
  {post : α → Trace → Prop}

/-! ## Assertions about traces -/

/-- What is known of a trace stays known as it grows. -/
def Lasting (p : Trace → Prop) : Prop := ∀ t t', t ⊆ t' → p t → p t'

theorem lasting_mem (e : Entry) : Lasting (e ∈ ·) := fun _ _ ht he => ht he

theorem Lasting.and {p q : Trace → Prop} (hp : Lasting p) (hq : Lasting q) :
    Lasting fun t => p t ∧ q t :=
  fun t t' ht h => ⟨hp t t' ht h.1, hq t t' ht h.2⟩

/-- All answers to writes of a status show a server that is the same as the one that was written.
-/
def Tells (same : Server → Server → Prop) (t : Trace) : Prop :=
  ∀ server updated : Server, .call (.updateStatus .unifiedPushServer server) (.ok updated) ∈ t →
    same server updated

/-- They show a later version of it. -/
abbrev Told (t : Trace) : Prop := Tells Server.Remains t

/-- A later version of a server with the same uid, or still without one. -/
def Server.Stays (server live : Server) : Prop :=
  server.Remains live ∧ live.metadata.uid = server.metadata.uid

theorem Tells.mono {same : Server → Server → Prop} {t' : Trace} (h : Tells same t') (ht : t ⊆ t') :
    Tells same t :=
  fun server updated hmem => h server updated (ht hmem)

/-- Where only traces count that are good from their beginning, nothing matters any more once
something has gone wrong. -/
theorem grounded_of_bad (grounds : Trace → Request → Prop) (post : α → Trace → Prop)
    {good : Trace → Prop} (hgood : ∀ {t t'}, good t' → t ⊆ t' → good t) {x : Interaction α}
    (h : ¬good t) :
    x.Grounded (fun t r => good t → grounds t r) (fun a t' => good t' → post a t') t := by
  have hsnoc {t : Trace} (h : ¬good t) (e : Entry) : ¬good (t ++ [e]) :=
    fun h' => h (hgood h' (List.subset_append_left t _))
  induction x generalizing t with
  | done a => exact fun h' => absurd h' h
  | call r next ih => exact ⟨fun h' => absurd h' h, fun a => ih a (hsnoc h _)⟩
  | emit server event next ih => exact ih (hsnoc h _)
  | secret next ih => exact fun text => ih text (hsnoc h _)

/-- Whatever is grounded in what was seen is also grounded in less demanding terms. -/
theorem Interaction.Grounded.imp {grounds' : Trace → Request → Prop} {x : Interaction α}
    (h : x.Grounded grounds post t) (hgrounds : ∀ t r, grounds t r → grounds' t r) :
    x.Grounded grounds' post t := by
  induction x generalizing t with
  | done a => exact h
  | call r next ih => exact ⟨hgrounds t r h.1, fun a => ih a (h.2 a)⟩
  | emit server event next ih => exact ih h
  | secret next ih => exact fun text => ih text (h text)

/-- What may be asked at any time is grounded as long as nothing that is known gets lost. -/
theorem Interaction.Obeys.grounded {contract : Contract} {p : α → Prop} {x : Interaction α}
    (h : x.Obeys contract p) (hpre : Lasting pre)
    (hrely : ∀ r a, contract.rely r a)
    (hgrounds : ∀ t r, contract.asks r → pre t → grounds t r) (ht : pre t) :
    x.Grounded grounds (fun a t' => p a ∧ t ⊆ t' ∧ pre t') t := by
  have hsnoc {t : Trace} (ht : pre t) (e : Entry) : pre (t ++ [e]) :=
    hpre _ _ (List.subset_append_left t _) ht
  have hrest {t : Trace} {x : Interaction α} {e : Entry}
      (hx : x.Grounded grounds (fun a t' => p a ∧ t ++ [e] ⊆ t' ∧ pre t') (t ++ [e])) :
      x.Grounded grounds (fun a t' => p a ∧ t ⊆ t' ∧ pre t') (t ++ [e]) :=
    hx.mono fun _ _ ⟨ha, hsub, ht'⟩ =>
      ⟨ha, List.Subset.trans (List.subset_append_left t _) hsub, ht'⟩
  induction x generalizing t with
  | done a => exact ⟨h, List.Subset.refl t, ht⟩
  | call r next ih =>
    exact ⟨hgrounds t r h.1 ht, fun a => hrest (ih a (h.2 a (hrely r a)) (hsnoc ht _))⟩
  | emit server event next ih => exact hrest (ih h (hsnoc ht _))
  | secret next ih => exact fun text => hrest (ih text (h text) (hsnoc ht _))

/-! ## Tasks -/

namespace Task

/-- After a trace as `pre` says, a task asks for what is grounded. When it comes to a result, the
trace is as `post` says. -/
def Grounds (grounds : Trace → Request → Prop) (pre : Trace → Prop) (post : α → Trace → Prop)
    (task : Task α) : Prop :=
  ∀ t, pre t → task.run.Grounded grounds (fun r t' => t ⊆ t' ∧ ∀ a, r = .ok a → post a t') t

theorem grounds_pure {a : α} (h : ∀ t, pre t → post a t) : Grounds grounds pre post (pure a) := by
  intro t ht
  refine ⟨List.Subset.refl t, ?_⟩
  rintro b hb
  exact Except.ok.inj hb ▸ h t ht

theorem Grounds.bind {mid : α → Trace → Prop} {post : β → Trace → Prop} {x : Task α}
    {f : α → Task β} (hx : Grounds grounds pre mid x)
    (hf : ∀ a, Grounds grounds (mid a) post (f a)) : Grounds grounds pre post (x >>= f) := by
  intro t ht
  rw [run_bind]
  refine Interaction.grounded_bind (hx t ht) ?_
  rintro (error | a) t₁ ⟨hsub, hmid⟩
  · refine ⟨hsub, ?_⟩
    intro b hb
    cases hb
  · refine (hf a t₁ (hmid a rfl)).mono ?_
    rintro r t₂ ⟨hsub₂, hpost⟩
    exact ⟨List.Subset.trans hsub hsub₂, hpost⟩

theorem grounds_build {e : Except Error α} (h : ∀ a t, e = .ok a → pre t → post a t) :
    Grounds grounds pre post (liftM e : Task α) :=
  fun t ht => ⟨List.Subset.refl t, fun a ha => h a t ha ht⟩

theorem grounds_secret (hpre : ∀ t text, pre t → pre (t ++ [.secret text])) :
    Grounds grounds pre (fun _ => pre) secret :=
  fun t ht text => ⟨List.subset_append_left t _, fun _ _ => hpre t text ht⟩

/-- After a call, its answer is the last that was seen. -/
theorem grounds_call {r : Request} {post : r.Reply → Trace → Prop}
    (hr : ∀ t, pre t → grounds t r) (h : ∀ t a, pre t → post a (t ++ [.call r (.ok a)])) :
    Grounds grounds pre post (call r) := by
  intro t ht
  refine ⟨hr t ht, fun a => ⟨List.subset_append_left t _, ?_⟩⟩
  rintro b rfl
  exact h t b ht

theorem Grounds.mono {pre' : Trace → Prop} {post' : α → Trace → Prop} {x : Task α}
    (h : Grounds grounds pre post x) (hpre : ∀ t, pre' t → pre t)
    (hpost : ∀ a t, post a t → post' a t) : Grounds grounds pre' post' x := by
  intro t ht
  refine (h t (hpre t ht)).mono ?_
  rintro r t' ⟨hsub, ha⟩
  exact ⟨hsub, fun a hr => hpost a t' (ha a hr)⟩

theorem grounds_requirePlace (m : ObjectMeta) :
    Grounds grounds pre (fun _ => pre) (requirePlace m) :=
  (grounds_build fun _ _ _ h => h).bind fun _ => (grounds_build fun _ _ _ h => h).bind fun _ =>
    grounds_pure fun _ h => h

/-- A child that is created carries the reference to its owner. -/
theorem grounds_createOwned {owner : Server} {desired : Object k}
    {post : Object k → Trace → Prop}
    (hcreate : ∀ reference t, ownerReference owner = .ok reference → pre t →
      grounds t (.create k (desired.withOwner reference)))
    (hcreated : ∀ reference t created, ownerReference owner = .ok reference → pre t →
      post created (t ++ [.call (.create k (desired.withOwner reference)) (.ok created)])) :
    Grounds grounds pre post (createOwned owner desired) := by
  have hreference : Grounds grounds pre
      (fun reference t => ownerReference owner = .ok reference ∧ pre t)
      (liftM (ownerReference owner)) := grounds_build fun _ _ h ht => ⟨h, ht⟩
  refine hreference.bind fun reference => ?_
  have hcall : Grounds grounds (fun t => ownerReference owner = .ok reference ∧ pre t) post
      (call (.create k (desired.withOwner reference))) :=
    grounds_call (fun t h => hcreate reference t h.1 h.2)
      fun t created h => hcreated reference t created h.1 h.2
  refine hcall.bind fun created => ?_
  exact (grounds_requirePlace _).bind fun _ => grounds_pure fun _ h => h

end Task

/-! ## Steps -/

namespace Pass

/-- A sequence ends where its first part halts, or goes on from its result. -/
theorem grounded_exec_bind {x : Pass α} {f : α → Pass β} {st : PassState}
    {mid : Except Halt α × PassState → Trace → Prop}
    {post : Except Halt β × PassState → Trace → Prop}
    (hx : (x.exec st).Grounded grounds mid t)
    (hhalt : ∀ halt st' t', mid (.error halt, st') t' → post (.error halt, st') t')
    (hf : ∀ a st' t', mid (.ok a, st') t' → ((f a).exec st').Grounded grounds post t') :
    ((x >>= f).exec st).Grounded grounds post t := by
  rw [exec_bind]
  refine Interaction.grounded_bind hx ?_
  rintro ⟨halt | a, st'⟩ t' hmid
  · exact hhalt halt st' t' hmid
  · exact hf a st' t' hmid

/-- How a part of a pass ends: with the same server, and having taken nothing back of its trace.
That is as `stops` says when the part halts with an action, and as `post` says when it comes to a
result. -/
structure ComesTo (stops : Trace → Prop) (server : Server) (post : α → Trace → Prop) (t : Trace)
    (p : Except Halt α × PassState) (t' : Trace) : Prop where
  server : p.2.server = server
  grown : t ⊆ t'
  stops : ∀ action, p.1 = .error (.early action) → stops t'
  post : ∀ a, p.1 = .ok a → post a t'

/-- Over a server and after a trace as `pre` says, a part of a pass asks for what is grounded, and
it ends as it should. Of a failure nothing is said. -/
def Justifies (grounds : Trace → Request → Prop) (stops : Trace → Prop) (server : Server)
    (pre : Trace → Prop) (post : α → Trace → Prop) (pass : Pass α) : Prop :=
  ∀ st t, st.server = server → pre t →
    (pass.exec st).Grounded grounds (ComesTo stops server post t) t

/-- A part of a pass asks for what is grounded, and it does not matter how it halts. -/
abbrev Grounds (grounds : Trace → Request → Prop) (server : Server) (pre : Trace → Prop)
    (post : α → Trace → Prop) (pass : Pass α) : Prop :=
  Justifies grounds (fun _ => True) server pre post pass

theorem comesTo_ok {a : α} {st : PassState} {t' : Trace} (hserver : st.server = server)
    (hsub : t ⊆ t') (h : post a t') : ComesTo stops server post t (.ok a, st) t' where
  server := hserver
  grown := hsub
  stops := by simp
  post := by
    rintro b hb
    exact Except.ok.inj hb ▸ h

theorem comesTo_failed {error : Error} {st : PassState} {t' : Trace} (hserver : st.server = server)
    (hsub : t ⊆ t') :
    ComesTo stops server post t (.error (.failed error), st) t' where
  server := hserver
  grown := hsub
  stops := by simp
  post := by simp

theorem grounds_pure {a : α} (h : ∀ t, pre t → post a t) :
    Justifies grounds stops server pre post (pure a) :=
  fun _ t hserver ht => comesTo_ok hserver (List.Subset.refl t) (h t ht)

theorem Justifies.bind {mid : α → Trace → Prop} {post : β → Trace → Prop} {x : Pass α}
    {f : α → Pass β} (hx : Justifies grounds stops server pre mid x)
    (hf : ∀ a, Justifies grounds stops server (mid a) post (f a)) :
    Justifies grounds stops server pre post (x >>= f) := by
  intro st t hserver ht
  refine grounded_exec_bind (hx st t hserver ht) ?_ ?_
  · rintro halt st₁ t₁ ⟨hserver₁, hsub, hstops, -⟩
    refine ⟨hserver₁, hsub, fun action heq => hstops action ?_, by simp⟩
    rw [Except.error.inj heq]
  · rintro a st₁ t₁ ⟨hserver₁, hsub, -, hmid⟩
    refine (hf a st₁ t₁ hserver₁ (hmid a rfl)).mono ?_
    rintro p t₂ ⟨hserver₂, hsub₂, hstops, hpost⟩
    exact ⟨hserver₂, List.Subset.trans hsub hsub₂, hstops, hpost⟩

theorem Justifies.mono {pre' : Trace → Prop} {post' : α → Trace → Prop} {x : Pass α}
    (h : Justifies grounds stops server pre post x) (hpre : ∀ t, pre' t → pre t)
    (hpost : ∀ a t, post a t → post' a t) : Justifies grounds stops server pre' post' x := by
  intro st t hserver ht
  refine (h st t hserver (hpre t ht)).mono ?_
  rintro p t' ⟨hserver', hsub, hstops, ha⟩
  exact ⟨hserver', hsub, hstops, fun a hr => hpost a t' (ha a hr)⟩

theorem Justifies.imp {grounds' : Trace → Request → Prop} {x : Pass α}
    (h : Justifies grounds stops server pre post x) (hgrounds : ∀ t r, grounds t r → grounds' t r) :
    Justifies grounds' stops server pre post x :=
  fun st t hserver ht => (h st t hserver ht).imp hgrounds

/-- What was known before a step is still known after it. -/
theorem Justifies.frame {x : Pass α} {p : Trace → Prop}
    (h : Justifies grounds stops server pre post x) (hp : Lasting p) (hpre : ∀ t, pre t → p t) :
    Justifies grounds stops server pre (fun a t => post a t ∧ p t) x := by
  intro st t hserver ht
  refine (h st t hserver ht).mono ?_
  rintro q t' ⟨hserver', hsub, hstops, ha⟩
  exact ⟨hserver', hsub, hstops, fun a hr => ⟨ha a hr, hp t t' hsub (hpre t ht)⟩⟩

theorem grounds_server_bind {post : β → Trace → Prop} {f : Server → Pass β}
    (hf : Justifies grounds stops server pre post (f server)) :
    Justifies grounds stops server pre post (Pass.server >>= f) := by
  rintro st t rfl ht
  exact hf st t rfl ht

theorem grounds_liftM {task : Task α} (h : Task.Grounds grounds pre post task) :
    Justifies grounds stops server pre post (liftM task) := by
  intro st t hserver ht
  rw [exec_liftM]
  refine Interaction.grounded_bind (h t ht) ?_
  rintro (error | a) t₁ ⟨hsub, hpost⟩
  · exact comesTo_failed hserver hsub
  · exact comesTo_ok hserver hsub (hpost a rfl)

theorem grounds_build {e : Except Error α} (h : ∀ a t, e = .ok a → pre t → post a t) :
    Justifies grounds stops server pre post (liftM (liftM e : Task α)) :=
  grounds_liftM (Task.grounds_build h)

/-- What can be found out without the cluster is settled for all that follows. -/
theorem grounds_build_bind {post : β → Trace → Prop} {e : Except Error α} {f : α → Pass β}
    (hf : ∀ a, e = .ok a → Justifies grounds stops server pre post (f a)) :
    Justifies grounds stops server pre post (liftM (liftM e : Task α) >>= f) := by
  have hbuild : Justifies grounds stops server pre (fun a t => e = .ok a ∧ pre t)
      (liftM (liftM e : Task α)) := grounds_build fun a t ha ht => ⟨ha, ht⟩
  refine hbuild.bind fun a => ?_
  rintro st t hserver ⟨ha, ht⟩
  exact hf a ha st t hserver ht

theorem grounds_call {r : Request} {post : r.Reply → Trace → Prop}
    (hr : ∀ t, pre t → grounds t r) (h : ∀ t a, pre t → post a (t ++ [.call r (.ok a)])) :
    Justifies grounds stops server pre post (liftM (Task.call r)) :=
  grounds_liftM (Task.grounds_call hr h)

theorem grounds_modify {f : PassState → PassState} (hserver : ∀ st, (f st).server = st.server) :
    Justifies grounds stops server pre (fun _ => pre) (modify f : Pass Unit) :=
  fun st t hst ht => comesTo_ok ((hserver st).trans hst) (List.Subset.refl t) ht

theorem grounds_record {name : String} :
    Justifies grounds stops server pre (fun _ => pre) (record k name) :=
  grounds_modify fun _ => rfl

theorem grounds_fail {error : Error} :
    Justifies grounds stops server pre post (throw (.failed error) : Pass α) :=
  fun _ t hserver _ => comesTo_failed hserver (List.Subset.refl t)

theorem grounds_stop {action : Action} (h : ∀ t, pre t → stops t) :
    Justifies grounds stops server pre post (stop action : Pass α) :=
  fun _ t hserver ht => ⟨hserver, List.Subset.refl t, fun _ _ => h t ht, by simp⟩

theorem grounds_report {reason : Reason} {message : String}
    (hpre : ∀ t server event, pre t → pre (t ++ [.event server event])) :
    Justifies grounds stops server pre (fun _ => pre) (report reason message) :=
  fun _ t hserver ht => comesTo_ok hserver (List.subset_append_left t _) (hpre t _ _ ht)

theorem grounds_track {ensured : Ensured k}
    (hpre : ∀ t server event, pre t → pre (t ++ [.event server event])) :
    Justifies grounds stops server pre (fun _ => pre) (track ensured) := by
  refine grounds_build_bind fun name _ => grounds_record.bind fun _ => ?_
  split
  · exact grounds_report hpre
  · exact grounds_pure fun _ h => h

/-- What every round keeps is known in the end. What it is may depend on the rounds that are over.
-/
theorem grounds_forM {l : List α} {f : α → Pass Unit} {inv : List α → Trace → Prop}
    (hf : ∀ before a after, l = before ++ a :: after →
      Justifies grounds stops server (inv before) (fun _ => inv (before ++ [a])) (f a)) :
    Justifies grounds stops server (inv []) (fun _ => inv l) (l.forM f) := by
  suffices h : ∀ before after, l = before ++ after →
      Justifies grounds stops server (inv before) (fun _ => inv l) (after.forM f) from h [] l rfl
  intro before after hl
  induction after generalizing before with
  | nil => exact grounds_pure fun t ht => by rwa [hl, List.append_nil]
  | cons a after ih =>
    exact (hf before a after hl).bind fun _ => ih (before ++ [a]) (by simp [hl])

/-- Each round has come to something. -/
theorem exists_of_forall₂ {seen : α → β → Prop} {l : List α} {bs : List β}
    (h : List.Forall₂ seen l bs) {a : α} (ha : a ∈ l) : ∃ b ∈ bs, seen a b := by
  obtain ⟨i, hi, rfl⟩ := List.getElem_of_mem ha
  have hi' : i < bs.length := h.length_eq ▸ hi
  exact ⟨bs[i], List.getElem_mem hi', (List.forall₂_iff_get.1 h).2 i hi hi'⟩

/-- What each round establishes holds of all of them in the end. -/
theorem grounds_mapM {l : List α} {f : α → Pass β} {seen : α → β → Trace → Prop}
    (hpre : Lasting pre) (hseen : ∀ a b, Lasting (seen a b))
    (hf : ∀ a ∈ l, Justifies grounds stops server pre (seen a) (f a)) :
    Justifies grounds stops server pre
      (fun bs t => pre t ∧ List.Forall₂ (fun a b => seen a b t) l bs) (l.mapM f) := by
  induction l with
  | nil => exact grounds_pure fun _ h => ⟨h, .nil⟩
  | cons a l ih =>
    rw [List.mapM_cons]
    refine ((hf a List.mem_cons_self).frame hpre fun _ h => h).bind fun b => ?_
    have hrest : Justifies grounds stops server (fun t => seen a b t ∧ pre t)
        (fun bs t => pre t ∧ List.Forall₂ (fun a b => seen a b t) l bs) (l.mapM f) :=
      (ih fun b hb => hf b (List.mem_cons_of_mem a hb)).mono (fun _ h => h.2) fun _ _ h => h
    refine (hrest.frame (hseen a b) fun t h => h.1).bind fun bs => grounds_pure ?_
    rintro t ⟨⟨ht, hbs⟩, hb⟩
    exact ⟨ht, .cons hb hbs⟩

/-- A step that writes no objects but of some kinds. -/
theorem grounds_of_writesOnly {kinds : List Kind} {x : Pass α} (hwrites : WritesOnly kinds x)
    (hpre : Lasting pre)
    (hgrounds : ∀ t r, (∀ k, r.Writes k → k ∈ kinds) → pre t → grounds t r) :
    Grounds grounds server pre (fun _ => pre) x := by
  rintro st t rfl ht
  have hobeys := hwrites st.server st.stored st ⟨rfl, rfl⟩
  refine (hobeys.grounded hpre (fun _ _ => trivial) hgrounds ht).mono ?_
  rintro p t' ⟨⟨hserver, -⟩, hsub, ht'⟩
  exact ⟨hserver.1, hsub, fun _ _ => trivial, fun _ _ => ht'⟩

/-! ## Making sure of one child -/

/-- A child is looked for. When it is missing, it is built and created at once. -/
theorem grounds_ensure_of {build : Server → Task (Object k)} (mid : Object k → Trace → Prop)
    {post : Ensured k → Trace → Prop} (hpost : ∀ ensured t server event,
      post ensured t → post ensured (t ++ [.event server event]))
    (hget : ∀ ns t, server.metadata.ns = some ns → pre t → grounds t (.get k ns name))
    (hfound : ∀ ns found t, server.metadata.ns = some ns → pre t →
      post (.found found) (t ++ [.call (.get k ns name) (.ok (some found))]))
    (hbuild : ∀ ns, server.metadata.ns = some ns → Task.Grounds grounds
      (fun t' => ∃ t, pre t ∧ t' = t ++ [.call (.get k ns name) (.ok none)]) mid (build server))
    (hcreate : ∀ o reference t, ownerReference server = .ok reference → mid o t →
      grounds t (.create k (o.withOwner reference)))
    (hcreated : ∀ o reference t created, ownerReference server = .ok reference → mid o t →
      post (.created created) (t ++ [.call (.create k (o.withOwner reference)) (.ok created)])) :
    Justifies grounds stops server pre post (ensure name build) := by
  simp only [ensure, Task.ensureExists, liftM_bind, bind_assoc]
  refine grounds_server_bind (grounds_build_bind fun ns hns => ?_)
  have hns' : server.metadata.ns = some ns := ObjectMeta.requireNs_eq_ok.1 hns
  have hlook : Justifies grounds stops server pre
      (fun a t' => ∃ t, pre t ∧ t' = t ++ [.call (.get k ns name) (.ok a)])
      (liftM (Task.call (.get k ns name))) :=
    grounds_call (fun t => hget ns t hns') fun t a ht => ⟨t, ht, rfl⟩
  refine hlook.bind ?_
  rintro (_ | found)
  · simp only [liftM_bind, bind_assoc]
    refine (grounds_liftM (hbuild ns hns')).bind fun o => ?_
    have hcreates : Task.Grounds grounds (mid o) (fun created => post (.created created))
        (Task.createOwned server o) :=
      Task.grounds_createOwned (hcreate o) (hcreated o)
    refine (grounds_liftM hcreates).bind fun created => ?_
    exact (grounds_track (hpost _)).bind fun _ => grounds_pure fun _ h => h
  · have hthere : Justifies grounds stops server
        (fun t' => ∃ t, pre t ∧ t' = t ++ [.call (.get k ns name) (.ok (some found))])
        (fun _ => post (.found found)) (track (.found found)) := by
      refine (grounds_track (hpost (.found found))).mono ?_ fun _ _ h => h
      rintro _ ⟨t, ht, rfl⟩
      exact hfound ns found t hns' ht
    exact hthere.bind fun _ => grounds_pure fun _ h => h

/-- What the trace shows of a child that was made sure of: it was found, or it was missing, was
built and was created. -/
inductive Ensures (server : Server) (name : String) (built : Object k → Prop) (t : Trace) :
    Ensured k → Prop
  | found {ns : String} {found : Object k} : server.metadata.ns = some ns →
    .call (.get k ns name) (.ok (some found)) ∈ t → Ensures server name built t (.found found)
  | created {o created : Object k} (reference : OwnerReference) : built o →
    .call (.create k (o.withOwner reference)) (.ok created) ∈ t →
    Ensures server name built t (.created created)

theorem lasting_ensures {built : Object k → Prop} {ensured : Ensured k} :
    Lasting fun t => Ensures server name built t ensured := by
  intro t t' hsub h
  cases h with
  | found hns hget => exact .found hns (hsub hget)
  | created reference hbuilt hcreate => exact .created reference hbuilt (hsub hcreate)

/-- The trace shows an object of a certain sort in a place: it was found there, or was created. -/
inductive Met (k : Kind) (ns name : String) (p : Object k → Prop) (t : Trace) : Prop
  | found (o : Object k) : p o → .call (.get k ns name) (.ok (some o)) ∈ t → Met k ns name p t
  | created (o created : Object k) : p created → Cluster.Placed ns name o →
    .call (.create k o) (.ok created) ∈ t → Met k ns name p t

/-- The trace shows that a place was taken. -/
def Taken (k : Kind) (ns name : String) (t : Trace) : Prop := Met k ns name (fun _ => True) t

theorem lasting_met {p : Object k → Prop} : Lasting (Met k ns name p) := by
  rintro t t' hsub (⟨o, ho, hget⟩ | ⟨o, created, hcreated, hplaced, hcreate⟩)
  · exact .found o ho (hsub hget)
  · exact .created o created hcreated hplaced (hsub hcreate)

theorem lasting_taken : Lasting (Taken k ns name) := lasting_met

/-- A child that was made sure of was met in its place. -/
theorem Ensures.met {built : Object k → Prop} {ensured : Ensured k} {p : Object k → Prop}
    (h : Ensures server name built t ensured) (hns : server.metadata.ns = some ns)
    (hbuilt : ∀ o, built o → Cluster.Placed ns name o) (hp : p ensured.object) :
    Met k ns name p t := by
  cases h with
  | @found ns' found hns' hget =>
    obtain rfl := Option.some.inj (hns.symm.trans hns')
    exact .found found hp hget
  | @created o created reference ho hcreate =>
    exact .created (o.withOwner reference) created hp (hbuilt o ho) hcreate

/-- A task builds objects of a certain sort. It draws secrets at most and asks for nothing. -/
def BuildsOnly (built : Object k → Prop) (task : Task (Object k)) : Prop :=
  ∀ (grounds : Trace → Request → Prop) pre, (∀ t text, pre t → pre (t ++ [.secret text])) →
    task.Grounds grounds pre fun o t => built o ∧ pre t

theorem buildsOnly_ofExcept {built : Object k → Prop} {e : Except Error (Object k)}
    (h : ∀ o, e = .ok o → built o) : BuildsOnly built (liftM e) :=
  fun _ _ _ => Task.grounds_build fun o _ ho ht => ⟨h o ho, ht⟩

theorem buildsOnly_secret {built : Object k → Prop} {f : String → Task (Object k)}
    (h : ∀ text, BuildsOnly built (f text)) : BuildsOnly built (Task.secret >>= f) :=
  fun grounds pre hpre => (Task.grounds_secret hpre).bind fun text => h text grounds pre hpre

/-- What is known before a child is made sure of is known when it is created. -/
theorem grounds_ensure {built : Object k → Prop} {build : Server → Task (Object k)}
    (hpre : Lasting pre) (hbuild : BuildsOnly built (build server))
    (hget : ∀ ns t, server.metadata.ns = some ns → pre t → grounds t (.get k ns name))
    (hcreate : ∀ ns o reference t, server.metadata.ns = some ns → built o →
      ownerReference server = .ok reference → pre t →
      .call (.get k ns name) (.ok none) ∈ t → grounds t (.create k (o.withOwner reference))) :
    Justifies grounds stops server pre
      (fun ensured t => pre t ∧ Ensures server name built t ensured) (ensure name build) := by
  have hsnoc {t : Trace} (ht : pre t) (e : Entry) : pre (t ++ [e]) :=
    hpre _ _ (List.subset_append_left t _) ht
  refine grounds_ensure_of (fun o t => built o ∧ ∃ ns, server.metadata.ns = some ns ∧
    pre t ∧ .call (.get k ns name) (.ok none) ∈ t) ?_ hget ?_ ?_ ?_ ?_
  · intro ensured t server' event h
    exact hpre.and lasting_ensures t _ (List.subset_append_left t _) h
  · exact fun ns found t hns ht => ⟨hsnoc ht _, .found hns List.mem_concat_self⟩
  · intro ns hns
    have hmissing := hpre.and (lasting_mem (.call (.get k ns name) (.ok none)))
    refine (hbuild grounds _ fun t _ => hmissing t _ (List.subset_append_left t _)).mono ?_ ?_
    · rintro _ ⟨t, ht, rfl⟩
      exact ⟨hsnoc ht _, List.mem_concat_self⟩
    · rintro o t ⟨ho, ht, hmissing⟩
      exact ⟨ho, ns, hns, ht, hmissing⟩
  · rintro o reference t hreference ⟨ho, ns, hns, ht, hmissing⟩
    exact hcreate ns o reference t hns ho hreference ht hmissing
  · rintro o reference t created - ⟨ho, ns, hns, ht, -⟩
    exact ⟨hsnoc ht _, .created reference ho List.mem_concat_self⟩

/-! ## Whole passes -/

/-- A way of being the same server that a pass can not break: all that it changes of a server is the
status. -/
structure StatusBlind (same : Server → Server → Prop) : Prop where
  status : ∀ server status, same server { server with status }
  trans : ∀ {a b c}, same a b → same b c → same a c

theorem StatusBlind.refl {same : Server → Server → Prop} (hsame : StatusBlind same)
    (server : Server) : same server server :=
  hsame.status server server.status

theorem statusBlind_remains : StatusBlind Server.Remains where
  status _ _ := .restamp _ _ _ fun _ => rfl
  trans := Server.Remains.trans

theorem statusBlind_stays : StatusBlind Server.Stays where
  status server _ := ⟨statusBlind_remains.status server _, rfl⟩
  trans h h' := ⟨h.1.trans h'.1, h'.2.trans h.2⟩

theorem ComesTo.halted {halt : Halt} {st : PassState} {t' : Trace}
    (h : ComesTo stops server post t (.error halt, st) t') :
    (∃ error, halt = .failed error) ∨ stops t' := by
  cases halt with
  | failed error => exact .inl ⟨error, rfl⟩
  | early action => exact .inr (h.stops action rfl)

section

variable {same : Server → Server → Prop} (hsame : StatusBlind same)
  (hstatus : ∀ t o, grounds t (.updateStatus .unifiedPushServer o))

include hstatus in
/-- The status can be stored at any time, which ends the pass only if it fails. -/
theorem grounded_persisting
    (hpre : ∀ t o a, pre t → pre (t ++ [.call (.updateStatus .unifiedPushServer o) a]))
    {st : PassState} (ht : pre t) :
    (persist.exec st).Grounded grounds
      (fun p t' => pre t' ∧ ∀ action, p.1 ≠ .error (.early action)) t := by
  rw [exec_persist]
  split
  · exact ⟨ht, by simp⟩
  · refine ⟨hstatus t _, ?_⟩
    rintro (error | updated)
    · exact ⟨hpre _ _ _ ht, by simp⟩
    · dsimp only
      split
      · exact ⟨hpre _ _ _ ht, by simp⟩
      · exact ⟨hpre _ _ _ ht, by simp⟩

include hsame hstatus in
/-- What is stored is the same server. -/
theorem grounded_storing
    (hpre : ∀ t o a, pre t → pre (t ++ [.call (.updateStatus .unifiedPushServer o) a]))
    {st : PassState} (ht : pre t) :
    (persist.exec st).Grounded grounds
      (fun p t' => (pre t' ∧ ∀ action, p.1 ≠ .error (.early action)) ∧
        (Tells same t' → same st.server p.2.server)) t := by
  have hobserve : same st.server st.server.observe := hsame.status _ _
  have hrefl := hsame.refl st.server
  rw [exec_persist]
  split
  · exact ⟨⟨ht, by simp⟩, fun _ => hobserve⟩
  refine ⟨hstatus t _, ?_⟩
  rintro (error | updated)
  · exact ⟨⟨hpre _ _ _ ht, by simp⟩, fun _ => hrefl⟩
  · dsimp only
    split
    · refine ⟨⟨hpre _ _ _ ht, by simp⟩, fun htells => ?_⟩
      exact hsame.trans hobserve (htells _ _ List.mem_concat_self)
    · exact ⟨⟨hpre _ _ _ ht, by simp⟩, fun _ => hrefl⟩

include hstatus in
/-- A pass that has failed says so and stores its status at most. -/
theorem grounded_concluding {error : Error} {st : PassState} :
    (conclude error st).Grounded grounds
      (fun action t' => action = .requeue 5 ∧ ∃ e ∈ t', ¬e.IsCalm) t := by
  let said (t : Trace) : Prop := ∃ e ∈ t, ¬e.IsCalm
  have hsaid (event : Event) (h : event.reason = .reconcileFailed) :
      said (t ++ [.event (Server.fail st.server error) event]) :=
    ⟨_, List.mem_concat_self, fun hcalm => hcalm h⟩
  have hpre (t : Trace) (o : Server) (a) (h : said t) :
      said (t ++ [.call (.updateStatus .unifiedPushServer o) a]) := by
    obtain ⟨e, he, hcalm⟩ := h
    exact ⟨e, List.mem_append_left _ he, hcalm⟩
  refine Interaction.grounded_bind (grounded_persisting hstatus hpre (hsaid _ rfl)) ?_
  rintro p t' ⟨hsaid', -⟩
  exact ⟨rfl, hsaid'⟩

include hsame hstatus

/-- What is grounded for all versions of the server is grounded in a pass over it, as long as the
answers show that server. The pass ends as its steps stop, or it says that it has failed. -/
theorem grounded_run
    (hpre : ∀ t o a, pre t → pre (t ++ [.call (.updateStatus .unifiedPushServer o) a]))
    (hstops : ∀ t o a, stops t → stops (t ++ [.call (.updateStatus .unifiedPushServer o) a]))
    (hdefer : Justifies grounds stops server pre (fun _ => pre) deferToActive)
    (hconverge : ∀ live, same server live →
      Justifies grounds stops live pre (fun _ => stops) (converge settings))
    (ht : pre t) :
    (run settings server).Grounded (fun t r => Tells same t → grounds t r)
      (fun action t' => Tells same t' →
        stops t' ∨ action = .requeue 5 ∧ ∃ e ∈ t', ¬e.IsCalm) t := by
  have hstatus' (t : Trace) (o : Server) :
      Tells same t → grounds t (.updateStatus .unifiedPushServer o) := fun _ => hstatus t o
  rw [run_eq]
  suffices hbody : ((body settings).exec { server, stored := server.status }).Grounded
      (fun t r => Tells same t → grounds t r)
      (fun p t' => Tells same t' → (∃ error, p.1 = .error (.failed error)) ∨ stops t') t by
    refine Interaction.grounded_bind hbody ?_
    rintro ⟨(error | action) | action, st⟩ t' hends
    · exact (grounded_concluding hstatus').mono fun _ _ h _ => .inr h
    · exact fun htells => .inl (by simpa using hends htells)
    · exact fun htells => .inl (by simpa using hends htells)
  have hhalted {γ : Type} {live : Server} {post : γ → Trace → Prop} {t t' : Trace} {halt : Halt}
      {st : PassState} (h : ComesTo stops live post t (.error halt, st) t') :
      Tells same t' → (∃ error, (.error halt : Except Halt Action) = .error (.failed error)) ∨
        stops t' :=
    fun _ => by simpa using h.halted
  have hfirst := hdefer { server, stored := server.status } t rfl ht
  refine grounded_exec_bind (hfirst.imp fun _ _ h _ => h) (fun _ _ _ => hhalted) ?_
  rintro _ st t₁ ⟨hserver, -, -, hkept⟩
  obtain rfl : st.server = server := hserver
  have ht₁ : pre t₁ := hkept _ rfl
  have hstart : (start.exec st).Grounded grounds
      (fun p t' => (pre t' ∧ ∀ action, p.1 ≠ .error (.early action)) ∧
        (Tells same t' → same st.server p.2.server)) t₁ := by
    have hstarted : same st.server (Server.start st.server) := by
      unfold Server.start
      split
      · exact hsame.status _ _
      · exact hsame.refl _
    rw [exec_start]
    split
    · refine (grounded_storing hsame hstatus hpre (t := t₁) ht₁).mono ?_
      rintro p t' ⟨ht', hstored⟩
      exact ⟨ht', fun htells => hsame.trans hstarted (hstored htells)⟩
    · exact ⟨⟨ht₁, by simp⟩, fun _ => hsame.refl _⟩
  refine grounded_exec_bind (hstart.imp fun _ _ h _ => h) ?_ ?_
  · rintro (error | action) st₂ t₂ ⟨⟨-, hearly⟩, -⟩ -
    · exact .inl ⟨error, rfl⟩
    · exact absurd rfl (hearly action)
  rintro _ st₂ t₂ ⟨⟨ht₂, -⟩, hstored⟩
  by_cases htells : Tells same t₂
  · have hsteps := hconverge _ (hstored htells) st₂ t₂ rfl ht₂
    refine grounded_exec_bind (hsteps.imp fun _ _ h _ => h) (fun _ _ _ => hhalted) ?_
    rintro _ st₃ t₃ ⟨-, -, -, hstopped⟩
    have hsucceed : (succeed.exec st₃).Grounded (fun t r => Tells same t → grounds t r)
        (fun p t' => stops t' ∧ ∀ action, p.1 ≠ .error (.early action)) t₃ :=
      grounded_persisting hstatus' hstops (hstopped () rfl)
    refine grounded_exec_bind hsucceed ?_ ?_
    · exact fun halt st₄ t₄ h _ => .inr h.1
    · exact fun _ st₄ t₄ h _ => .inr h.1
  · exact grounded_of_bad grounds _ Tells.mono htells

end

end Pass

/-! ## Runs -/

/-- The pass has fetched its server first. -/
def Fetches (ns name : String) (server : Server) (t : Trace) : Prop :=
  t.head? = some (.call (.get .unifiedPushServer ns name) (.ok (some server)))

theorem Fetches.append (h : Fetches ns name server t) (t' : Trace) :
    Fetches ns name server (t ++ t') := by
  rw [Fetches, List.head?_append, h]
  rfl

theorem Fetches.unique {server' : Server} (h : Fetches ns name server t)
    (h' : Fetches ns name server' t) : server = server' := by
  have heq := Option.some.inj (h.symm.trans h')
  cases heq
  rfl

theorem Fetches.mem (h : Fetches ns name server t) :
    .call (.get .unifiedPushServer ns name) (.ok (some server)) ∈ t :=
  List.mem_of_head? h

/-- A pass goes on from a server, or it has only begun. -/
theorem fetches_of_steps {w : World σ} {s s' : σ} {r : Request}
    {next : Except Error r.Reply → Interaction (Except Error Action)}
    (h : Steps w (reconcile settings ns name).run s t (.call r next) s') :
    (t = [] ∧ r = .get .unifiedPushServer ns name) ∨ ∃ server, Fetches ns name server t := by
  cases hwatched : settings.watches ns with
  | false =>
    rw [run_reconcile_of_unwatched hwatched] at h
    cases h.of_done.2.1
  | true =>
    rw [run_reconcile hwatched] at h
    rcases h.call_cases with ⟨rfl, heq, -⟩ | ⟨answer, s₁, t', -, hrest, rfl⟩
    · exact .inl ⟨rfl, (Interaction.call.inj heq).1⟩
    rcases answer with error | _ | server
    · cases hrest.of_done.2.1
    · cases hrest.of_done.2.1
    · exact .inr ⟨server, rfl⟩

section

variable {same : Server → Server → Prop} {grounds : Server → Trace → Request → Prop}
  {ends : Server → Action → Trace → Prop}
  (hrun : ∀ server, (Pass.run settings server).Grounded
    (fun t r => Tells same t → grounds server t r) (ends server)
    [.call (.get .unifiedPushServer ns name) (.ok (some server))])
include hrun

/-- A pass begins by fetching its server, and what follows is the pass over that server. -/
theorem grounded_of_steps {w : World σ} {s s' : σ} {x : Interaction (Except Error Action)}
    (hfetches : Fetches ns name server t)
    (h : Steps w (reconcile settings ns name).run s t x s') :
    x.Grounded (fun t r => Tells same t → grounds server t r)
      (fun result t => ∃ action, result = .ok action ∧ ends server action t) t := by
  cases hwatched : settings.watches ns with
  | false =>
    rw [run_reconcile_of_unwatched hwatched] at h
    obtain ⟨rfl, -, -⟩ := h.of_done
    cases hfetches
  | true =>
    rw [run_reconcile hwatched] at h
    rcases h.call_cases with ⟨rfl, -, -⟩ | ⟨answer, s₁, t', -, hrest, rfl⟩
    · cases hfetches
    obtain rfl : answer = .ok (some server) := by
      cases hfetches
      rfl
    have hgrounded : ((Pass.run settings server).bind fun action => .done (.ok action)).Grounded
        (fun t r => Tells same t → grounds server t r)
        (fun (result : Except Error Action) t => ∃ action, result = .ok action ∧
          ends server action t) [.call (.get .unifiedPushServer ns name) (.ok (some server))] :=
      Interaction.grounded_bind (hrun server) fun action _ hends => ⟨action, rfl, hends⟩
    exact hgrounded.steps hrest

theorem grounds_of_steps {w : World σ} {s s' : σ} {r : Request}
    {next : Except Error r.Reply → Interaction (Except Error Action)}
    (htells : Tells same t) (h : Steps w (reconcile settings ns name).run s t (.call r next) s') :
    (t = [] ∧ r = .get .unifiedPushServer ns name) ∨
      ∃ server, Fetches ns name server t ∧ grounds server t r := by
  rcases fetches_of_steps h with hfirst | ⟨server, hfetches⟩
  · exact .inl hfirst
  · exact .inr ⟨server, hfetches, (grounded_of_steps hrun hfetches h).1 htells⟩

/-- What a pass comes to when it is run to its end. -/
theorem ends_of_run {w : World σ} {s s' : σ} {result : Except Error Action}
    (hfetches : Fetches ns name server t)
    (h : Run w (reconcile settings ns name).run s t (some result) s') :
    ∃ action, result = .ok action ∧ ends server action t := by
  obtain ⟨x, hsteps, hend⟩ := Steps.of_run h
  obtain rfl := hend result rfl
  exact grounded_of_steps hrun hfetches hsteps

end

open Cluster

/-- The server that a pass has in mind is one that it has seen, maybe with another status. -/
theorem Fetched.eq_shown (h : Fetched ns name t server) : ∃ read : Server,
    ⟨.unifiedPushServer, read⟩ ∈ shown t ∧ server = { read with status := server.status } := by
  induction h with
  | get hget => exact ⟨_, mem_shown_of_get hget, rfl⟩
  | written _ hwritten => exact ⟨_, mem_shown_of_entry hwritten List.mem_cons_self, rfl⟩
  | withStatus status _ ih =>
    obtain ⟨read, hread, heq⟩ := ih
    exact ⟨read, hread, by rw [heq]⟩

/-- A status is only stored for a server that is still the one that was read. -/
theorem stays_of_steps {others : Cluster → Cluster → Prop} {c c' : Cluster}
    {x : Interaction (Except Error Action)} (hothers : ∀ c c', others c c' → Becomes c c')
    (hc : c.Stamped) (h : Steps (amid others) (reconcile settings ns name).run c t x c') :
    Tells Server.Stays t := by
  intro o updated hmem
  obtain ⟨before, after, next, c₁, c₂, rfl, hbefore, c₃, hbetween, hanswer⟩ := h.of_mem hmem
  obtain ⟨hstamped, hrecent⟩ := recent_of_steps hothers hc hbefore
  have hbecomes := hothers _ _ hbetween
  obtain ⟨live, hfetched, hwarrant⟩ := (warranted_of_steps hbefore).2 rfl
  cases hwarrant with
  | status status =>
    obtain ⟨read, hread, heq⟩ := hfetched.eq_shown
    obtain ⟨hstored, -, rfl, -⟩ := (hrecent.becomes hbecomes).of_replace_ok hread
      (by rw [heq]) (flaky_ok_iff.1 hanswer)
    -- What is stored has a uid, so the stamp leaves it alone.
    obtain ⟨uid, huid⟩ := Option.ne_none_iff_exists'.1 <|
      (hbecomes.stamped hstamped).uid _ _ _ _ hstored
    rw [heq]
    refine ⟨Server.remains_stamped _ _ status, ?_⟩
    simp [stamped, huid]

theorem told_of_steps {others : Cluster → Cluster → Prop} {c c' : Cluster}
    {x : Interaction (Except Error Action)} (hothers : ∀ c c', others c c' → Becomes c c')
    (hc : c.Stamped) (h : Steps (amid others) (reconcile settings ns name).run c t x c') :
    Told t :=
  fun o updated hmem => (stays_of_steps hothers hc h o updated hmem).1

end PushOperator
