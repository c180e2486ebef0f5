import PushOperator.Proofs.Pass.Grounds

/-!
# Passes without failing calls

What becomes of a part of a pass when none of its calls fails. The answers are then what the
requests make one expect (`Smooth`), whoever else is at work on the cluster in between, and a part
of which everything can be built comes to a result or halts as it means to (`Settles`).
-/

namespace PushOperator

open Child Cluster

variable {α β : Type} {k : Kind} {ns name : String} {server : Server} {t : Trace}
  {pre : Trace → Prop} {post : α → Trace → Prop} {halts : Halt → Trace → Prop}

/-- A server stays in its place. -/
theorem Server.Remains.placed {live : Server} (h : server.Remains live)
    (hserver : Placed ns name server) : Placed ns name live := by
  obtain ⟨⟩ := h
  exact hserver

/-! ## Answers that fit -/

/-- The answer is no error. What was fetched is in its place, what was created is as it was wanted,
and a status that was written is that of the same server. -/
def Entry.Fits : Entry → Prop
  | .call (.get _ ns name) (.ok (some o)) => nsOf o = ns ∧ nameOf o = name
  | .call (.create _ o) (.ok created) =>
    created.metadata.ns = o.metadata.ns ∧ created.metadata.name = o.metadata.name ∧
      created.spec = o.spec
  | .call (.updateStatus .unifiedPushServer o) (.ok updated) => Server.Remains o updated
  | .call _ (.error _) => False
  | _ => True

theorem not_fits_error (r : Request) (error : Error) : ¬(Entry.call r (.error error)).Fits := by
  cases r with
  | get | list | create | update | delete | probe => exact id
  | updateStatus k o => cases k <;> exact id

/-- All answers fit. -/
def Smooth (t : Trace) : Prop := ∀ e ∈ t, e.Fits

theorem Smooth.mono {t' : Trace} (h : Smooth t') (ht : t ⊆ t') : Smooth t :=
  fun e he => h e (ht he)

theorem Smooth.last {e : Entry} (h : Smooth (t ++ [e])) : e.Fits := h e List.mem_concat_self

/-- Where no call fails all answers fit, whatever others write. -/
theorem smooth_of_steps {settings : Settings} {others : Cluster → Cluster → Prop} {c c' : Cluster}
    {x : Interaction (Except Error Action)} (hothers : ∀ c c', others c c' → Becomes c c')
    (hc : c.Stamped) (h : Steps (amid others) (reconcile settings ns name).run c t x c')
    (hfails : ∀ r error, .call r (.error error) ∉ t) : Smooth t := by
  have htold : Told t := told_of_steps hothers hc h
  have hinPlace : ∀ e ∈ t, e.InPlace := (inPlace_of_steps hothers hc.keyed h).2
  intro e he
  cases e with
  | event | secret => trivial
  | call r a =>
    cases a with
    | error error => exact absurd he (hfails r error)
    | ok reply =>
      cases r with
      | list | update | delete | probe => trivial
      | get k ns name =>
        cases reply with
        | none => trivial
        | some o => exact hinPlace _ he
      | updateStatus k o =>
        cases k with
        | unifiedPushServer => exact htold o reply he
        | _ => trivial
      | create k o =>
        obtain ⟨before, after, rfl⟩ := List.append_of_mem he
        obtain ⟨x₁, c₁, x₂, c₂, -, hstep, -⟩ := h.of_append
        cases hstep with
        | call hcall =>
          obtain ⟨c₃, -, hanswer⟩ := hcall
          obtain ⟨-, rfl, -⟩ := answer_create.1 (flaky_ok_iff.1 hanswer)
          exact ⟨rfl, rfl, rfl⟩

/-! ## Interactions -/

namespace Interaction

variable {x : Interaction α}

/-- If all answers fit, the interaction ends as `post` says. -/
def Leads (post : α → Trace → Prop) (x : Interaction α) (t : Trace) : Prop :=
  x.Grounded (fun _ _ => True) (fun a t' => Smooth t' → t ⊆ t' ∧ post a t') t

theorem leads_done {a : α} (h : post a t) : (done a).Leads post t :=
  fun _ => ⟨List.Subset.refl t, h⟩

theorem Leads.mono {post' : α → Trace → Prop} (h : x.Leads post t)
    (hpost : ∀ a t', Smooth t' → t ⊆ t' → post a t' → post' a t') : x.Leads post' t := by
  refine Grounded.mono h ?_
  intro a t' hled hsmooth
  obtain ⟨hsub, ha⟩ := hled hsmooth
  exact ⟨hsub, hpost a t' hsmooth hsub ha⟩

/-- What is led to after a longer trace, if the answers in that fit. -/
theorem leads_of_subset {t₀ : Trace} (ht : t₀ ⊆ t) (h : Smooth t → x.Leads post t) :
    x.Grounded (fun _ _ => True) (fun a t' => Smooth t' → t₀ ⊆ t' ∧ post a t') t := by
  by_cases hsmooth : Smooth t
  · refine Grounded.mono (h hsmooth) ?_
    intro a t' hled hsmooth'
    obtain ⟨hsub, ha⟩ := hled hsmooth'
    exact ⟨List.Subset.trans ht hsub, ha⟩
  · exact (grounded_of_bad (fun _ _ => True) (fun a t' => t₀ ⊆ t' ∧ post a t') Smooth.mono
      hsmooth).imp fun _ _ _ => trivial

theorem leads_bind {mid : α → Trace → Prop} {f : α → Interaction β} {post : β → Trace → Prop}
    (hx : x.Leads mid t) (hf : ∀ a t', Smooth t' → mid a t' → (f a).Leads post t') :
    (x.bind f).Leads post t := by
  refine grounded_bind hx ?_
  intro a t' hled
  by_cases hsmooth : Smooth t'
  · obtain ⟨hsub, ha⟩ := hled hsmooth
    exact leads_of_subset hsub fun _ => hf a t' hsmooth ha
  · exact (grounded_of_bad (fun _ _ => True) (fun a t' => t ⊆ t' ∧ post a t') Smooth.mono
      hsmooth).imp fun _ _ _ => trivial

theorem leads_call {r : Request} {next : Except Error r.Reply → Interaction α}
    (h : ∀ reply, (Entry.call r (.ok reply)).Fits →
      (next (.ok reply)).Leads post (t ++ [.call r (.ok reply)])) :
    (call r next).Leads post t := by
  refine ⟨trivial, fun a => leads_of_subset (List.subset_append_left t _) fun hsmooth => ?_⟩
  cases a with
  | error error => exact absurd hsmooth.last (not_fits_error r error)
  | ok reply => exact h reply hsmooth.last

theorem leads_emit {event : Event} {next : Interaction α}
    (h : next.Leads post (t ++ [.event server event])) : (emit server event next).Leads post t := by
  have hsub : t ⊆ t ++ [.event server event] := List.subset_append_left t _
  have hnext := leads_of_subset hsub fun _ => h
  exact hnext

theorem leads_secret {next : String → Interaction α}
    (h : ∀ text, (next text).Leads post (t ++ [.secret text])) : (secret next).Leads post t :=
  fun text => leads_of_subset (List.subset_append_left t _) fun _ => h text

/-- An interaction takes nothing back of its trace. -/
theorem leads_anywhere : x.Leads (fun _ _ => True) t := by
  induction x generalizing t with
  | done a => exact leads_done trivial
  | call r next ih => exact leads_call fun reply _ => ih (.ok reply)
  | emit server event next ih => exact leads_emit ih
  | secret next ih => exact leads_secret fun text => ih text

/-- What is known of a trace is known in the end. -/
theorem leads_of_lasting {p : Trace → Prop} (hp : Lasting p) (ht : p t) :
    x.Leads (fun _ t' => p t') t :=
  leads_anywhere.mono fun _ t' _ hsub _ => hp t t' hsub ht

end Interaction

open Interaction (leads_done leads_bind leads_call leads_emit leads_secret)

/-! ## Tasks -/

namespace Task

/-- After a trace as `pre` says, and if all answers fit, a task comes to a result and the trace is
as `post` says. -/
def Settles (pre : Trace → Prop) (post : α → Trace → Prop) (task : Task α) : Prop :=
  ∀ t, pre t → task.run.Leads (fun r t' => ∃ a, r = .ok a ∧ post a t') t

theorem settles_pure {a : α} (h : ∀ t, pre t → post a t) : Settles pre post (pure a) :=
  fun t ht => leads_done ⟨a, rfl, h t ht⟩

theorem Settles.bind {mid : α → Trace → Prop} {post : β → Trace → Prop} {x : Task α}
    {f : α → Task β} (hx : Settles pre mid x) (hf : ∀ a, Settles (mid a) post (f a)) :
    Settles pre post (x >>= f) := by
  intro t ht
  rw [run_bind]
  refine leads_bind (hx t ht) ?_
  rintro _ t' - ⟨a, rfl, ha⟩
  exact hf a t' ha

theorem settles_build {e : Except Error α} (hbuilds : ∃ a, e = .ok a)
    (h : ∀ a t, e = .ok a → pre t → post a t) : Settles pre post (liftM e : Task α) := by
  obtain ⟨a, rfl⟩ := hbuilds
  exact settles_pure fun t => h a t rfl

theorem settles_secret (hpre : Lasting pre) : Settles pre (fun _ => pre) secret := by
  intro t ht
  refine leads_secret fun text => leads_done ⟨text, rfl, ?_⟩
  exact hpre _ _ (List.subset_append_left t _) ht

theorem settles_call {r : Request} {post : r.Reply → Trace → Prop}
    (h : ∀ t reply, (Entry.call r (.ok reply)).Fits → pre t →
      post reply (t ++ [.call r (.ok reply)])) : Settles pre post (call r) :=
  fun t ht => leads_call fun reply hfits => leads_done ⟨reply, rfl, h t reply hfits ht⟩

theorem settles_requirePlace {m : ObjectMeta} (hns : m.ns = some ns) (hname : m.name = some name) :
    Settles pre (fun _ => pre) (requirePlace m) :=
  (settles_build ⟨ns, ObjectMeta.requireNs_eq_ok.2 hns⟩ fun _ _ _ h => h).bind fun _ =>
    (settles_build ⟨name, ObjectMeta.requireName_eq_ok.2 hname⟩ fun _ _ _ h => h).bind fun _ =>
      settles_pure fun _ h => h

/-- An object that says where it belongs is created there. -/
theorem settles_createOwned {owner : Server} {desired : Object k} {post : Object k → Trace → Prop}
    (howner : ∃ reference, ownerReference owner = .ok reference)
    (hplaced : Placed ns name desired)
    (hcreated : ∀ reference t created, pre t →
      post created (t ++ [.call (.create k (desired.withOwner reference)) (.ok created)])) :
    Settles pre (fun created t => Placed ns name created ∧ post created t)
      (createOwned owner desired) := by
  refine (settles_build howner fun _ _ _ h => h).bind fun reference => ?_
  have hcall : Settles pre (fun created t => Placed ns name created ∧ post created t)
      (call (.create k (desired.withOwner reference))) := by
    refine settles_call fun t created hfits ht => ⟨?_, hcreated reference t created ht⟩
    exact ⟨hfits.1.trans hplaced.1, hfits.2.1.trans hplaced.2⟩
  refine hcall.bind fun created t ht => ?_
  have hrest : Settles (fun t => Placed ns name created ∧ post created t)
      (fun created t => Placed ns name created ∧ post created t)
      (do requirePlace created.metadata; return created) :=
    (settles_requirePlace ht.1.1 ht.1.2).bind fun _ => settles_pure fun _ h => h
  exact hrest t ht

end Task

/-! ## Steps -/

namespace Pass

/-- A sequence ends where its first part halts, or goes on from its result. -/
theorem leads_exec_bind {x : Pass α} {f : α → Pass β} {st : PassState}
    {mid : Except Halt α × PassState → Trace → Prop}
    {post : Except Halt β × PassState → Trace → Prop} (hx : (x.exec st).Leads mid t)
    (hhalt : ∀ halt st' t', Smooth t' → mid (.error halt, st') t' → post (.error halt, st') t')
    (hf : ∀ a st' t', mid (.ok a, st') t' → ((f a).exec st').Leads post t') :
    ((x >>= f).exec st).Leads post t := by
  rw [exec_bind]
  refine leads_bind hx ?_
  rintro ⟨halt | a, st'⟩ t' hsmooth hmid
  · exact leads_done (hhalt halt st' t' hsmooth hmid)
  · exact hf a st' t' hmid

/-- Over a server and after a trace as `pre` says, and if all answers fit, a part of a pass comes to
a result as `post` says or halts as `halts` says. It leaves the server alone. -/
def Settles (server : Server) (pre : Trace → Prop) (post : α → Trace → Prop)
    (halts : Halt → Trace → Prop) (pass : Pass α) : Prop :=
  ∀ st t, st.server = server → pre t → (pass.exec st).Leads (fun p t' => p.2.server = server ∧
    match p.1 with
    | .ok a => post a t'
    | .error halt => halts halt t') t

theorem settles_pure {a : α} (h : ∀ t, pre t → post a t) :
    Settles server pre post halts (pure a) :=
  fun _ t hserver ht => leads_done ⟨hserver, h t ht⟩

theorem Settles.bind {mid : α → Trace → Prop} {post : β → Trace → Prop} {x : Pass α}
    {f : α → Pass β} (hx : Settles server pre mid halts x)
    (hf : ∀ a, Settles server (mid a) post halts (f a)) :
    Settles server pre post halts (x >>= f) := by
  intro st t hserver ht
  refine leads_exec_bind (hx st t hserver ht) ?_ ?_
  · exact fun _ _ _ _ hmid => hmid
  · exact fun a st' t' hmid => hf a st' t' hmid.1 hmid.2

theorem Settles.mono {pre' : Trace → Prop} {post' : α → Trace → Prop} {x : Pass α}
    (h : Settles server pre post halts x) (hpre : ∀ t, pre' t → pre t)
    (hpost : ∀ a t, post a t → post' a t) : Settles server pre' post' halts x := by
  intro st t hserver ht
  refine (h st t hserver (hpre t ht)).mono ?_
  rintro ⟨halt | a, st'⟩ t' - - ⟨hserver', hmid⟩
  · exact ⟨hserver', hmid⟩
  · exact ⟨hserver', hpost a t' hmid⟩

/-- What was known before a step is still known after it. -/
theorem Settles.frame {x : Pass α} {p : Trace → Prop} (h : Settles server pre post halts x)
    (hp : Lasting p) (hpre : ∀ t, pre t → p t) :
    Settles server pre (fun a t => post a t ∧ p t) halts x := by
  intro st t hserver ht
  refine (h st t hserver ht).mono ?_
  rintro ⟨halt | a, st'⟩ t' - hsub ⟨hserver', hmid⟩
  · exact ⟨hserver', hmid⟩
  · exact ⟨hserver', hmid, hp t t' hsub (hpre t ht)⟩

/-- What is known of no trace in particular. -/
theorem settles_of_known {p : Prop} {x : Pass α} (h : p → Settles server pre post halts x) :
    Settles server (fun t => p ∧ pre t) post halts x :=
  fun st t hserver ht => h ht.1 st t hserver ht.2

theorem settles_server_bind {post : β → Trace → Prop} {f : Server → Pass β}
    (hf : Settles server pre post halts (f server)) :
    Settles server pre post halts (Pass.server >>= f) := by
  rintro st t rfl ht
  exact hf st t rfl ht

theorem settles_liftM {task : Task α} (h : Task.Settles pre post task) :
    Settles server pre post halts (liftM task) := by
  intro st t hserver ht
  rw [exec_liftM]
  refine leads_bind (h t ht) ?_
  rintro _ t' - ⟨a, rfl, ha⟩
  exact leads_done ⟨hserver, ha⟩

theorem settles_build {e : Except Error α} (hbuilds : ∃ a, e = .ok a)
    (h : ∀ a t, e = .ok a → pre t → post a t) :
    Settles server pre post halts (liftM (liftM e : Task α)) :=
  settles_liftM (Task.settles_build hbuilds h)

theorem settles_throw {halt : Halt} (h : ∀ t, pre t → halts halt t) :
    Settles server pre post halts (throw halt : Pass α) :=
  fun _ t hserver ht => leads_done ⟨hserver, h t ht⟩

theorem settles_stop {action : Action} (h : ∀ t, pre t → halts (.early action) t) :
    Settles server pre post halts (stop action : Pass α) :=
  settles_throw h

/-- What each round establishes holds of all of them in the end. -/
theorem settles_mapM {l : List α} {f : α → Pass β} {seen : α → β → Trace → Prop}
    (hpre : Lasting pre) (hseen : ∀ a b, Lasting (seen a b))
    (hf : ∀ a ∈ l, Settles server pre (seen a) halts (f a)) :
    Settles server pre
      (fun bs t => pre t ∧ List.Forall₂ (fun a b => seen a b t) l bs) halts (l.mapM f) := by
  induction l with
  | nil => exact settles_pure fun _ h => ⟨h, .nil⟩
  | cons a l ih =>
    rw [List.mapM_cons]
    refine ((hf a List.mem_cons_self).frame hpre fun _ h => h).bind fun b => ?_
    have hrest : Settles server (fun t => seen a b t ∧ pre t)
        (fun bs t => pre t ∧ List.Forall₂ (fun a b => seen a b t) l bs) halts (l.mapM f) :=
      (ih fun b hb => hf b (List.mem_cons_of_mem a hb)).mono (fun _ h => h.2) fun _ _ h => h
    refine (hrest.frame (hseen a b) fun t h => h.1).bind fun bs => settles_pure ?_
    rintro t ⟨⟨ht, hbs⟩, hb⟩
    exact ⟨ht, .cons hb hbs⟩

/-- A child with a name is recorded, and reported when it is new. -/
theorem settles_track (ensured : Ensured k) (hname : ensured.object.metadata.name = some name)
    (hpre : ∀ t server event, pre t → pre (t ++ [.event server event])) :
    Settles server pre (fun _ => pre) halts (track ensured) := by
  refine (settles_build ⟨name, ObjectMeta.requireName_eq_ok.2 hname⟩ fun _ _ _ h => h).bind
    fun name' => ?_
  have hrecord : Settles server pre (fun _ => pre) halts (record k name') :=
    fun _ t hserver ht => leads_done ⟨hserver, ht⟩
  refine hrecord.bind fun _ => ?_
  split
  · exact fun st t hserver ht => leads_emit (leads_done ⟨hserver, hpre t _ _ ht⟩)
  · exact settles_pure fun _ h => h

/-! ## Making sure of one child -/

section

variable (hns : server.metadata.ns = some ns)
  (howner : ∃ reference, ownerReference server = .ok reference) (hname : name ≠ "")
include hns howner hname

/-- A child is found, or it is built and created. -/
theorem settles_ensure_of {build : Server → Task (Object k)} {built : Object k → Prop}
    {post : Ensured k → Trace → Prop}
    (hpost : ∀ ensured t server event,
      post ensured t → post ensured (t ++ [.event server event]))
    (hfound : ∀ found t, pre t →
      post (.found found) (t ++ [.call (.get k ns name) (.ok (some found))]))
    (hbuild : Task.Settles
      (fun t' => ∃ t, pre t ∧ t' = t ++ [.call (.get k ns name) (.ok none)])
      (fun o t => built o ∧ ∀ reference created, post (.created created)
        (t ++ [.call (.create k (o.withOwner reference)) (.ok created)])) (build server))
    (hplaced : ∀ o, built o → Placed ns name o) :
    Settles server pre post halts (ensure name build) := by
  simp only [ensure, Task.ensureExists, liftM_bind, bind_assoc]
  refine settles_server_bind ?_
  rw [ObjectMeta.requireNs_eq_ok.2 hns]
  have hplace : Settles server pre (fun ns' t => ns' = ns ∧ pre t) halts
      (liftM (liftM (Except.ok ns : Except Error String) : Task String)) :=
    settles_build ⟨ns, rfl⟩ fun ns' t h ht => ⟨(Except.ok.inj h).symm, ht⟩
  refine hplace.bind fun ns' => settles_of_known ?_
  rintro rfl
  have hlook : Settles server pre (fun a t' => (∀ o, a = some o → nameOf o = name) ∧
      ∃ t, pre t ∧ t' = t ++ [.call (.get k ns' name) (.ok a)]) halts
      (liftM (Task.call (.get k ns' name))) := by
    refine settles_liftM (Task.settles_call fun t a hfits ht => ⟨?_, t, ht, rfl⟩)
    rintro o rfl
    exact hfits.2
  refine hlook.bind fun a => settles_of_known fun hnamed => ?_
  rcases a with _ | found
  · simp only [liftM_bind, bind_assoc]
    refine (settles_liftM hbuild).bind fun o => settles_of_known fun hbuilt => ?_
    have hcreate := Task.settles_createOwned howner (hplaced o hbuilt)
      fun reference t created (h : ∀ reference created, post (.created created)
        (t ++ [.call (.create k (o.withOwner reference)) (.ok created)])) => h reference created
    refine (settles_liftM hcreate).bind fun created => settles_of_known fun hthere => ?_
    refine (settles_track (.created created) hthere.2 (hpost _)).bind fun _ => ?_
    exact settles_pure fun _ h => h
  · have hfoundName : found.metadata.name = some name := eq_some_of_getD (hnamed found rfl) hname
    have hthere : Settles server
        (fun t' => ∃ t, pre t ∧ t' = t ++ [.call (.get k ns' name) (.ok (some found))])
        (fun _ => post (.found found)) halts (track (.found found)) := by
      refine (settles_track (.found found) hfoundName (hpost _)).mono ?_ fun _ _ h => h
      rintro _ ⟨t, ht, rfl⟩
      exact hfound found t ht
    exact hthere.bind fun _ => settles_pure fun _ h => h

/-- What is known before a child is made sure of is known afterwards. -/
theorem settles_ensure {build : Server → Task (Object k)} {built : Object k → Prop}
    (hpre : Lasting pre)
    (hbuild : ∀ pre, Lasting pre → Task.Settles pre (fun o t => built o ∧ pre t) (build server))
    (hplaced : ∀ o, built o → Placed ns name o) :
    Settles server pre (fun ensured t => pre t ∧ Ensures server name built t ensured) halts
      (ensure name build) := by
  have hsnoc {t : Trace} (ht : pre t) (e : Entry) : pre (t ++ [e]) :=
    hpre _ _ (List.subset_append_left t _) ht
  refine settles_ensure_of hns howner hname ?_ ?_ ?_ hplaced
  · intro ensured t server' event h
    exact hpre.and lasting_ensures t _ (List.subset_append_left t _) h
  · exact fun found t ht => ⟨hsnoc ht _, .found hns List.mem_concat_self⟩
  · intro t ht
    have hbefore : pre t := by
      obtain ⟨t₀, ht₀, rfl⟩ := ht
      exact hsnoc ht₀ _
    refine (hbuild pre hpre t hbefore).mono ?_
    rintro _ t' - - ⟨o, rfl, ho, ht'⟩
    exact ⟨o, rfl, ho, fun reference created =>
      ⟨hsnoc ht' _, .created reference ho List.mem_concat_self⟩⟩

end

/-! ## The beginning of a pass -/

/-- The status of a server with a place can be stored. -/
theorem leads_persist (st : PassState) (hserver : Placed ns name st.server)
    (hpre : ∀ t o a, pre t → pre (t ++ [.call (.updateStatus .unifiedPushServer o) a]))
    (ht : pre t) :
    (persist.exec st).Leads
      (fun p t' => p.1 = .ok () ∧ st.server.Remains p.2.server ∧ pre t') t := by
  have hobserve : st.server.Remains st.server.observe := .restamp _ _ _ fun _ => rfl
  rw [exec_persist]
  split
  · exact leads_done ⟨rfl, hobserve, ht⟩
  · refine leads_call fun updated hfits => ?_
    rw [placed_eq_ok ⟨ns, hserver.1⟩ ⟨name, hserver.2⟩]
    exact leads_done ⟨rfl, hobserve.trans hfits, hpre _ _ _ ht⟩

theorem leads_start (st : PassState) (hserver : Placed ns name st.server)
    (hpre : ∀ t o a, pre t → pre (t ++ [.call (.updateStatus .unifiedPushServer o) a]))
    (ht : pre t) :
    (start.exec st).Leads (fun p t' => p.1 = .ok () ∧ st.server.Remains p.2.server ∧ pre t') t := by
  have hstarted : st.server.Remains (Server.start st.server) := by
    unfold Server.start
    split
    · exact .restamp _ _ _ fun _ => rfl
    · exact .refl _
  rw [exec_start]
  split
  · have hpersist : (persist.exec { st with server := Server.start st.server }).Leads
        (fun p t' => p.1 = .ok () ∧ (Server.start st.server).Remains p.2.server ∧ pre t') t :=
      leads_persist { st with server := Server.start st.server } (hstarted.placed hserver) hpre ht
    refine hpersist.mono ?_
    rintro p t' - - ⟨hok, hremains, ht'⟩
    exact ⟨hok, hstarted.trans hremains, ht'⟩
  · exact leads_done ⟨rfl, .refl _, ht⟩

end Pass

end PushOperator
