import PushOperator.Proofs.Child.Place
import PushOperator.Proofs.Interaction.Contract
import PushOperator.Proofs.Pass.Completes

/-!
# Contracts of passes

What a part of a pass may ask, how it may halt, and what it keeps of the server that it works on. As
with interactions, all branches count. The rules follow the way in which parts are put together.
-/

namespace PushOperator

variable {α β : Type} {k : Contract} {post : α → Prop}

open Interaction

/-- A child in the name of its owner. -/
def Object.withOwner {kind : Kind} (o : Object kind) (reference : OwnerReference) : Object kind :=
  { o with metadata := { o.metadata with ownerReferences := some [reference] } }

/-! ## Tasks -/

namespace Task

/-- A task asks only what it may, and its result is as `post` says. -/
def Obeys (k : Contract) (post : α → Prop) (task : Task α) : Prop :=
  task.run.Obeys k fun r => ∀ a, r = .ok a → post a

theorem obeys_pure {a : α} (h : post a) : Obeys k post (pure a) := by
  rintro b hb
  exact Except.ok.inj hb ▸ h

theorem obeys_bind {mid : α → Prop} {post : β → Prop} {x : Task α} {f : α → Task β}
    (hx : Obeys k mid x) (hf : ∀ a, mid a → Obeys k post (f a)) : Obeys k post (x >>= f) := by
  unfold Obeys
  rw [run_bind, obeys_bind_iff]
  refine Interaction.Obeys.mono hx (fun _ h => h) (fun _ _ h => h) ?_
  rintro (e | a) hr
  · rintro b hb
    cases hb
  · exact hf a (hr a rfl)

theorem obeys_ofExcept {e : Except Error α} (h : ∀ a, e = .ok a → post a) :
    Obeys k post (liftM e : Task α) := h

theorem obeys_call {r : Request} (h : k.asks r) :
    Obeys k (fun a => k.rely r (.ok a)) (call r) := by
  refine ⟨h, ?_⟩
  rintro a ha b rfl
  exact ha

theorem obeys_secret : Obeys k (fun _ => True) secret :=
  fun _ _ _ => trivial

theorem Obeys.attempt {x : Task α} (h : Obeys k post x) :
    Obeys k (fun r => ∀ a, r = .ok a → post a) x.attempt := by
  unfold Obeys
  rw [run_attempt, obeys_bind_iff]
  refine Interaction.Obeys.mono h (fun _ h => h) (fun _ _ h => h) ?_
  rintro r hr r' hr'
  exact Except.ok.inj hr' ▸ hr

theorem Obeys.weaken {post' : α → Prop} {x : Task α} (h : Obeys k post x)
    (hpost : ∀ a, post a → post' a) : Obeys k post' x :=
  Interaction.Obeys.mono h (fun _ h => h) (fun _ _ h => h) fun _ hr a ha => hpost a (hr a ha)

theorem obeys_build {e : Except Error α} : Obeys k (fun _ => True) (liftM e : Task α) :=
  obeys_ofExcept fun _ _ => trivial

theorem obeys_requirePlace {m : ObjectMeta} : Obeys k (fun _ => True) (requirePlace m) :=
  obeys_bind obeys_build fun _ _ => obeys_bind obeys_build fun _ _ => obeys_pure trivial

/-! What it takes for children to be seen to within a contract. -/

section

variable {kind : Kind} {owner : Server} {name : String} {desired : Object kind}
  {mid good : Object kind → Prop}

theorem obeys_createOwned_of
    (hcreate : ∀ reference, k.asks (.create kind (desired.withOwner reference)))
    (hgood : ∀ reference o, k.rely (.create kind (desired.withOwner reference)) (.ok o) → good o) :
    Obeys k good (createOwned owner desired) := by
  refine obeys_bind obeys_build fun reference _ => ?_
  refine obeys_bind (obeys_call (hcreate reference)) fun created hcreated => ?_
  exact obeys_bind obeys_requirePlace fun _ _ => obeys_pure (hgood reference created hcreated)

theorem obeys_ensureExists_of (good : Object kind → Prop) {build : Task (Object kind)}
    (hbuild : Obeys k mid build)
    (hget : ∀ ns, owner.metadata.ns = some ns → k.asks (.get kind ns name))
    (hfound : ∀ ns o, owner.metadata.ns = some ns → k.rely (.get kind ns name) (.ok (some o)) →
      good o)
    (hcreate : ∀ o reference, mid o → k.asks (.create kind (o.withOwner reference)))
    (hcreated : ∀ o reference o', mid o →
      k.rely (.create kind (o.withOwner reference)) (.ok o') → good o') :
    Obeys k (fun ensured => good ensured.object) (ensureExists owner name build) := by
  refine obeys_bind (obeys_ofExcept fun _ => ObjectMeta.requireNs_eq_ok.1) fun ns hns => ?_
  refine obeys_bind (obeys_call (hget ns hns)) fun found hrely => ?_
  cases found with
  | some found => exact obeys_pure (hfound ns found hns hrely)
  | none =>
    refine obeys_bind hbuild fun desired hdesired => ?_
    refine obeys_bind (obeys_createOwned_of (hcreate desired · hdesired)
      (hcreated desired · · hdesired)) fun created hgood => ?_
    exact obeys_pure hgood

theorem obeys_createOrUpdate_of
    (hget : ∀ ns name, owner.metadata.ns = some ns → desired.metadata.name = some name →
      k.asks (.get kind ns name))
    (hcreate : ∀ reference, k.asks (.create kind (desired.withOwner reference)))
    (hupdate : ∀ ns name found, owner.metadata.ns = some ns →
      k.rely (.get kind ns name) (.ok (some found)) →
      k.asks (.update kind { found with spec := desired.spec })) :
    Obeys k (fun _ => True) (createOrUpdate owner desired) := by
  refine obeys_bind (obeys_ofExcept fun _ => ObjectMeta.requireNs_eq_ok.1) fun ns hns => ?_
  refine obeys_bind (obeys_ofExcept fun _ => ObjectMeta.requireName_eq_ok.1) fun name hname => ?_
  refine obeys_bind (obeys_call (hget ns name hns hname)) fun found hrely => ?_
  cases found with
  | none =>
    have hcreates : Obeys k (fun _ => True) (createOwned owner desired) :=
      obeys_createOwned_of hcreate fun _ _ _ => trivial
    exact obeys_bind hcreates fun _ _ => obeys_pure trivial
  | some found =>
    dsimp only
    split
    · exact obeys_pure trivial
    · exact obeys_bind (obeys_call (hupdate ns name found hns hrely)) fun _ _ =>
        obeys_pure trivial

theorem obeys_applyCorrection_of {corrected : Option (Object kind)}
    (hupdate : ∀ o, corrected = some o → k.asks (.update kind o)) :
    Obeys k (fun _ => True) (applyCorrection corrected) := by
  cases corrected with
  | none => exact obeys_pure trivial
  | some corrected =>
    refine obeys_bind (obeys_call (hupdate corrected rfl)) fun _ _ => ?_
    exact obeys_bind obeys_requirePlace fun _ _ => obeys_pure trivial

end

end Task

/-! ## Parts of passes -/

namespace Pass

/-- What a part of a pass has to keep: the contract of its requests, what is to be known of the
server and of its stored status, and the actions that it may halt with. -/
structure Duties where
  contract : Contract
  keeps : Server → Option ServerStatus → Prop
  stops : Action → Prop

variable {d : Duties}

/-- A part of a pass keeps its duties, and its result is as `post` says. -/
def Obeys (d : Duties) (post : α → Prop) (pass : Pass α) : Prop :=
  ∀ st, d.keeps st.server st.stored → (pass.exec st).Obeys d.contract fun p =>
    d.keeps p.2.server p.2.stored ∧ (∀ a, p.1 = .ok a → post a) ∧
      ∀ action, p.1 = .error (.early action) → d.stops action

theorem Obeys.mono {d' : Duties} {post' : α → Prop} {x : Pass α} (h : Obeys d post x)
    (hkeeps : d'.keeps = d.keeps) (hasks : ∀ r, d.contract.asks r → d'.contract.asks r)
    (hrely : ∀ r a, d'.contract.rely r a → d.contract.rely r a)
    (hstops : ∀ action, d.stops action → d'.stops action) (hpost : ∀ a, post a → post' a) :
    Obeys d' post' x := by
  intro st hst
  refine Interaction.Obeys.mono (h st (hkeeps ▸ hst)) hasks hrely ?_
  rintro ⟨r, st'⟩ ⟨hst', ha, hs⟩
  exact ⟨hkeeps ▸ hst', fun a h => hpost a (ha a h), fun action h => hstops action (hs action h)⟩

theorem obeys_pure {a : α} (h : post a) : Obeys d post (pure a) := by
  intro st hst
  refine ⟨hst, ?_, ?_⟩
  · rintro b hb
    exact Except.ok.inj hb ▸ h
  · rintro action h
    cases h

theorem obeys_bind {mid : α → Prop} {post : β → Prop} {x : Pass α} {f : α → Pass β}
    (hx : Obeys d mid x) (hf : ∀ a, mid a → Obeys d post (f a)) : Obeys d post (x >>= f) := by
  intro st hst
  rw [exec_bind, obeys_bind_iff]
  refine Interaction.Obeys.mono (hx st hst) (fun _ h => h) (fun _ _ h => h) ?_
  rintro ⟨r, st'⟩ ⟨hst', hr, hstop⟩
  cases r with
  | ok a => exact hf a (hr a rfl) st' hst'
  | error h =>
    refine ⟨hst', ?_, ?_⟩
    · rintro b hb
      cases hb
    · rintro action heq
      obtain rfl := Except.error.inj heq
      exact hstop action rfl

theorem obeys_liftM {task : Task α} (h : Task.Obeys d.contract post task) :
    Obeys d post (liftM task) := by
  intro st hst
  rw [exec_liftM, obeys_bind_iff]
  refine Interaction.Obeys.mono h (fun _ h => h) (fun _ _ h => h) ?_
  rintro (e | a) hr
  · refine ⟨hst, ?_, ?_⟩ <;> rintro _ h <;> cases h
  · refine ⟨hst, ?_, ?_⟩
    · rintro b hb
      exact Except.ok.inj hb ▸ hr a rfl
    · rintro action h
      cases h

theorem obeys_get : Obeys d (fun st => d.keeps st.server st.stored) get := by
  intro st hst
  refine ⟨hst, ?_, ?_⟩
  · rintro st' h
    exact Except.ok.inj h ▸ hst
  · rintro action h
    cases h

theorem obeys_server : Obeys d (fun server => ∃ stored, d.keeps server stored) server :=
  obeys_bind obeys_get fun st hst => obeys_pure ⟨st.stored, hst⟩

/-- A change of the state that leaves the server alone. -/
theorem obeys_modify {f : PassState → PassState} (hserver : ∀ st, (f st).server = st.server)
    (hstored : ∀ st, (f st).stored = st.stored) :
    Obeys d (fun _ => True) (modify f : Pass Unit) := by
  intro st hst
  refine ⟨by simpa only [hserver, hstored] using hst, fun _ _ => trivial, ?_⟩
  rintro action h
  cases h

theorem obeys_record {k : Kind} {name : String} : Obeys d (fun _ => True) (record k name) :=
  obeys_modify (fun _ => rfl) fun _ => rfl

theorem obeys_forget {k : Kind} {name : String} : Obeys d (fun _ => True) (forget k name) :=
  obeys_modify (fun _ => rfl) fun _ => rfl

theorem obeys_noteReady {ready : Bool} : Obeys d (fun _ => True) (noteReady ready) :=
  obeys_modify (fun _ => rfl) fun _ => rfl

theorem obeys_fail {error : Error} : Obeys d post (throw (.failed error) : Pass α) := by
  intro st hst
  refine ⟨hst, ?_, ?_⟩ <;> rintro _ h <;> cases h

theorem obeys_stop {action : Action} (h : d.stops action) :
    Obeys d post (stop action : Pass α) := by
  intro st hst
  refine ⟨hst, ?_, ?_⟩
  · rintro _ h
    cases h
  · rintro action' heq
    obtain rfl := Halt.early.inj (Except.error.inj heq)
    exact h

theorem obeys_report {reason : Reason} {message : String} :
    Obeys d (fun _ => True) (report reason message) := by
  intro st hst
  refine ⟨hst, fun _ _ => trivial, ?_⟩
  rintro action h
  cases h

theorem Obeys.weaken {post' : α → Prop} {x : Pass α} (h : Obeys d post x)
    (hpost : ∀ a, post a → post' a) : Obeys d post' x :=
  h.mono rfl (fun _ h => h) (fun _ _ h => h) (fun _ h => h) hpost

theorem obeys_forM {l : List α} {f : α → Pass Unit} (hf : ∀ a ∈ l, Obeys d (fun _ => True) (f a)) :
    Obeys d (fun _ => True) (l.forM f) := by
  induction l with
  | nil => exact obeys_pure trivial
  | cons a l ih =>
    refine obeys_bind (hf a List.mem_cons_self) fun _ _ => ih fun b hb => ?_
    exact hf b (List.mem_cons_of_mem a hb)

theorem obeys_mapM {l : List α} {f : α → Pass β} (hf : ∀ a ∈ l, Obeys d (fun _ => True) (f a)) :
    Obeys d (fun _ => True) (l.mapM f) := by
  induction l with
  | nil => exact obeys_pure trivial
  | cons a l ih =>
    rw [List.mapM_cons]
    refine obeys_bind (hf a List.mem_cons_self) fun _ _ => ?_
    refine obeys_bind (ih fun b hb => hf b (List.mem_cons_of_mem a hb)) fun _ _ => ?_
    exact obeys_pure trivial

end Pass

end PushOperator
