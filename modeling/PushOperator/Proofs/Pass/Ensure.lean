import PushOperator.Proofs.Child.Place
import PushOperator.Proofs.Pass.Quiet
import PushOperator.Proofs.Pass.Writes

/-!
# Making sure of children

What it takes for a child to be there. A pass accounts for its children (`Accounts`): what it has
recorded is there, and what it has created is recorded. When `Pass.ensure` completes, the child is
in its place, as it was or as it was built. Once it is there, `ensure` only looks (`quiet_ensure`).
Corrections let a step go on only when there is nothing to correct.
-/

namespace PushOperator

open Cluster

variable {k : Kind} {P : Entry → Prop} {c c' : Cluster} {ns name : String}

/-- What an update makes of a stored object. -/
def Object.merged (o stored : Object k) : Object k :=
  { o with
    metadata := { o.metadata with uid := stored.metadata.uid }
    status := stored.status }

theorem Child.Places.placed {name : Server → String} {build : Server → Except Error (Object k)}
    (h : Places name build) {server : Server} {o : Object k} (hns : server.metadata.ns = some ns)
    (ho : build server = .ok o) : Placed ns (name server) o := by
  obtain ⟨hplace, hname⟩ := h server o ho
  exact ⟨hplace.trans hns, hname⟩

/-! ## Calls that are granted -/

namespace Task

theorem completes_get {o : Option (Object k)} :
    Completes (α := Option (Object k)) flaky P (call (.get k ns name)) c o c' ↔
      P (.call (.get k ns name) (.ok o)) ∧ o = c.get? k ns name ∧ c' = c := by
  rw [completes_call, flaky_ok_iff, answer_get]

theorem completes_list {selector : String} {os : List (Object k)} :
    Completes (α := List (Object k)) flaky P (call (.list k ns selector)) c os c' ↔
      P (.call (.list k ns selector) (.ok os)) ∧
        os = ((c.objects k ns).values.filter fun o => selects selector o.metadata.labelsOrEmpty) ∧
        c' = c := by
  rw [completes_call, flaky_ok_iff, answer_list]

theorem completes_probe {groupVersion : String} {served : Bool} :
    Completes (α := Bool) flaky P (call (.probe groupVersion)) c served c' ↔
      P (.call (.probe groupVersion) (.ok served)) ∧
        served = c.serves groupVersion ∧ c' = c := by
  rw [completes_call, flaky_ok_iff, answer_probe]

theorem completes_create {o o' : Object k} :
    Completes (α := Object k) flaky P (call (.create k o)) c o' c' ↔
      P (.call (.create k o) (.ok o')) ∧ c.get? k (nsOf o) (nameOf o) = none ∧
        o' = stamped (c.revision + 1) o ∧ c' = (c.store (nsOf o) (nameOf o) o).2 := by
  rw [completes_call, flaky_ok_iff, answer_create]

theorem completes_update {o o' : Object k} :
    Completes (α := Object k) flaky P (call (.update k o)) c o' c' ↔
      P (.call (.update k o) (.ok o')) ∧
        ∃ stored, c.get? k (nsOf o) (nameOf o) = some stored ∧ isStale o stored = false ∧
          o' = stamped (c.revision + 1) (o.merged stored) ∧
          c' = (c.store (nsOf o) (nameOf o) (o.merged stored)).2 := by
  rw [completes_call, flaky_ok_iff]
  exact and_congr_right' replace_ok

theorem completes_delete {o : Object k} {u : Unit} :
    Completes (α := Unit) flaky P (call (.delete k o)) c u c' ↔
      P (.call (.delete k o) (.ok u)) ∧ (∃ stored, c.get? k (nsOf o) (nameOf o) = some stored) ∧
        c' = c.remove k (nsOf o) (nameOf o) := by
  rw [completes_call, flaky_ok_iff, answer_delete]

/-! ## Building and creating -/

/-- A task builds objects of a certain sort and leaves the cluster alone. -/
def Makes (good : Object k → Prop) (build : Task (Object k)) : Prop :=
  ∀ P c o c', Completes flaky P build c o c' → c' = c ∧ good o

theorem makes_ofExcept {good : Object k → Prop} {e : Except Error (Object k)}
    (h : ∀ o, e = .ok o → good o) : Makes good (liftM e) := by
  intro P c o c' hbuild
  obtain ⟨ho, rfl⟩ := completes_ofExcept.1 hbuild
  exact ⟨rfl, h o ho⟩

/-- A builder that places its objects makes them in the namespace of the server, also later on. -/
theorem makes_of_places {name : Server → String} {build : Server → Except Error (Object k)}
    (h : Child.Places name build) {server later : Server} (hlater : later = server)
    (hns : server.metadata.ns = some ns) :
    Makes (Placed ns (name server)) (liftM (build later)) := by
  subst hlater
  exact makes_ofExcept fun _ ho => h.placed hns ho

theorem makes_secret {good : Object k → Prop} {f : String → Task (Object k)}
    (h : ∀ text, Makes good (f text)) : Makes good (secret >>= f) := by
  intro P c o c' hbuild
  obtain ⟨text, c₁, hsecret, hf⟩ := completes_bind.1 hbuild
  obtain ⟨-, rfl⟩ := completes_secret.1 hsecret
  exact h text P c₁ o c' hf

theorem completes_requireNs {σ : Type} {w : World σ} {m : ObjectMeta} {s s' : σ} :
    Completes w P (liftM m.requireNs) s ns s' ↔ m.ns = some ns ∧ s' = s := by
  rw [completes_ofExcept, ObjectMeta.requireNs_eq_ok]

theorem completes_requireName {σ : Type} {w : World σ} {m : ObjectMeta} {s s' : σ} :
    Completes w P (liftM m.requireName) s name s' ↔ m.name = some name ∧ s' = s := by
  rw [completes_ofExcept, ObjectMeta.requireName_eq_ok]

theorem completes_requirePlace {σ : Type} {w : World σ} {m : ObjectMeta} {s s' : σ} {u : Unit} :
    Completes w P (requirePlace m) s u s' ↔
      (∃ ns, m.ns = some ns) ∧ (∃ name, m.name = some name) ∧ s' = s := by
  simp only [requirePlace, completes_bind, completes_requireNs, completes_requireName,
    completes_pure]
  constructor
  · rintro ⟨ns, _, ⟨hns, rfl⟩, name, _, ⟨hname, rfl⟩, -, rfl⟩
    exact ⟨⟨ns, hns⟩, ⟨name, hname⟩, rfl⟩
  · rintro ⟨⟨ns, hns⟩, ⟨name, hname⟩, rfl⟩
    exact ⟨ns, s', ⟨hns, rfl⟩, name, s', ⟨hname, rfl⟩, trivial, rfl⟩

/-- A child that was created was not there before. -/
theorem completes_createOwned {owner : Server} {desired created : Object k}
    (h : Completes flaky P (createOwned owner desired) c created c') :
    ∃ reference, c.get? k (nsOf desired) (nameOf desired) = none ∧
      created = stamped (c.revision + 1) (desired.withOwner reference) ∧
      c' = (c.store (nsOf desired) (nameOf desired) (desired.withOwner reference)).2 := by
  simp only [createOwned, completes_bind, completes_ofExcept, completes_create,
    completes_requirePlace, completes_pure] at h
  obtain ⟨reference, _, ⟨-, rfl⟩, _, c₁, ⟨-, hcreate⟩, _, _, ⟨-, -, rfl⟩, rfl, rfl⟩ := h
  exact ⟨reference, hcreate⟩

/-- A child is found in its place, or it is built and created there. -/
theorem completes_ensureExists {owner : Server} {good : Object k → Prop} {build : Task (Object k)}
    {ensured : Ensured k} (h : Completes flaky P (ensureExists owner name build) c ensured c')
    (hns : owner.metadata.ns = some ns)
    (hbuild : Makes (fun o => Placed ns name o ∧ good o) build) :
    (∃ found, ensured = .found found ∧ c.get? k ns name = some found ∧ c' = c) ∨
      ∃ built reference,
        ensured = .created (stamped (c.revision + 1) (built.withOwner reference)) ∧
        Placed ns name built ∧ good built ∧ c.get? k ns name = none ∧
        c' = (c.store ns name (built.withOwner reference)).2 := by
  obtain ⟨ns', c₁, hrequire, hrest⟩ := completes_bind.1 h
  obtain ⟨hns', rfl⟩ := completes_requireNs.1 hrequire
  obtain rfl : ns = ns' := Option.some.inj (hns.symm.trans hns')
  obtain ⟨live, c₂, hget, hrest₁⟩ := completes_bind.1 hrest
  obtain ⟨-, rfl, rfl⟩ := completes_get.1 hget
  -- All that is left is the look at the place of the child, which may be taken or free.
  split at hrest₁
  · next found hfound =>
    obtain ⟨rfl, rfl⟩ := completes_pure.1 hrest₁
    exact .inl ⟨found, rfl, hfound, rfl⟩
  · next hfree =>
    obtain ⟨built, c₃, hbuilt, hrest₂⟩ := completes_bind.1 hrest₁
    obtain ⟨created, c₄, hcreated, hend⟩ := completes_bind.1 hrest₂
    obtain ⟨rfl, rfl⟩ := completes_pure.1 hend
    obtain ⟨rfl, hplaced, hgood⟩ := hbuild _ _ _ _ hbuilt
    obtain ⟨reference, -, rfl, rfl⟩ := completes_createOwned hcreated
    rw [hplaced.nsOf, hplaced.nameOf]
    exact .inr ⟨built, reference, rfl, hplaced, hgood, hfree, rfl⟩

end Task

namespace Pass

variable {st st' st'' : PassState} {c'' : Cluster} {changed changed' : List Kind}
  {seen seen' : List (Kind × String)} {ready ready' : Bool}

/-! ## Parts that account for what they do -/

/-- A part of a pass has seen some children, all of which are there now, and created none but these.
Of the objects that were there, it has changed or deleted some of the `changed` kinds only. -/
structure Accounts (ns : String) (changed : List Kind) (seen : List (Kind × String)) (ready : Bool)
    (st : PassState) (c : Cluster) (st' : PassState) (c' : Cluster) : Prop where
  state : st' = st.saw seen ready
  filed : c'.Filed
  keeps : ∀ k ∉ changed, Keeps k c c'
  present : ∀ child ∈ seen, ∃ o, c'.get? child.1 ns child.2 = some o
  recorded : ∀ k ns' name o, c'.get? k ns' name = some o →
    (∃ o', c.get? k ns' name = some o') ∨ ns' = ns ∧ (k, name) ∈ seen

theorem Accounts.refl (st : PassState) (hc : c.Filed) : Accounts ns [] [] true st c st c where
  state := (PassState.saw_nil st).symm
  filed := hc
  keeps k _ := .refl k c
  present := by simp
  recorded _ _ _ o ho := .inl ⟨o, ho⟩

theorem Accounts.trans (h : Accounts ns changed seen ready st c st' c')
    (h' : Accounts ns changed' seen' ready' st' c' st'' c'')
    (hseen : ∀ child ∈ seen, child.1 ∉ changed') :
    Accounts ns (changed ++ changed') (seen ++ seen') (ready && ready') st c st'' c'' where
  state := by
    rw [h'.state, h.state, PassState.saw_saw]
  filed := h'.filed
  keeps k hk := by
    obtain ⟨hk, hk'⟩ : k ∉ changed ∧ k ∉ changed' := by simpa using hk
    exact (h.keeps k hk).trans (h'.keeps k hk')
  present := by
    refine List.forall_mem_append.2 ⟨fun child hchild => ?_, h'.present⟩
    exact (h'.keeps child.1 (hseen child hchild)).exists_get? (h.present child hchild)
  recorded k ns' name o ho := by
    rcases h'.recorded k ns' name o ho with ⟨o', ho'⟩ | ⟨hns, hmem⟩
    · rcases h.recorded k ns' name o' ho' with hthere | ⟨hns, hmem⟩
      · exact .inl hthere
      · exact .inr ⟨hns, List.mem_append_left _ hmem⟩
    · exact .inr ⟨hns, List.mem_append_right _ hmem⟩

theorem Accounts.mono (h : Accounts ns changed seen ready st c st' c')
    (hchanged : changed ⊆ changed') : Accounts ns changed' seen ready st c st' c' :=
  { h with keeps := fun k hk => h.keeps k fun hk' => hk (hchanged hk') }

theorem Accounts.server (h : Accounts ns changed seen ready st c st' c') :
    st'.server = st.server := by
  rw [h.state]
  rfl

theorem Accounts.get? (h : Accounts ns changed seen ready st c st' c') (hk : k ∉ changed)
    {o : Object k} (ho : c.get? k ns name = some o) : c'.get? k ns name = some o :=
  h.keeps k hk ns name o ho

/-- A place that no child was seen at is as it was. -/
theorem Accounts.get?_of_unseen (h : Accounts ns changed seen ready st c st' c') (hk : k ∉ changed)
    (hseen : (k, name) ∉ seen) : c'.get? k ns name = c.get? k ns name := by
  cases hbefore : c.get? k ns name with
  | some o => exact h.get? hk hbefore
  | none =>
    refine Option.eq_none_iff_forall_ne_some.2 fun o ho => ?_
    rcases h.recorded k ns name o ho with ⟨o', ho'⟩ | ⟨-, hmem⟩
    · rw [hbefore] at ho'
      cases ho'
    · exact hseen hmem

/-- Kinds that are not among the changed ones keep their objects. -/
theorem Accounts.keeps_all {kinds : List Kind} (h : Accounts ns changed seen ready st c st' c')
    (hkinds : ∀ k ∈ kinds, k ∉ changed) : ∀ k ∈ kinds, Keeps k c c' :=
  fun k hk => h.keeps k (hkinds k hk)

/-! ## Recording -/

theorem completes_record {σ : Type} {w : World σ} {s s' : σ} {u : Unit} :
    Completes w P (record k name) st s u st' s' ↔ st' = st.saw [(k, name)] true ∧ s' = s := by
  rw [PassState.saw_child]
  exact completes_modify

/-- Recording a child changes the record only. -/
theorem Completes.track {ensured : Ensured k} {u : Unit}
    (h : Completes flaky P (track ensured) st c u st' c') :
    ∃ name, ensured.object.metadata.name = some name ∧
      st' = st.saw [(k, name)] true ∧ c' = c := by
  obtain ⟨name, hname, hrest⟩ := completes_build_bind.1 h
  obtain ⟨_, st₁, c₁, hrecord, hreport⟩ := completes_bind.1 hrest
  obtain ⟨rfl, rfl⟩ := completes_record.1 hrecord
  refine ⟨name, ObjectMeta.requireName_eq_ok.1 hname, ?_⟩
  split at hreport
  · exact (completes_report.1 hreport).2
  · exact (completes_pure.1 hreport).2

/-- Noting whether something is ready changes nothing else. -/
theorem accounts_noteReady {σ : Type} {w : World σ} {s s' : σ} {u : Unit} (hc : c.Filed)
    (h : Completes w P (noteReady ready) st s u st' s') :
    Accounts ns [] [] ready st c st' c ∧ s' = s := by
  obtain ⟨rfl, rfl⟩ := completes_modify.1 h
  exact ⟨{ Accounts.refl st hc with state := rfl }, rfl⟩

/-! ## Making sure of one child -/

/-- The child is there now: it was found, or built and created in its place. What is observed of it
is what was there before. -/
theorem Completes.ensure {good : Object k → Prop} {build : Server → Task (Object k)}
    {ensured : Ensured k} (h : Completes flaky P (ensure name build) st c ensured st' c')
    (hc : c.Filed) (hns : st.server.metadata.ns = some ns)
    (hbuild : Task.Makes (fun o => Placed ns name o ∧ good o) (build st.server)) :
    Accounts ns [] [(k, name)] true st c st' c' ∧ ensured.observed = c.get? k ns name ∧
      c'.get? k ns name = some ensured.object ∧
      ∀ created, ensured = .created created → ∃ built, good built ∧
        created.spec = built.spec ∧ created.status = built.status := by
  have hrest := completes_server_bind.1 h
  obtain ⟨ensured', c₁, hexists, hrest₁⟩ := completes_liftM_bind.1 hrest
  obtain ⟨_, st₂, c₂, htrack, hend⟩ := completes_bind.1 hrest₁
  obtain ⟨rfl, rfl, rfl⟩ := completes_pure.1 hend
  obtain ⟨recorded, hname, rfl, rfl⟩ := htrack.track
  rcases Task.completes_ensureExists hexists hns hbuild with
    ⟨found, rfl, hfound, rfl⟩ | ⟨built, reference, rfl, hplaced, hgood, hfree, rfl⟩
  · obtain rfl : recorded = name :=
      Option.some.inj (hname.symm.trans (hc k ns name found hfound).2)
    refine ⟨⟨rfl, hc, fun k' _ => .refl k' _, ?_, fun _ _ _ o ho => .inl ⟨o, ho⟩⟩,
      hfound.symm, hfound, ?_⟩
    · rintro child hchild
      obtain rfl := List.mem_singleton.1 hchild
      exact ⟨found, hfound⟩
    · rintro created heq
      cases heq
  · obtain rfl : recorded = name := Option.some.inj (hname.symm.trans hplaced.2)
    have hget := get?_store_self c ns recorded (built.withOwner reference)
    refine ⟨⟨rfl, hc.store hplaced.nsOf hplaced.2, fun k' _ => keeps_store_of_free hfree k', ?_,
      ?_⟩, hfree.symm, hget, ?_⟩
    · rintro child hchild
      obtain rfl := List.mem_singleton.1 hchild
      exact ⟨_, hget⟩
    · intro k' ns' name' o ho
      rcases exists_get?_of_store ho with hthere | ⟨rfl, heq⟩
      · exact .inl hthere
      · exact .inr ⟨rfl, List.mem_singleton.2 heq⟩
    · rintro created heq
      obtain rfl := Ensured.created.inj heq
      exact ⟨built, hgood, rfl, rfl⟩

/-- What was made sure of is in its place. -/
theorem Completes.ensure_exists {build : Server → Task (Object k)} {ensured : Ensured k}
    (h : Completes flaky P (Pass.ensure name build) st c ensured st' c') (hc : c.Filed)
    (hns : st.server.metadata.ns = some ns)
    (hbuild : Task.Makes (Placed ns name) (build st.server)) :
    Accounts ns [] [(k, name)] true st c st' c' ∧ ensured.observed = c.get? k ns name ∧
      c'.get? k ns name = some ensured.object := by
  have hbuild' : Task.Makes (fun o => Placed ns name o ∧ True) (build st.server) := by
    simpa only [and_true] using hbuild
  obtain ⟨haccounts, hobserved, hget, -⟩ := h.ensure hc hns hbuild'
  exact ⟨haccounts, hobserved, hget⟩

theorem quiet_track {server : Server} {found : Object k} (hname : found.metadata.name = some name) :
    Quiet c server [(k, name)] true (track (Ensured.found found)) () := by
  refine (quiet_ofExcept (ObjectMeta.requireName_eq_ok.2 hname)).bind_first ?_
  exact (quiet_record k name).bind (quiet_pure ())

/-- A child that is there is looked at. -/
theorem quiet_ensure {server : Server} {build : Server → Task (Object k)} {found : Object k}
    (hc : c.Filed) (hns : server.metadata.ns = some ns) (hfound : c.get? k ns name = some found) :
    Quiet c server [(k, name)] true (ensure name build) (.found found) := by
  refine quiet_server.bind_first (Quiet.bind_first (a := Ensured.found found) ?_ ?_)
  · refine quiet_liftM (Task.completes_bind.2 ⟨ns, c, ?_, ?_⟩)
    · exact Task.completes_requireNs.2 ⟨hns, rfl⟩
    · refine Task.completes_bind.2 ⟨some found, c, ?_, ?_⟩
      · exact Task.completes_call.2 ⟨rfl, answer_get.2 ⟨hfound.symm, rfl⟩⟩
      · exact Task.completes_pure.2 ⟨rfl, rfl⟩
  · exact (quiet_track (hc k ns name found hfound).2).bind (quiet_pure (Ensured.found found))

/-! ## Corrections -/

/-- A step goes on after a check only if there was nothing to correct. -/
theorem completes_correction {σ : Type} {w : World σ} {s s₁ s' : σ} {corrected : Option (Object k)}
    {did : Bool} {name what : String} {u : Unit}
    (hcheck : Task.Completes w P (Task.applyCorrection corrected) s did s₁)
    (hstop : Completes w P (stopCorrected did k name what) st s₁ u st' s') :
    corrected = none ∧ st' = st ∧ s' = s := by
  cases corrected with
  | none =>
    obtain ⟨rfl, rfl⟩ := Task.completes_pure.1 hcheck
    obtain ⟨-, rfl, rfl⟩ := completes_pure.1 hstop
    exact ⟨rfl, rfl, rfl⟩
  | some corrected =>
    obtain ⟨_, s₂, -, hplace⟩ := Task.completes_bind.1 hcheck
    obtain ⟨_, s₃, -, hdid⟩ := Task.completes_bind.1 hplace
    obtain ⟨rfl, -⟩ := Task.completes_pure.1 hdid
    obtain ⟨_, st₂, s₄, -, hend⟩ := completes_bind.1 hstop
    exact absurd hend completes_stop

theorem Completes.correction {σ α : Type} {w : World σ} {s s' : σ} {corrected : Option (Object k)}
    {name what : String} {f : Unit → Pass α} {a : α}
    (h : Completes w P
      (do
        let did ← (Task.applyCorrection corrected : Task Bool)
        stopCorrected did k name what >>= f) st s a st' s') :
    corrected = none ∧ Completes w P (f ()) st s a st' s' := by
  obtain ⟨did, st₁, s₁, hcheck, hrest⟩ := completes_bind.1 h
  obtain ⟨_, st₂, s₂, hstop, hf⟩ := completes_bind.1 hrest
  obtain ⟨hcheck', rfl⟩ := completes_liftM.1 hcheck
  obtain ⟨hnone, rfl, rfl⟩ := completes_correction hcheck' hstop
  exact ⟨hnone, hf⟩

/-- A check that finds nothing. -/
theorem quiet_correction {α : Type} {server : Server} {seen : List (Kind × String)} {ready : Bool}
    {corrected : Option (Object k)} {name what : String} {f : Unit → Pass α} {a : α}
    (hnone : corrected = none) (hf : Quiet c server seen ready (f ()) a) :
    Quiet c server seen ready
      (do
        let did ← (Task.applyCorrection corrected : Task Bool)
        stopCorrected did k name what >>= f) a := by
  subst hnone
  refine (quiet_liftM (Task.completes_pure.2 ⟨rfl, rfl⟩)).bind_first ?_
  exact Quiet.bind_first (quiet_pure ()) hf

end Pass

end PushOperator
