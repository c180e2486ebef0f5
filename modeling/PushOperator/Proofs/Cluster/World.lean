import PushOperator.Cluster.Rehearsal
import PushOperator.Proofs.Interaction.Contract

/-!
# Clusters as worlds

A reliable cluster answers every call as it does. In a flaky one any call may also end in an error,
with or without its effect; a refusing one has no such effects. What a request can change at all
depends on the kinds that it writes, so a kind that is not written stays as it is, whatever the
answers are.

An API server keeps every object under its own namespace and name. `Filed` says so of a cluster.
-/

namespace PushOperator

/-- Whether a request may change objects of a kind. -/
def Request.Writes (r : Request) (k : Kind) : Prop :=
  match r with
  | create k' _ | update k' _ | updateStatus k' _ | delete k' _ => k' = k
  | get .. | list .. | probe _ => False

namespace Cluster

variable {k k' : Kind} {c c' : Cluster} {ns name : String}

/-- Whether the cluster serves an API version. -/
def serves (c : Cluster) (groupVersion : String) : Bool := !c.missingApis.contains groupVersion

/-! ## Worlds -/

/-- The cluster answers. -/
def reliable : World Cluster := fun r c a c' => c.answer r = (a, c')

/-- The cluster answers, or the call ends in an error: it has not come through, or its answer has
not. -/
def flaky : World Cluster := fun r c a c' =>
  c.answer r = (a, c') ∨ ∃ error, a = .error error ∧ (c' = c ∨ c' = (c.answer r).2)

@[simp]
theorem reliable_iff {r : Request} {a : Except Error r.Reply} :
    reliable r c a c' ↔ c.answer r = (a, c') := Iff.rfl

/-- Whatever the answer is, a request has had its effect or none. -/
theorem flaky_cases {r : Request} {a : Except Error r.Reply} (h : flaky r c a c') :
    c' = c ∨ c' = (c.answer r).2 := by
  rcases h with h | ⟨_, -, hc⟩
  · rw [h]
    exact .inr rfl
  · exact hc

/-- A call that only reads changes nothing, whether it is answered or not. -/
theorem flaky_read {r : Request} {a : Except Error r.Reply} (hread : r.isWrite = false)
    (h : flaky r c a c') : c' = c := by
  have hsame : (c.answer r).2 = c := by
    cases r with
    | get | list | probe => rfl
    | create | update | updateStatus | delete => cases hread
  rcases flaky_cases h with rfl | rfl
  · rfl
  · exact hsame

/-- A call that is granted was answered by the cluster. -/
@[simp]
theorem flaky_ok_iff {r : Request} {a : r.Reply} :
    flaky r c (.ok a) c' ↔ c.answer r = (.ok a, c') := by
  constructor
  · rintro (h | ⟨_, h, _⟩)
    · exact h
    · cases h
  · exact .inl

/-- The cluster answers, or refuses the call with an error of a certain sort. What is refused has no
effect. -/
def refusing (refusal : Error → Prop) : World Cluster := fun r c a c' =>
  c.answer r = (a, c') ∨ ∃ error, refusal error ∧ a = .error error ∧ c' = c

theorem flaky_of_reliable (r : Request) (c : Cluster) (a : Except Error r.Reply) (c' : Cluster)
    (h : reliable r c a c') : flaky r c a c' := .inl h

theorem reliable_unique (r : Request) (c : Cluster) (a : Except Error r.Reply) (c' : Cluster)
    (b : Except Error r.Reply) (c'' : Cluster) (h : reliable r c a c') (h' : reliable r c b c'') :
    a = b ∧ c' = c'' :=
  Prod.mk.inj ((reliable_iff.1 h).symm.trans (reliable_iff.1 h'))

/-- A reliable cluster refuses no call that only reads. -/
theorem not_refused_of_reliable {α : Type} {x : Interaction α} {t : Trace} {o : Option α}
    (h : Run reliable x c t o c') {r : Request} (hread : r.isWrite = false) (error : Error) :
    .call r (.error error) ∉ t := by
  induction h with
  | done | cut => simp
  | step hstep _ ih =>
    intro hmem
    rcases List.mem_cons.1 hmem with rfl | hmem'
    · cases hstep with
      | call hanswer =>
        cases r with
        | get | list | probe => cases hanswer
        | create | update | updateStatus | delete => cases hread
    · exact ih hmem'

/-! ## Answers -/

theorem answer_get {o : Option (Object k)} :
    c.answer (.get k ns name) = (.ok o, c') ↔ o = c.get? k ns name ∧ c' = c := by
  rw [answer, Prod.mk.injEq, Except.ok.injEq]
  exact and_congr eq_comm eq_comm

theorem answer_list {selector : String} {os : List (Object k)} :
    c.answer (.list k ns selector) = (.ok os, c') ↔
      os = ((c.objects k ns).values.filter fun o => selects selector o.metadata.labelsOrEmpty) ∧
        c' = c := by
  rw [answer, Prod.mk.injEq, Except.ok.injEq]
  exact and_congr eq_comm eq_comm

theorem answer_probe {groupVersion : String} {served : Bool} :
    c.answer (.probe groupVersion) = (.ok served, c') ↔
      served = c.serves groupVersion ∧ c' = c := by
  rw [answer, Prod.mk.injEq, Except.ok.injEq]
  exact and_congr eq_comm eq_comm

theorem answer_create {o o' : Object k} :
    c.answer (.create k o) = (.ok o', c') ↔
      c.get? k (nsOf o) (nameOf o) = none ∧ o' = stamped (c.revision + 1) o ∧
        c' = (c.store (nsOf o) (nameOf o) o).2 := by
  cases h : c.get? k (nsOf o) (nameOf o) with
  | none =>
    simp only [answer, h, store, Prod.mk.injEq, Except.ok.injEq, true_and]
    exact and_congr eq_comm eq_comm
  | some stored => simp [answer, h]

theorem replace_ok {o o' : Object k} {merged : Object k → Object k} :
    c.replace o merged = (.ok o', c') ↔
      ∃ stored, c.get? k (nsOf o) (nameOf o) = some stored ∧ isStale o stored = false ∧
        o' = stamped (c.revision + 1) (merged stored) ∧
        c' = (c.store (nsOf o) (nameOf o) (merged stored)).2 := by
  unfold replace
  cases h : c.get? k (nsOf o) (nameOf o) with
  | none => simp
  | some stored =>
    cases hstale : isStale o stored with
    | true => simp [hstale]
    | false =>
      simp only [hstale, Bool.false_eq_true, if_false, store, Prod.mk.injEq, Except.ok.injEq,
        Option.some.injEq, exists_eq_left', true_and]
      exact and_congr eq_comm eq_comm

/-- Only who has read the latest version can write. -/
theorem version_of_fresh {o stored : Object k} {version : String}
    (hfresh : isStale o stored = false) (hversion : o.metadata.resourceVersion = some version) :
    stored.metadata.resourceVersion = o.metadata.resourceVersion := by
  unfold isStale at hfresh
  rw [hversion, Option.isSome_some, Bool.true_and, decide_eq_false_iff_not, Decidable.not_not]
    at hfresh
  rw [hversion, hfresh]

theorem answer_delete {o : Object k} {u : Unit} :
    c.answer (.delete k o) = (.ok u, c') ↔
      (∃ stored, c.get? k (nsOf o) (nameOf o) = some stored) ∧
        c' = c.remove k (nsOf o) (nameOf o) := by
  cases h : c.get? k (nsOf o) (nameOf o) with
  | none => simp [answer, h]
  | some stored => simp [answer, h, eq_comm]

theorem replace_error {o : Object k} {merged : Object k → Object k} {error : Error}
    (h : c.replace o merged = (.error error, c')) : c' = c ∧ ∃ e, error = .api e := by
  unfold replace at h
  split at h
  · cases h
    exact ⟨rfl, _, rfl⟩
  · split at h
    · cases h
      exact ⟨rfl, _, rfl⟩
    · cases h

/-- What the cluster itself refuses has no effect. -/
theorem answer_error {r : Request} {error : Error} (h : c.answer r = (.error error, c')) :
    c' = c ∧ ∃ e, error = .api e := by
  cases r with
  | get | list | probe => cases h
  | create k o =>
    unfold answer at h
    dsimp only at h
    split at h
    · cases h
      exact ⟨rfl, _, rfl⟩
    · cases h
  | update k o => exact replace_error h
  | updateStatus k o => exact replace_error h
  | delete k o =>
    unfold answer at h
    dsimp only at h
    split at h
    · cases h
      exact ⟨rfl, _, rfl⟩
    · cases h

theorem refusing_error {refusal : Error → Prop} {r : Request} {error : Error}
    (h : refusing refusal r c (.error error) c') :
    c' = c ∧ (refusal error ∨ ∃ e, error = .api e) := by
  rcases h with h | ⟨_, hrefusal, heq, rfl⟩
  · obtain ⟨rfl, hapi⟩ := answer_error h
    exact ⟨rfl, .inr hapi⟩
  · obtain rfl := Except.error.inj heq
    exact ⟨rfl, .inl hrefusal⟩

theorem refusing_ok {refusal : Error → Prop} {r : Request} {a : r.Reply}
    (h : refusing refusal r c (.ok a) c') : c.answer r = (.ok a, c') := by
  rcases h with h | ⟨_, _, heq, _⟩
  · exact h
  · cases heq

theorem flaky_of_refusing {refusal : Error → Prop} (r : Request) (c : Cluster)
    (a : Except Error r.Reply) (c' : Cluster) (h : refusing refusal r c a c') : flaky r c a c' := by
  rcases h with h | ⟨error, _, ha, hc⟩
  · exact .inl h
  · exact .inr ⟨error, ha, .inl hc⟩

/-! ## Objects after a write -/

theorem get?_store (c : Cluster) (ns name ns' name' : String) (o : Object k) :
    (c.store ns name o).2.get? k ns' name' =
      if ns' = ns ∧ name' = name then some (stamped (c.revision + 1) o)
      else c.get? k ns' name' :=
  get?_put _ ns name ns' name' _

theorem get?_store_self (c : Cluster) (ns name : String) (o : Object k) :
    (c.store ns name o).2.get? k ns name = some (stamped (c.revision + 1) o) := by
  rw [get?_store, if_pos ⟨rfl, rfl⟩]

/-- Kinds are on shelves of their own. -/
theorem shelf_setObjects_of_ne (c : Cluster) (ns : String) (objects : Dict (Object k))
    (h : k ≠ k') : (c.setObjects ns objects).shelf k' = c.shelf k' := by
  simp [setObjects, h]

theorem shelf_store_of_ne (c : Cluster) (ns name : String) (o : Object k) (h : k ≠ k') :
    (c.store ns name o).2.shelf k' = c.shelf k' :=
  shelf_setObjects_of_ne _ ns _ h

theorem shelf_remove_of_ne (c : Cluster) (ns name : String) (h : k ≠ k') :
    (c.remove k ns name).shelf k' = c.shelf k' :=
  shelf_setObjects_of_ne c ns _ h

theorem objects_of_shelf (h : c'.shelf k = c.shelf k) (ns : String) :
    c'.objects k ns = c.objects k ns := by
  rw [Cluster.objects, h, ← Cluster.objects]

theorem get?_of_shelf (h : c'.shelf k = c.shelf k) (ns name : String) :
    c'.get? k ns name = c.get? k ns name := by
  rw [get?, objects_of_shelf h, ← get?]

/-- What stands somewhere after a write is the object that was stored, or stood there before. -/
theorem get?_store_cases {o : Object k} {o' : Object k'} {ns' name' : String}
    (h : (c.store ns name o).2.get? k' ns' name' = some o') :
    (∃ hk : k = k', o' = hk ▸ stamped (c.revision + 1) o ∧ ns' = ns ∧ name' = name) ∨
      c.get? k' ns' name' = some o' := by
  by_cases hk : k = k'
  · subst hk
    rw [get?_store] at h
    split at h
    · next hplace => exact .inl ⟨rfl, (Option.some.inj h).symm, hplace⟩
    · exact .inr h
  · rw [get?_of_shelf (shelf_store_of_ne c ns name o hk)] at h
    exact .inr h

theorem get?_of_remove {o : Object k'} {ns' name' : String}
    (h : (c.remove k ns name).get? k' ns' name' = some o) : c.get? k' ns' name' = some o := by
  by_cases hk : k = k'
  · subst hk
    rw [get?_remove] at h
    split at h
    · cases h
    · exact h
  · rwa [get?_remove_of_ne _ _ _ _ _ hk] at h

/-- What may stand in a place after a request: what stood there before, what was created there when
the place was free, or what was written over an object. -/
inductive Leaves (c : Cluster) (ns name : String) (o : Object k) : Request → Prop
  | kept {r : Request} : c.get? k ns name = some o → Leaves c ns name o r
  | created {new : Object k} : nsOf new = ns → nameOf new = name → c.get? k ns name = none →
    o = stamped (c.revision + 1) new → Leaves c ns name o (.create k new)
  | updated {new stored : Object k} : nsOf new = ns → nameOf new = name →
    c.get? k ns name = some stored →
    o = stamped (c.revision + 1) { new with
      metadata := { new.metadata with uid := stored.metadata.uid }
      status := stored.status } → Leaves c ns name o (.update k new)
  | restated {new stored : Object k} : c.get? k ns name = some stored →
    o = stamped (c.revision + 1) { stored with status := new.status } →
    Leaves c ns name o (.updateStatus k new)

/-- After a replacement a place holds what it held, or what was put over it. -/
theorem get?_replace_cases {o : Object k} {merged : Object k → Object k} {o' : Object k'}
    (h : (c.replace o merged).2.get? k' ns name = some o') :
    c.get? k' ns name = some o' ∨ ∃ (hk : k = k') (stored : Object k),
      nsOf o = ns ∧ nameOf o = name ∧ c.get? k ns name = some stored ∧
        o' = hk ▸ stamped (c.revision + 1) (merged stored) := by
  unfold replace at h
  split at h
  · exact .inl h
  · next stored hstored =>
    split at h
    · exact .inl h
    · rcases get?_store_cases h with ⟨hk, ho', rfl, rfl⟩ | hbefore
      · exact .inr ⟨hk, stored, rfl, rfl, hstored, ho'⟩
      · exact .inl hbefore

theorem leaves_of_answer {r : Request} {o : Object k}
    (h : (c.answer r).2.get? k ns name = some o) : Leaves c ns name o r := by
  cases r with
  | get | list | probe => exact .kept h
  | create k' new =>
    unfold answer at h
    dsimp only at h
    split at h
    · exact .kept h
    · next hfree =>
      rcases get?_store_cases h with ⟨rfl, rfl, rfl, rfl⟩ | hbefore
      · exact .created rfl rfl hfree rfl
      · exact .kept hbefore
  | update k' new =>
    rcases get?_replace_cases h with hbefore | ⟨rfl, stored, hns, hname, hstored, rfl⟩
    · exact .kept hbefore
    · exact .updated hns hname hstored rfl
  | updateStatus k' new =>
    rcases get?_replace_cases h with hbefore | ⟨rfl, stored, -, -, hstored, rfl⟩
    · exact .kept hbefore
    · exact .restated hstored rfl
  | delete k' gone =>
    unfold answer at h
    dsimp only at h
    split at h
    · exact .kept h
    · exact .kept (get?_of_remove h)

/-- A free place is only taken by what is created there. -/
theorem free_of_answer {r : Request} (hfree : c.get? k ns name = none)
    (hr : ∀ o : Object k, r = .create k o → ¬(nsOf o = ns ∧ nameOf o = name)) :
    (c.answer r).2.get? k ns name = none := by
  rw [Option.eq_none_iff_forall_ne_some]
  intro o ho
  cases leaves_of_answer ho with
  | kept hthere | updated _ _ hthere _ | restated hthere _ =>
    rw [hfree] at hthere
    cases hthere
  | created hns hname _ _ => exact hr _ rfl ⟨hns, hname⟩

/-! ## What requests leave alone -/

theorem shelf_replace_of_ne (c : Cluster) (o : Object k) (merged : Object k → Object k)
    (h : k ≠ k') : (c.replace o merged).2.shelf k' = c.shelf k' := by
  unfold replace
  split
  · rfl
  · split
    · rfl
    · exact shelf_store_of_ne c _ _ _ h

/-- A request leaves alone the kinds that it does not write. -/
theorem shelf_answer (c : Cluster) {r : Request} (h : ¬r.Writes k) :
    (c.answer r).2.shelf k = c.shelf k := by
  cases r with
  | get | list | probe => rfl
  | create k' o =>
    unfold answer
    dsimp only
    split
    · rfl
    · exact shelf_store_of_ne c _ _ _ h
  | update k' o => exact shelf_replace_of_ne c o _ h
  | updateStatus k' o => exact shelf_replace_of_ne c o _ h
  | delete k' o =>
    unfold answer
    dsimp only
    split
    · rfl
    · exact shelf_remove_of_ne c _ _ h

theorem missingApis_replace (c : Cluster) (o : Object k) (merged : Object k → Object k) :
    (c.replace o merged).2.missingApis = c.missingApis := by
  unfold replace
  split
  · rfl
  · split <;> rfl

/-- No request changes which API versions are served. -/
theorem missingApis_answer (c : Cluster) (r : Request) :
    (c.answer r).2.missingApis = c.missingApis := by
  cases r with
  | get | list | probe => rfl
  | create k' o => unfold answer; dsimp only; split <;> rfl
  | update k' o => exact missingApis_replace c o _
  | updateStatus k' o => exact missingApis_replace c o _
  | delete k' o => unfold answer; dsimp only; split <;> rfl

/-- Two clusters have the same objects of all kinds but some, and serve the same API versions. -/
structure SameBut (kinds : List Kind) (c c' : Cluster) : Prop where
  shelf : ∀ k ∉ kinds, c'.shelf k = c.shelf k
  missingApis : c'.missingApis = c.missingApis

theorem SameBut.serves {kinds : List Kind} (h : SameBut kinds c c') : c'.serves = c.serves := by
  unfold Cluster.serves
  rw [h.missingApis]

/-- The contract of an interaction that writes objects of some kinds only. -/
def writesOnly (kinds : List Kind) : Contract where
  rely _ _ := True
  asks r := ∀ k, r.Writes k → k ∈ kinds

theorem honors_writesOnly (kinds : List Kind) (c₀ : Cluster) :
    Interaction.Honors flaky (writesOnly kinds) (SameBut kinds c₀) := by
  rintro r c a c' ⟨hshelf, hapis⟩ hasks hanswer
  -- Behind an error the request may have had its effect.
  have hafter : SameBut kinds c₀ (c.answer r).2 := by
    refine ⟨?_, (missingApis_answer c r).trans hapis⟩
    intro k hk
    rw [shelf_answer c fun hw => hk (hasks k hw), hshelf k hk]
  rcases flaky_cases hanswer with rfl | rfl
  · exact ⟨trivial, hshelf, hapis⟩
  · exact ⟨trivial, hafter⟩

/-! ## Objects in their places -/

/-- Every object of a kind stands under its own namespace and name. -/
def FiledOf (k : Kind) (c : Cluster) : Prop :=
  ∀ ns name (o : Object k), c.get? k ns name = some o → nsOf o = ns ∧ o.metadata.name = some name

/-- Every object stands under its own namespace and name. -/
def Filed (c : Cluster) : Prop := ∀ k, c.FiledOf k

theorem FiledOf.nameOf (hc : c.FiledOf k) {o : Object k} (h : c.get? k ns name = some o) :
    nameOf o = name := by
  rw [Cluster.nameOf, (hc ns name o h).2, Option.getD_some]

theorem anyName_of_name {o : Object k} (h : o.metadata.name = some name) : o.anyName = name := by
  rw [Object.anyName, ObjectMeta.anyName, h]
  rfl

theorem FiledOf.anyName (hc : c.FiledOf k) {o : Object k} (h : c.get? k ns name = some o) :
    o.anyName = name :=
  anyName_of_name (hc ns name o h).2

/-- An object in a namespace says so. -/
theorem FiledOf.ns_eq (hc : c.FiledOf k) {o : Object k} (h : c.get? k ns name = some o)
    (hns : ns ≠ "") : o.metadata.ns = some ns := by
  have hplace : nsOf o = ns := (hc ns name o h).1
  unfold nsOf at hplace
  cases hmeta : o.metadata.ns with
  | none =>
    rw [hmeta] at hplace
    exact absurd hplace.symm hns
  | some ns' =>
    rw [hmeta] at hplace
    exact congrArg some hplace

theorem FiledOf.store (hc : c.FiledOf k) {o : Object k} (hns : nsOf o = ns)
    (hname : o.metadata.name = some name) : (c.store ns name o).2.FiledOf k := by
  intro ns' name' o' h
  rw [get?_store] at h
  split at h
  · next heq =>
    obtain rfl := Option.some.inj h
    exact ⟨hns.trans heq.1.symm, hname.trans (congrArg some heq.2.symm)⟩
  · exact hc ns' name' o' h

theorem Filed.nameOf (hc : c.Filed) {o : Object k} (h : c.get? k ns name = some o) :
    nameOf o = name := (hc k).nameOf h

theorem Filed.anyName (hc : c.Filed) {o : Object k} (h : c.get? k ns name = some o) :
    o.anyName = name := (hc k).anyName h

theorem Filed.store (hc : c.Filed) {o : Object k} (hns : nsOf o = ns)
    (hname : o.metadata.name = some name) : (c.store ns name o).2.Filed := by
  intro k' ns' name' o' h
  by_cases hk : k = k'
  · subst hk
    exact (hc k).store hns hname ns' name' o' h
  · rw [get?_of_shelf (shelf_store_of_ne c ns name o hk)] at h
    exact hc k' ns' name' o' h

theorem Filed.remove (hc : c.Filed) (k : Kind) (ns name : String) : (c.remove k ns name).Filed :=
  fun k' ns' name' o h => hc k' ns' name' o (get?_of_remove h)

/-- An object says that it stands in a namespace under a name. -/
def Placed (ns name : String) (o : Object k) : Prop :=
  o.metadata.ns = some ns ∧ o.metadata.name = some name

theorem nsOf_of_eq_some {o : Object k} (h : o.metadata.ns = some ns) : nsOf o = ns := by
  rw [nsOf, h, Option.getD_some]

theorem Placed.nsOf {o : Object k} (h : Placed ns name o) : nsOf o = ns :=
  nsOf_of_eq_some h.1

theorem Placed.nameOf {o : Object k} (h : Placed ns name o) : nameOf o = name := by
  rw [Cluster.nameOf, h.2, Option.getD_some]

/-- The objects of a kind that were there are still there as they were. -/
def Keeps (k : Kind) (c c' : Cluster) : Prop :=
  ∀ ns name o, c.get? k ns name = some o → c'.get? k ns name = some o

theorem Keeps.refl (k : Kind) (c : Cluster) : Keeps k c c := fun _ _ _ h => h

theorem Keeps.trans {c'' : Cluster} (h : Keeps k c c') (h' : Keeps k c' c'') : Keeps k c c'' :=
  fun ns name o ho => h' ns name o (h ns name o ho)

theorem Keeps.exists_get? (h : Keeps k c c') (hthere : ∃ o, c.get? k ns name = some o) :
    ∃ o, c'.get? k ns name = some o := by
  obtain ⟨o, ho⟩ := hthere
  exact ⟨o, h ns name o ho⟩

theorem keeps_of_shelf (h : c'.shelf k = c.shelf k) : Keeps k c c' :=
  fun ns name _ ho => (get?_of_shelf h ns name).trans ho

/-- An object in a free place leaves all others as they were. -/
theorem keeps_store_of_free {o : Object k} (h : c.get? k ns name = none) (k' : Kind) :
    Keeps k' c (c.store ns name o).2 := by
  intro ns' name' o' ho
  by_cases hk : k = k'
  · subst hk
    rw [get?_store, if_neg ?_]
    · exact ho
    · rintro ⟨rfl, rfl⟩
      rw [h] at ho
      cases ho
  · rwa [get?_of_shelf (shelf_store_of_ne c ns name o hk)]

/-- Only the place of a stored object may have been free before. -/
theorem exists_get?_of_store {o : Object k} {o' : Object k'} {ns' name' : String}
    (h : (c.store ns name o).2.get? k' ns' name' = some o') :
    (∃ o, c.get? k' ns' name' = some o) ∨ ns' = ns ∧ (k', name') = (k, name) := by
  by_cases hk : k = k'
  · subst hk
    rw [get?_store] at h
    split at h
    · next hplace => exact .inr ⟨hplace.1, Prod.ext rfl hplace.2⟩
    · exact .inl ⟨o', h⟩
  · rw [get?_of_shelf (shelf_store_of_ne c ns name o hk)] at h
    exact .inl ⟨o', h⟩

/-- Every place that is taken now was taken before. -/
def NothingNew (c c' : Cluster) : Prop :=
  ∀ k ns name o, c'.get? k ns name = some o → ∃ o', c.get? k ns name = some o'

theorem NothingNew.refl (c : Cluster) : NothingNew c c := fun _ _ _ o ho => ⟨o, ho⟩

/-- Storing an object in place of another takes no new place. -/
theorem nothingNew_store {o : Object k} (h : ∃ o, c.get? k ns name = some o) :
    NothingNew c (c.store ns name o).2 := by
  intro k' ns' name' o' ho'
  rcases exists_get?_of_store ho' with hthere | ⟨rfl, hplace⟩
  · exact hthere
  · obtain ⟨rfl, rfl⟩ := Prod.mk.inj hplace
    exact h

/-- What stands on a shelf are the objects that can be found there. -/
theorem mem_values_objects {o : Object k} :
    o ∈ (c.objects k ns).values ↔ ∃ name, c.get? k ns name = some o := by
  simp only [Dict.values, List.mem_map, get?, Dict.get?_eq_some_iff]
  constructor
  · rintro ⟨⟨name, o'⟩, h, rfl⟩
    exact ⟨name, h⟩
  · rintro ⟨name, h⟩
    exact ⟨(name, o), h, rfl⟩

/-- Objects that bear the names of their places have distinct names. -/
theorem nodup_nameOf_values
    (h : ∀ name (o : Object k), c.get? k ns name = some o → nameOf o = name) :
    ((c.objects k ns).values.map nameOf).Nodup := by
  have hnames : (c.objects k ns).values.map nameOf = (c.objects k ns).entries.map (·.1) := by
    rw [Dict.values, List.map_map]
    exact List.map_congr_left fun entry hentry =>
      h entry.1 entry.2 (Dict.get?_eq_some_iff.2 hentry)
  rw [hnames]
  exact List.pairwise_map.2 ((c.objects k ns).sorted.imp String.ne_of_lt)

theorem filed_empty : empty.Filed := by
  intro k ns name o h
  cases h

/-! ## Taking objects away -/

/-- Takes some objects away from their places. -/
def removeAll (c : Cluster) (os : List (Object k)) : Cluster :=
  os.foldl (fun c o => c.remove k (nsOf o) (nameOf o)) c

theorem get?_removeAll (c : Cluster) (os : List (Object k)) (ns name : String)
    (hns : ∀ o ∈ os, nsOf o = ns) : (c.removeAll os).get? k ns name =
      if name ∈ os.map Cluster.nameOf then none else c.get? k ns name := by
  induction os generalizing c with
  | nil => rfl
  | cons o os ih =>
    obtain ⟨ho, hos⟩ := List.forall_mem_cons.1 hns
    have htail : (c.removeAll (o :: os)).get? k ns name =
        ((c.remove k (nsOf o) (nameOf o)).removeAll os).get? k ns name := rfl
    rw [htail, ih _ hos, get?_remove, ho]
    by_cases hname : name = Cluster.nameOf o
    · simp [hname]
    · simp [hname]

/-- Other places are left alone. -/
theorem get?_removeAll_of_elsewhere {os : List (Object k)}
    (h : ∀ o ∈ os, ¬(nsOf o = ns ∧ Cluster.nameOf o = name)) :
    (c.removeAll os).get? k ns name = c.get? k ns name := by
  induction os generalizing c with
  | nil => rfl
  | cons o os ih =>
    obtain ⟨ho, hos⟩ := List.forall_mem_cons.1 h
    refine (ih (c := c.remove k (nsOf o) (Cluster.nameOf o)) hos).trans ?_
    rw [get?_remove, if_neg]
    exact fun hplace => ho ⟨hplace.1.symm, hplace.2.symm⟩

/-- What is still there was there before. -/
theorem get?_of_removeAll {os : List (Object k)} {o : Object k'}
    (h : (c.removeAll os).get? k' ns name = some o) : c.get? k' ns name = some o := by
  induction os generalizing c with
  | nil => exact h
  | cons gone os ih =>
    have hhead : (c.remove k (nsOf gone) (nameOf gone)).get? k' ns name = some o := ih h
    exact get?_of_remove hhead

theorem shelf_removeAll_of_ne (c : Cluster) (os : List (Object k)) (h : k ≠ k') :
    (c.removeAll os).shelf k' = c.shelf k' := by
  induction os generalizing c with
  | nil => rfl
  | cons o os ih => exact (ih _).trans (shelf_remove_of_ne c _ _ h)

theorem Filed.removeAll (hc : c.Filed) (os : List (Object k)) : (c.removeAll os).Filed := by
  induction os generalizing c with
  | nil => exact hc
  | cons o os ih => exact ih (hc.remove k _ _)

end Cluster

/-! ## Handlers -/

open Cluster

/-- Answers as the cluster does, but refuses some requests, and draws the same text every time. -/
def drawing (refuses : Request → Bool) (text : String) : Handler Cluster where
  answer r c := if refuses r then (.error .unreachable, c) else c.answer r
  accept _ _ c := c
  draw c := (text, c)

/-- What is done with such a handler is a run in any world that answers in the same way. -/
theorem run_drawing {α : Type} {w : World Cluster} {refuses : Request → Bool}
    (hw : ∀ r c, w r c (if refuses r then (.error .unreachable, c) else c.answer r).1
      (if refuses r then (.error .unreachable, c) else c.answer r).2)
    (text : String) (x : Interaction α) (c : Cluster) :
    Run w x c (x.trace (drawing refuses text) c) (some (x.run (drawing refuses text) c).1)
      (x.run (drawing refuses text) c).2 := by
  apply x.run_trace (drawing refuses text) id (fun _ => True)
  · exact fun r c _ => ⟨hw r c, trivial⟩
  · exact fun _ _ _ _ => ⟨rfl, trivial⟩
  · exact fun _ _ => ⟨rfl, trivial⟩
  · trivial

/-- To refuse a request is to be flaky. -/
theorem flaky_drawing (refuses : Request → Bool) (r : Request) (c : Cluster) :
    flaky r c (if refuses r then (.error .unreachable, c) else c.answer r).1
      (if refuses r then (.error .unreachable, c) else c.answer r).2 := by
  split
  · exact .inr ⟨_, rfl, .inl rfl⟩
  · exact .inl rfl

/-! ## Rehearsals -/

namespace Rehearsal

/-- Without plans a rehearsal answers as its cluster does. -/
theorem answer_of_unplanned (r : Request) {s : Rehearsal} (hfaults : s.faults = [])
    (hhooks : s.hooks = []) :
    s.cluster.answer r = ((s.answer r).1, (s.answer r).2.cluster) ∧
      (s.answer r).2.faults = [] ∧ (s.answer r).2.hooks = [] := by
  obtain ⟨cluster, faults, hooks, _, _, _, _, _⟩ := s
  obtain rfl : faults = [] := hfaults
  obtain rfl : hooks = [] := hhooks
  simp only [answer, runHook, List.find?_nil, Fault.tryAll]
  rcases cluster.answer r with ⟨_ | reply, cluster'⟩
  · exact ⟨rfl, rfl, rfl⟩
  · dsimp only
    split <;> exact ⟨rfl, rfl, rfl⟩

/-- A rehearsal in which nothing goes wrong is a run in the reliable cluster. -/
theorem isRun_of_unplanned {α : Type} (task : Task α) {s : Rehearsal} (hfaults : s.faults = [])
    (hhooks : s.hooks = []) :
    Run Cluster.reliable task.run s.cluster (task.run.trace handler s) (some (s.run task).1)
      (s.run task).2.cluster := by
  refine task.run.run_trace handler (·.cluster) (fun s => s.faults = [] ∧ s.hooks = []) ?_ ?_ ?_ s
    ⟨hfaults, hhooks⟩
  · rintro r s ⟨hfaults, hhooks⟩
    exact answer_of_unplanned r hfaults hhooks
  · rintro server event s hs
    show (s.accept server event).cluster = s.cluster ∧
      (s.accept server event).faults = [] ∧ (s.accept server event).hooks = []
    unfold accept
    split <;> exact ⟨rfl, hs⟩
  · exact fun s hs => ⟨rfl, hs⟩

/-- Without intrusions a rehearsal answers as its cluster does, or refuses with an error of the API.
-/
theorem answer_of_unhooked (r : Request) {s : Rehearsal} (hhooks : s.hooks = []) :
    Cluster.refusing (fun error => ∃ e, error = .api e) r s.cluster (s.answer r).1
      (s.answer r).2.cluster ∧ (s.answer r).2.hooks = [] := by
  obtain ⟨cluster, faults, hooks, _, _, _, _, _⟩ := s
  obtain rfl : hooks = [] := hhooks
  simp only [answer, runHook, List.find?_nil]
  rcases Fault.tryAll r faults with ⟨_ | error, faults'⟩
  · dsimp only
    rcases hanswer : cluster.answer r with ⟨_ | reply, cluster'⟩
    · exact ⟨.inl hanswer, rfl⟩
    · dsimp only
      split <;> exact ⟨.inl hanswer, rfl⟩
  · exact ⟨.inr ⟨_, ⟨error, rfl⟩, rfl, rfl⟩, rfl⟩

/-- A rehearsal in which calls may be refused is a run in a refusing cluster. -/
theorem isRun_of_unhooked {α : Type} (task : Task α) {s : Rehearsal} (hhooks : s.hooks = []) :
    ∃ t, Run (Cluster.refusing fun error => ∃ e, error = .api e) task.run s.cluster t
      (some (s.run task).1) (s.run task).2.cluster := by
  refine ⟨_, task.run.run_trace handler (·.cluster) (·.hooks = []) ?_ ?_ ?_ s hhooks⟩
  · exact fun r s hs => answer_of_unhooked r hs
  · intro server event s hs
    show (s.accept server event).cluster = s.cluster ∧ (s.accept server event).hooks = []
    unfold accept
    split <;> exact ⟨rfl, hs⟩
  · exact fun s hs => ⟨rfl, hs⟩

theorem eq_ok_of_toOption {α : Type} {r : Except Error α} {a : α} (h : r.toOption = some a) :
    r = .ok a := by
  cases r with
  | error e => cases h
  | ok b => exact congrArg Except.ok (Option.some.inj h)

/-- What a rehearsal can be evaluated to come to, a run comes to as well. -/
theorem exists_run_of_unplanned {α : Type} {task : Task α} {s : Rehearsal} {a : α}
    (hfaults : s.faults = []) (hhooks : s.hooks = []) (h : (s.run task).1.toOption = some a) :
    ∃ t c', Run Cluster.reliable task.run s.cluster t (some (.ok a)) c' := by
  have hrun := isRun_of_unplanned task hfaults hhooks
  rw [eq_ok_of_toOption h] at hrun
  exact ⟨_, _, hrun⟩

theorem exists_run_of_unhooked {α : Type} {task : Task α} {s : Rehearsal} {a : α}
    (hhooks : s.hooks = []) (h : (s.run task).1.toOption = some a) :
    ∃ t c', Run (Cluster.refusing fun error => ∃ e, error = .api e) task.run s.cluster t
      (some (.ok a)) c' := by
  obtain ⟨t, hrun⟩ := isRun_of_unhooked task hhooks
  rw [eq_ok_of_toOption h] at hrun
  exact ⟨t, _, hrun⟩

end Rehearsal

end PushOperator
