import PushOperator.Proofs.Child.Selector
import PushOperator.Proofs.Cluster.Versions
import PushOperator.Proofs.Pass.Legacy
import PushOperator.Proofs.Pass.Run

/-!
# The legacy step removes its own objects only

What earlier versions have left behind carries the name of the server as a label and has the server
among its owners. The step deletes that and nothing else, kind by kind, in the order of the
listings, and passes over a kind that the cluster does not serve or does not find. Where a call
fails, or the step is cut short, a first part of it is gone and all else is as it was
(`removes_leftOvers`).
-/

namespace PushOperator

open Child Cluster Interaction

variable {k k' : Kind} {c c' c'' : Cluster} {ns name : String} {server : Server}
  {st st' : PassState} {t : Trace} {x : Interaction (Except Halt Unit × PassState)}

/-! ## What is left over -/

/-- An object carries the name of the server as its label `app` and has the server among its owners.
-/
def LeftOver (server : Server) (o : Object k) : Prop :=
  o.metadata.labelsOrEmpty.get? "app" = some server.anyName ∧
    ∃ owner ∈ o.metadata.ownerReferences.getD [], server.metadata.uid = some owner.uid

instance (server : Server) (o : Object k) : Decidable (LeftOver server o) :=
  inferInstanceAs (Decidable (_ ∧ _))

/-- The objects of a kind that are left over in the namespace of the server, as they are listed. -/
def leftOvers (c : Cluster) (server : Server) (k : Kind) : List (Object k) :=
  (c.objects k (nsOf server)).values.filter (LeftOver server ·)

/-- The listing of a kind was answered with "not found". -/
def Entry.hides (k : Kind) : Entry → Bool
  | .call (.list k' _ _) (.error error) => k' = k && error.isNotFound
  | _ => false

/-- What there is to delete of a kind: all that is left over, if the kind is served and its listing
was not answered with "not found". -/
def due (c : Cluster) (server : Server) (t : Trace) (k : Kind) : List (Object k) :=
  if c.serves k.apiVersion = true ∧ ∀ e ∈ t, e.hides k = false then leftOvers c server k else []

/-- What there is to delete of all legacy kinds, in this order. -/
def dueAll (c : Cluster) (server : Server) (t : Trace) : List AnyObject :=
  Pass.legacyKinds.flatMap fun k => (due c server t k).map (⟨k, ·⟩)

/-- A selector of one pair asks for that value. -/
theorem Cluster.selects_pair {labels : Dict String} {key value : String} (hkey : '=' ∉ key.toList)
    (hcomma : ',' ∉ (key ++ "=" ++ value).toList) :
    selects (key ++ "=" ++ value) labels = true ↔ labels.get? key = some value := by
  have hsplit : (key ++ "=" ++ value).toList.splitOn ',' = [(key ++ "=" ++ value).toList] := by
    have hfree : ∀ part ∈ [(key ++ "=" ++ value).toList], ',' ∉ part :=
      List.forall_mem_singleton.2 hcomma
    simpa only [List.intercalate_singleton] using List.splitOn_intercalate ',' hfree (by simp)
  unfold selects
  rw [hsplit, List.map_singleton, String.ofList_toList, List.all_cons, List.all_nil, Bool.and_true]
  exact meets_pair hkey

theorem isOwnedBy_iff {m : ObjectMeta} {uid : Option String} :
    m.isOwnedBy uid = true ↔ ∃ owner ∈ m.ownerReferences.getD [], uid = some owner.uid := by
  simp only [ObjectMeta.isOwnedBy, List.any_eq_true, beq_iff_eq, eq_comm (a := uid)]

/-- What the step takes for the server's is what is left over. -/
theorem legacyObjects_eq_leftOvers (hcomma : ',' ∉ server.anyName.toList)
    (hns : server.metadata.ns = some ns) :
    Pass.legacyObjects c k ns server = leftOvers c server k := by
  unfold Pass.legacyObjects leftOvers
  rw [nsOf_of_eq_some hns, List.filter_filter]
  refine List.filter_congr fun o _ => ?_
  have hselects : selects ("app=" ++ server.anyName) o.metadata.labelsOrEmpty = true ↔
      o.metadata.labelsOrEmpty.get? "app" = some server.anyName :=
    @selects_pair _ "app" _ (by decide) (by simpa using hcomma)
  rw [Bool.eq_iff_iff, Bool.and_eq_true, hselects, isOwnedBy_iff, decide_eq_true_iff, and_comm]
  rfl

theorem mem_leftOvers {o : Object k} : o ∈ leftOvers c server k ↔
    (∃ name, c.get? k (nsOf server) name = some o) ∧ LeftOver server o := by
  rw [leftOvers, List.mem_filter, mem_values_objects, decide_eq_true_iff]

theorem mem_due {o : Object k} : o ∈ due c server t k ↔
    (c.serves k.apiVersion = true ∧ ∀ e ∈ t, e.hides k = false) ∧
      (∃ name, c.get? k (nsOf server) name = some o) ∧ LeftOver server o := by
  unfold due
  split
  · next h => rw [mem_leftOvers, and_iff_right h]
  · next h => simp only [List.not_mem_nil, h, false_and]

theorem mem_dueAll {o : Object k} :
    (⟨k, o⟩ : AnyObject) ∈ dueAll c server t ↔ k ∈ Pass.legacyKinds ∧ o ∈ due c server t k := by
  unfold dueAll
  rw [List.mem_flatMap]
  constructor
  · rintro ⟨k', hk, hmem⟩
    obtain ⟨o', ho', heq⟩ := List.mem_map.1 hmem
    cases heq
    exact ⟨hk, ho'⟩
  · rintro ⟨hk, ho⟩
    exact ⟨k, hk, List.mem_map_of_mem ho⟩

/-- What there is to delete of a kind depends on the shelf of that kind, and on what the trace says
of its listing. -/
theorem due_congr {t' : Trace} (hshelf : c'.shelf k = c.shelf k)
    (hapis : c'.missingApis = c.missingApis)
    (ht : (∀ e ∈ t', e.hides k = false) ↔ ∀ e ∈ t, e.hides k = false) :
    due c' server t' k = due c server t k := by
  unfold due leftOvers serves
  simp only [objects_of_shelf hshelf, hapis, ht]

/-! ## Objects that are gone -/

namespace Cluster

/-- Some objects of a cluster are gone, and all else is as it was. -/
structure Loses (c : Cluster) (gone : List AnyObject) (c' : Cluster) : Prop where
  get?_eq_some : ∀ k ns name (o : Object k),
    c'.get? k ns name = some o ↔ c.get? k ns name = some o ∧ (⟨k, o⟩ : AnyObject) ∉ gone
  revision : c'.revision = c.revision
  missingApis : c'.missingApis = c.missingApis

theorem Loses.nil (c : Cluster) : c.Loses [] c := ⟨by simp, rfl, rfl⟩

theorem Loses.append {gone gone' : List AnyObject} (h : c.Loses gone c') (h' : c'.Loses gone' c'') :
    c.Loses (gone ++ gone') c'' where
  get?_eq_some k ns name o := by
    rw [h'.get?_eq_some, h.get?_eq_some, List.mem_append, not_or, and_assoc]
  revision := h'.revision.trans h.revision
  missingApis := h'.missingApis.trans h.missingApis

theorem Loses.keyed {gone : List AnyObject} (h : c.Loses gone c') (hc : c.Keyed) : c'.Keyed :=
  fun k ns name o ho => hc k ns name o ((h.get?_eq_some k ns name o).1 ho).1

/-- To take an object away from its place is to lose that object. -/
theorem loses_remove (hc : c.Keyed) {o : Object k} (ho : c.get? k (nsOf o) (nameOf o) = some o) :
    c.Loses [⟨k, o⟩] (c.remove k (nsOf o) (nameOf o)) where
  get?_eq_some k' ns name o' := by
    rw [List.mem_singleton]
    by_cases hk : k = k'
    · subst hk
      rw [get?_remove]
      split
      · next hplace =>
        obtain ⟨rfl, rfl⟩ := hplace
        simpa [ho] using Eq.symm
      · next hplace =>
        refine (and_iff_left_of_imp fun ho' heq => hplace ?_).symm
        cases heq
        obtain ⟨rfl, rfl⟩ := hc _ _ _ _ ho'
        exact ⟨rfl, rfl⟩
    · rw [get?_remove_of_ne _ _ _ _ _ hk]
      refine (and_iff_left fun heq => hk ?_).symm
      exact (congrArg Sigma.fst heq).symm
  revision := rfl
  missingApis := rfl

/-- Objects that stand somewhere are lost when they are taken away, each from its place. -/
theorem loses_removeAll (hc : c.Keyed) {os : List (Object k)} (hnodup : os.Nodup)
    (hstand : ∀ o ∈ os, c.get? k (nsOf o) (nameOf o) = some o) :
    c.Loses (os.map (⟨k, ·⟩)) (c.removeAll os) := by
  induction os generalizing c with
  | nil => exact .nil c
  | cons o os ih =>
    obtain ⟨ho, hos⟩ := List.forall_mem_cons.1 hstand
    obtain ⟨hfirst, hnodup'⟩ := List.nodup_cons.1 hnodup
    have hloses := loses_remove hc ho
    refine hloses.append (ih (hloses.keyed hc) hnodup' fun o' ho' => ?_)
    refine (hloses.get?_eq_some _ _ _ _).2 ⟨hos o' ho', fun hmem => hfirst ?_⟩
    cases List.mem_singleton.1 hmem
    exact ho'

/-- An object stands in one place of a listing only. -/
theorem Keyed.nodup_values (hc : c.Keyed) : (c.objects k ns).values.Nodup :=
  .of_map nameOf (nodup_nameOf_values fun _ _ hget => (hc _ _ _ _ hget).2)

theorem Keyed.nodup_due (hc : c.Keyed) : (due c server t k).Nodup := by
  unfold due
  split
  · exact hc.nodup_values.filter _
  · exact List.nodup_nil

theorem Keyed.stands_of_due (hc : c.Keyed) {o : Object k} (h : o ∈ due c server t k) :
    c.get? k (nsOf o) (nameOf o) = some o := by
  obtain ⟨-, ⟨name, hget⟩, -⟩ := mem_due.1 h
  obtain ⟨hns, hname⟩ := hc _ _ _ _ hget
  rwa [hns, hname]

end Cluster

/-! ## What is taken away -/

namespace Pass

/-- Steps of a part of the step have taken away the first of the objects that it had to delete, and
all of them when they led to its end. -/
def TakesAway (c : Cluster) (st : PassState) (os : List (Object k))
    (x : Interaction (Except Halt Unit × PassState)) (c' : Cluster) : Prop :=
  ∃ gone, gone <+: os ∧ c' = c.removeAll gone ∧
    ∀ st', x = .done (.ok (), st') → gone = os ∧ st' = st

/-- What has not succeeded may have done nothing. -/
theorem takesAway_nothing {os : List (Object k)} (h : ∀ st', x ≠ .done (.ok (), st')) :
    TakesAway c st os x c :=
  ⟨[], List.nil_prefix, rfl, fun st' hok => absurd hok (h st')⟩

theorem takesAway_call {os : List (Object k)} (r : Request)
    (next : Except Error r.Reply → Interaction (Except Halt Unit × PassState)) :
    TakesAway c st os (.call r next) c := by
  refine takesAway_nothing fun st' h => ?_
  cases h

theorem takesAway_emit {os : List (Object k)} (event : Event)
    (next : Interaction (Except Halt Unit × PassState)) :
    TakesAway c st os (.emit server event next) c := by
  refine takesAway_nothing fun st' h => ?_
  cases h

theorem takesAway_halt {os : List (Object k)} (halt : Halt) (st' : PassState) :
    TakesAway c st os (.done (.error halt, st')) c := by
  refine takesAway_nothing fun st'' h => ?_
  cases h

/-- Where nothing is to be deleted, nothing is. -/
theorem takesAway_nil : TakesAway (k := k) c st [] (.done (.ok (), st)) c :=
  ⟨[], List.nil_prefix, rfl, fun _ hok => by cases hok; exact ⟨rfl, rfl⟩⟩

/-- The first object is gone, and others after it. -/
theorem TakesAway.cons {o : Object k} {os : List (Object k)}
    (h : TakesAway (c.remove k (nsOf o) (nameOf o)) st os x c') :
    TakesAway c st (o :: os) x c' := by
  obtain ⟨gone, hgone, hc', hok⟩ := h
  refine ⟨o :: gone, List.cons_prefix_cons.2 ⟨rfl, hgone⟩, hc', fun st' hx => ?_⟩
  obtain ⟨rfl, rfl⟩ := hok st' hx
  exact ⟨rfl, rfl⟩

theorem exec_removeLegacyObjects (o : Object k) (os : List (Object k)) (st : PassState) :
    ((o :: os).forM removeLegacyObject).exec st = .call (.delete k o) fun
      | .error error => .done (.error (.failed error), st)
      | .ok _ => .emit st.server
          { reason := .legacyResourceRemoved, message := "Deleted " ++ k.name ++ " " ++ o.anyName }
          ((os.forM removeLegacyObject).exec st) :=
  congrArg (Interaction.call _) (funext fun answer => by cases answer <;> rfl)

/-- A deletion has its effect, or none at all. -/
theorem flaky_delete {o : Object k} {a : Except Error Unit} (h : flaky (.delete k o) c a c') :
    c' = c ∨ c' = c.remove k (nsOf o) (nameOf o) := by
  rcases flaky_cases h with rfl | rfl
  · exact .inl rfl
  · unfold answer
    dsimp only
    split
    · exact .inl rfl
    · exact .inr rfl

/-- The objects are taken away one after the other, and nothing is listed meanwhile. -/
theorem takesAway_forM {os : List (Object k)}
    (h : Steps flaky ((os.forM removeLegacyObject).exec st) c t x c') :
    TakesAway c st os x c' ∧ ∀ e ∈ t, ∀ k', e.hides k' = false := by
  induction os generalizing c t with
  | nil =>
    obtain ⟨rfl, rfl, rfl⟩ := h.of_done
    exact ⟨takesAway_nil, by simp⟩
  | cons o os ih =>
    rw [exec_removeLegacyObjects] at h
    obtain ⟨rfl, rfl, rfl⟩ | ⟨answer, c₁, t₁, hanswer, hrest, rfl⟩ := h.call_cases
    · exact ⟨takesAway_call _ _, by simp⟩
    rcases answer with error | _
    · obtain ⟨rfl, rfl, rfl⟩ := hrest.of_done
      -- Behind an error the object may be gone.
      rcases flaky_delete hanswer with rfl | rfl
      · exact ⟨takesAway_halt _ _, by simp [Entry.hides]⟩
      · exact ⟨(takesAway_halt _ _).cons, by simp [Entry.hides]⟩
    · obtain ⟨-, rfl⟩ := answer_delete.1 (flaky_ok_iff.1 hanswer)
      obtain ⟨rfl, rfl, rfl⟩ | ⟨t₂, hrest', rfl⟩ := hrest.emit_cases
      · exact ⟨(takesAway_emit _ _).cons, by simp [Entry.hides]⟩
      · obtain ⟨htakes, hlists⟩ := ih hrest'
        exact ⟨htakes.cons, by simpa [Entry.hides] using hlists⟩

theorem exec_removeLegacy (k : Kind) (st : PassState) :
    (removeLegacy k).exec st = .call (.probe k.apiVersion) fun
      | .error error => .done (.error (.failed error), st)
      | .ok false => .done (.ok (), st)
      | .ok true => match st.server.metadata.requireNs with
        | .error error => .done (.error (.failed error), st)
        | .ok ns => .call (.list k ns ("app=" ++ st.server.anyName)) fun
          | .error error =>
            if error.isNotFound then .done (.ok (), st) else .done (.error (.failed error), st)
          | .ok objects =>
            ((objects.filter (·.metadata.isOwnedBy st.server.metadata.uid)).forM
              removeLegacyObject).exec st := by
  refine congrArg (Interaction.call _) (funext fun answer => ?_)
  rcases answer with error | _ | _
  · rfl
  · rfl
  show (Pass.server >>= _ : Pass Unit).exec st = _
  rw [exec_server_bind]
  cases hns : st.server.metadata.requireNs with
  | error error => rfl
  | ok ns =>
    refine congrArg (Interaction.call _) (funext fun answer => ?_)
    rcases answer with error | objects
    · show (if error.isNotFound = true then pure () else throw _ : Pass Unit).exec st =
        if error.isNotFound = true then _ else _
      split <;> rfl
    · rfl

/-- Of a kind, what is due is taken away, and no other kind is listed. -/
theorem takesAway_removeLegacy (hcomma : ',' ∉ st.server.anyName.toList)
    (h : Steps flaky ((removeLegacy k).exec st) c t x c') :
    TakesAway c st (due c st.server t k) x c' ∧ ∀ e ∈ t, ∀ k', e.hides k' = true → k = k' := by
  rw [exec_removeLegacy] at h
  obtain ⟨rfl, rfl, rfl⟩ | ⟨answer, c₁, t₁, hanswer, hrest, rfl⟩ := h.call_cases
  · exact ⟨takesAway_call _ _, by simp⟩
  obtain rfl := flaky_read rfl hanswer
  rcases answer with error | served
  · obtain ⟨rfl, rfl, rfl⟩ := hrest.of_done
    exact ⟨takesAway_halt _ _, by simp [Entry.hides]⟩
  obtain ⟨hserved, -⟩ := answer_probe.1 (flaky_ok_iff.1 hanswer)
  cases served with
  | false =>
    obtain ⟨rfl, rfl, rfl⟩ := hrest.of_done
    rw [due, if_neg (by simp [← hserved])]
    exact ⟨takesAway_nil, by simp [Entry.hides]⟩
  | true =>
    dsimp only at hrest
    cases hns : st.server.metadata.requireNs with
    | error error =>
      rw [hns] at hrest
      obtain ⟨rfl, rfl, rfl⟩ := hrest.of_done
      exact ⟨takesAway_halt _ _, by simp [Entry.hides]⟩
    | ok ns =>
      rw [hns] at hrest
      obtain ⟨rfl, rfl, rfl⟩ | ⟨listed, c₂, t₂, hlisted, hend, rfl⟩ := hrest.call_cases
      · exact ⟨takesAway_call _ _, by simp [Entry.hides]⟩
      obtain rfl := flaky_read rfl hlisted
      rcases listed with error | objects
      · dsimp only at hend
        split at hend
        · next hmissing =>
          obtain ⟨rfl, rfl, rfl⟩ := hend.of_done
          rw [due, if_neg (by simp [Entry.hides, hmissing])]
          exact ⟨takesAway_nil, by simp [Entry.hides]⟩
        · obtain ⟨rfl, rfl, rfl⟩ := hend.of_done
          exact ⟨takesAway_halt _ _, by simp +contextual [Entry.hides]⟩
      · obtain ⟨htakes, hlists⟩ := takesAway_forM hend
        have hshown (k' : Kind) : ∀ e ∈ Entry.call (.probe k.apiVersion) (.ok true) ::
            .call (.list k ns ("app=" ++ st.server.anyName)) (.ok objects) :: t₂,
              e.hides k' = false := by
          simpa [Entry.hides] using fun e he => hlists e he k'
        constructor
        · obtain ⟨rfl, -⟩ := answer_list.1 (flaky_ok_iff.1 hlisted)
          rwa [due, if_pos ⟨hserved.symm, hshown k⟩,
            ← legacyObjects_eq_leftOvers hcomma (ObjectMeta.requireNs_eq_ok.1 hns)]
        · intro e he k' hides
          rw [hshown k' e he] at hides
          cases hides

/-- What is taken away of what was due is lost, and nothing else. -/
theorem TakesAway.loses (hc : c.Keyed) (h : TakesAway c st (due c server t k) x c') :
    ∃ gone, gone <+: due c server t k ∧ c' = c.removeAll gone ∧ c.Loses (gone.map (⟨k, ·⟩)) c' ∧
      ∀ st', x = .done (.ok (), st') → gone = due c server t k ∧ st' = st := by
  obtain ⟨gone, hgone, rfl, hok⟩ := h
  refine ⟨gone, hgone, rfl, loses_removeAll hc ?_ fun o ho => ?_, hok⟩
  · exact hc.nodup_due.sublist hgone.sublist
  · exact hc.stands_of_due (hgone.subset ho)

theorem dueAll_eq : dueAll c server t =
    (due c server t .deploymentConfig).map (⟨.deploymentConfig, ·⟩) ++
      (due c server t .imageStream).map (⟨.imageStream, ·⟩) := by
  simp [dueAll, legacyKinds]

/-- Wherever the step is, it has taken away the first of all that is due. -/
theorem loses_removeLegacyKinds (hc : c.Keyed) (hcomma : ',' ∉ st.server.anyName.toList)
    (h : Steps flaky (removeLegacyKinds.exec st) c t x c') :
    ∃ gone, gone <+: dueAll c st.server t ∧ c.Loses gone c' ∧
      ∀ st', x = .done (.ok (), st') → gone = dueAll c st.server t ∧ st' = st := by
  unfold removeLegacyKinds at h
  rw [exec_bind] at h
  rw [dueAll_eq]
  obtain ⟨y, hconfigs, hunfinished⟩ | ⟨⟨halt | _, st₁⟩, c₁, t₁, t₂, hconfigs, hrest, rfl⟩ :=
    h.bind_unfinished
  · obtain ⟨gone, hgone, -, hloses, -⟩ := (takesAway_removeLegacy hcomma hconfigs).1.loses hc
    exact ⟨_, (hgone.map _).trans (List.prefix_append _ _), hloses,
      fun st' hx => absurd hx (hunfinished _)⟩
  · obtain ⟨rfl, rfl, rfl⟩ := hrest.of_done
    obtain ⟨gone, hgone, -, hloses, -⟩ := (takesAway_removeLegacy hcomma hconfigs).1.loses hc
    rw [List.append_nil]
    exact ⟨_, (hgone.map _).trans (List.prefix_append _ _), hloses, fun st' hx => by cases hx⟩
  · obtain ⟨htakes₁, hlists₁⟩ := takesAway_removeLegacy hcomma hconfigs
    obtain ⟨gone₁, -, hc₁, hloses₁, hok₁⟩ := htakes₁.loses hc
    obtain ⟨rfl, rfl⟩ := hok₁ st₁ rfl
    obtain ⟨htakes₂, hlists₂⟩ := takesAway_removeLegacy hcomma hrest
    obtain ⟨gone₂, hgone₂, -, hloses₂, hok₂⟩ := htakes₂.loses (hloses₁.keyed hc)
    -- Neither kind is listed while the step is at the other, and each is on a shelf of its own.
    have hstreams : due c₁ st₁.server t₂ .imageStream =
        due c st₁.server (t₁ ++ t₂) .imageStream := by
      refine due_congr ?_ hloses₁.missingApis ?_
      · rw [hc₁]
        exact shelf_removeAll_of_ne c _ (by decide)
      · rw [List.forall_mem_append]
        refine (and_iff_right fun e he => ?_).symm
        exact Bool.eq_false_iff.2 fun hides => absurd (hlists₁ e he _ hides) (by decide)
    have hconfigs' : due c st₁.server t₁ .deploymentConfig =
        due c st₁.server (t₁ ++ t₂) .deploymentConfig := by
      refine due_congr rfl rfl ?_
      rw [List.forall_mem_append]
      refine (and_iff_left fun e he => ?_).symm
      exact Bool.eq_false_iff.2 fun hides => absurd (hlists₂ e he _ hides) (by decide)
    rw [hconfigs'] at hloses₁
    rw [hstreams] at hgone₂ hok₂
    refine ⟨_, List.prefix_append_right_inj _ |>.2 (hgone₂.map _), hloses₁.append hloses₂, ?_⟩
    intro st' hx
    obtain ⟨rfl, rfl⟩ := hok₂ st' hx
    exact ⟨rfl, rfl⟩

/-! ## That the step succeeds -/

/-- Objects that stand somewhere can be deleted one after the other. -/
theorem exists_completes_forM (hc : c.Keyed) {os : List (Object k)} (hnodup : os.Nodup)
    (hstand : ∀ o ∈ os, c.get? k (nsOf o) (nameOf o) = some o) :
    ∃ c', c'.Keyed ∧
      Completes reliable (fun _ => True) (os.forM removeLegacyObject) st c () st c' := by
  induction os generalizing c with
  | nil => exact ⟨c, hc, completes_pure.2 ⟨rfl, rfl, rfl⟩⟩
  | cons o os ih =>
    obtain ⟨ho, hos⟩ := List.forall_mem_cons.1 hstand
    obtain ⟨hfirst, hnodup'⟩ := List.nodup_cons.1 hnodup
    have hloses := loses_remove hc ho
    obtain ⟨c', hc', hrest⟩ := ih (hloses.keyed hc) hnodup' fun o' ho' =>
      (hloses.get?_eq_some _ _ _ _).2 ⟨hos o' ho', fun hmem => hfirst (by
        cases List.mem_singleton.1 hmem
        exact ho')⟩
    have hdelete : Task.Completes reliable (fun _ => True) (Task.call (.delete k o)) c ()
        (c.remove k (nsOf o) (nameOf o)) :=
      Task.completes_call.2 ⟨trivial, answer_delete.2 ⟨⟨o, ho⟩, rfl⟩⟩
    have hround : Completes reliable (fun _ => True) (removeLegacyObject o) st c () st
        (c.remove k (nsOf o) (nameOf o)) :=
      completes_liftM_bind.2 ⟨(), _, hdelete, completes_report.2 ⟨trivial, rfl, rfl⟩⟩
    exact ⟨c', hc', completes_bind.2 ⟨(), st, _, hround, hrest⟩⟩

/-- When no call fails, the step succeeds over a server that has a namespace. -/
theorem exists_completes_removeLegacy (hc : c.Keyed) (hns : st.server.metadata.ns = some ns) :
    ∃ c', c'.Keyed ∧ Completes reliable (fun _ => True) (removeLegacy k) st c () st c' := by
  have hprobe : Task.Completes reliable (fun _ => True) (Task.call (.probe k.apiVersion)) c
      (c.serves k.apiVersion) c :=
    Task.completes_call.2 ⟨trivial, answer_probe.2 ⟨rfl, rfl⟩⟩
  have hlist : Task.Completes reliable (fun _ => True)
      (Task.call (.list k ns ("app=" ++ st.server.anyName))).attempt c
      (.ok ((c.objects k ns).values.filter fun o =>
        selects ("app=" ++ st.server.anyName) o.metadata.labelsOrEmpty)) c :=
    Task.completes_attempt.2 (Task.completes_call.2 ⟨trivial, answer_list.2 ⟨rfl, rfl⟩⟩)
  obtain ⟨c', hc', hdelete⟩ : ∃ c', c'.Keyed ∧ Completes reliable (fun _ => True)
      ((legacyObjects c k ns st.server).forM removeLegacyObject) st c () st c' := by
    refine exists_completes_forM hc ((hc.nodup_values.filter _).filter _) fun o ho => ?_
    obtain ⟨⟨name, hget⟩, -⟩ := mem_legacyObjects.1 ho
    obtain ⟨hplace, hname⟩ := hc _ _ _ _ hget
    rwa [hplace, hname]
  cases hserved : c.serves k.apiVersion with
  | false =>
    rw [hserved] at hprobe
    exact ⟨c, hc, completes_liftM_bind.2 ⟨_, _, hprobe, completes_pure.2 ⟨rfl, rfl, rfl⟩⟩⟩
  | true =>
    rw [hserved] at hprobe
    refine ⟨c', hc', completes_liftM_bind.2 ⟨_, _, hprobe, completes_server_bind.2 ?_⟩⟩
    refine completes_build_bind.2 ⟨ns, ObjectMeta.requireNs_eq_ok.2 hns, ?_⟩
    exact completes_liftM_bind.2 ⟨_, _, hlist, hdelete⟩

theorem exists_completes_removeLegacyKinds (hc : c.Keyed)
    (hns : st.server.metadata.ns = some ns) :
    ∃ c', Completes reliable (fun _ => True) removeLegacyKinds st c () st c' := by
  obtain ⟨c₁, hc₁, hconfigs⟩ := exists_completes_removeLegacy (k := .deploymentConfig) hc hns
  obtain ⟨c₂, -, hstreams⟩ := exists_completes_removeLegacy (k := .imageStream) hc₁ hns
  exact ⟨c₂, completes_bind.2 ⟨(), st, c₁, hconfigs, hstreams⟩⟩

/-! ## The main statement -/

/-- Wherever the step ends or is cut short, whatever goes wrong, the objects that are gone are the
first of those that carry the name of the server and have it among their owners, deployment
configurations before image streams, and all else is as it was. When the step succeeds, all of them
are gone, and it does succeed when no call fails and the server has a namespace. -/
theorem removes_leftOvers (hc : c.Keyed) (hcomma : ',' ∉ st.server.anyName.toList) :
    (∀ t outcome c', Run flaky (removeLegacyKinds.exec st) c t outcome c' →
      ∃ gone, gone <+: dueAll c st.server t ∧ c.Loses gone c' ∧
        ∀ st', outcome = some (.ok (), st') → gone = dueAll c st.server t ∧ st' = st) ∧
    (∀ t st' c', Run flaky (removeLegacyKinds.exec st) c t (some (.ok (), st')) c' →
      ∀ k ns name (o : Object k), c'.get? k ns name = some o ↔ c.get? k ns name = some o ∧
        ¬(k ∈ legacyKinds ∧ c.serves k.apiVersion = true ∧ (∀ e ∈ t, e.hides k = false) ∧
          nsOf st.server = ns ∧ LeftOver st.server o)) ∧
    ((∃ ns, st.server.metadata.ns = some ns) →
      ∃ t c', Run reliable (removeLegacyKinds.exec st) c t (some (.ok (), st)) c') := by
  have hall : ∀ t outcome c', Run flaky (removeLegacyKinds.exec st) c t outcome c' →
      ∃ gone, gone <+: dueAll c st.server t ∧ c.Loses gone c' ∧
        ∀ st', outcome = some (.ok (), st') → gone = dueAll c st.server t ∧ st' = st := by
    intro t outcome c' h
    obtain ⟨x, hsteps, hend⟩ := Steps.of_run h
    obtain ⟨gone, hgone, hloses, hok⟩ := loses_removeLegacyKinds hc hcomma hsteps
    exact ⟨gone, hgone, hloses, fun st' houtcome => hok st' (hend _ houtcome)⟩
  refine ⟨hall, fun t st' c' h k ns name o => ?_, fun ⟨ns, hns⟩ => ?_⟩
  · obtain ⟨gone, -, hloses, hok⟩ := hall _ _ _ h
    obtain ⟨rfl, -⟩ := hok st' rfl
    rw [hloses.get?_eq_some, mem_dueAll, mem_due]
    refine and_congr_right fun hget => not_congr ?_
    obtain ⟨rfl, rfl⟩ := hc _ _ _ _ hget
    have hplace : (∃ name, c.get? k (nsOf st.server) name = some o) ↔ nsOf st.server = nsOf o :=
      ⟨fun ⟨name, h⟩ => (hc _ _ _ _ h).1.symm, fun h => ⟨nameOf o, h.symm ▸ hget⟩⟩
    rw [hplace, and_assoc]
  · obtain ⟨c', t, -, h⟩ := exists_completes_removeLegacyKinds hc hns
    exact ⟨t, c', h⟩

/-! ## A cluster with objects of several sorts -/

/-- What is left over of a server, seems to be, or is not. -/
def legacyMeta (name : String) (app : Option String) (owners : List String) : ObjectMeta where
  name := some name
  ns := some "push"
  labels := app.map fun app => Dict.ofList [("app", app)]
  ownerReferences := some (owners.map fun uid => { apiVersion := "", kind := "", name := "", uid })

/-- Two configurations and a stream are left over of the server "a". Another configuration belongs
to somebody else, and one does not carry the name of the server. -/
def legacyCluster : Cluster :=
  let config (m : ObjectMeta) : Object .deploymentConfig := ⟨m, default, ()⟩
  let c := Cluster.empty
  let c := (c.store "push" "first" (config (legacyMeta "first" (some "a") ["uid-a"]))).2
  let c := (c.store "push" "foreign" (config (legacyMeta "foreign" (some "a") ["uid-b"]))).2
  let c := (c.store "push" "plain" (config (legacyMeta "plain" none ["uid-a"]))).2
  let c := (c.store "push" "shared" (config (legacyMeta "shared" (some "a") ["uid-b", "uid-a"]))).2
  let stream : Object .imageStream := ⟨legacyMeta "stream" (some "a") ["uid-a"], default, ()⟩
  (c.store "push" "stream" stream).2

theorem keyed_legacyCluster : legacyCluster.Keyed :=
  (((((stamped_empty.keyed).store _).store _).store _).store _).store _

/-- The step over the server "a". -/
def legacyStep : Interaction (Except Halt Unit × PassState) :=
  removeLegacyKinds.exec { server := sampleServer "a", stored := none }

/-- The second configuration cannot be deleted. -/
def deletesShared : Request → Bool
  | .delete .deploymentConfig o => nameOf o = "shared"
  | _ => false

/-- The names of the objects of a kind. -/
def namesOf (c : Cluster) (k : Kind) : List String := (c.objects k "push").values.map nameOf

/-- When no call fails, the step leaves the two configurations that are not left over. When one of
the deletions is refused, only what was due before it is gone. -/
theorem removes_leftOvers_legacyCluster :
    (∃ t st' c', Run reliable legacyStep legacyCluster t (some (.ok (), st')) c' ∧
      legacyCluster.Loses (dueAll legacyCluster (sampleServer "a") t) c' ∧
      namesOf c' .deploymentConfig = ["foreign", "plain"] ∧ namesOf c' .imageStream = []) ∧
    ∃ t outcome c' gone, Run flaky legacyStep legacyCluster t outcome c' ∧
      gone <+: dueAll legacyCluster (sampleServer "a") t ∧ legacyCluster.Loses gone c' ∧
      namesOf c' .deploymentConfig = ["foreign", "plain", "shared"] ∧
      namesOf c' .imageStream = ["stream"] := by
  obtain ⟨hall, -, -⟩ := @removes_leftOvers legacyCluster
    { server := sampleServer "a", stored := none } keyed_legacyCluster (by decide)
  constructor
  · obtain ⟨st', hrun⟩ : ∃ st', Run reliable legacyStep legacyCluster
        (legacyStep.trace (drawing (fun _ => false) "") legacyCluster) (some (.ok (), st'))
        (legacyStep.run (drawing (fun _ => false) "") legacyCluster).2 :=
      run_drawing_ok (fun _ _ => rfl) "" (by decide +kernel)
    obtain ⟨gone, -, hloses, hok⟩ := hall _ _ _ (hrun.mono flaky_of_reliable)
    rw [(hok st' rfl).1] at hloses
    exact ⟨_, st', _, hrun, hloses, by decide +kernel, by decide +kernel⟩
  · have hrun := run_drawing (flaky_drawing deletesShared) "" legacyStep legacyCluster
    obtain ⟨gone, hgone, hloses, -⟩ := hall _ _ _ hrun
    exact ⟨_, _, _, gone, hrun, hgone, hloses, by decide +kernel, by decide +kernel⟩

end Pass

end PushOperator
