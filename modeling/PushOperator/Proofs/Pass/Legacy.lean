import PushOperator.Pass.Legacy
import PushOperator.Proofs.Pass.Ensure

/-!
# The legacy step completes

A legacy step deletes, and only objects of the two legacy kinds. When no call fails, none of those
that belong to the server are left, and on what it leaves behind the step is quiet.
-/

namespace PushOperator.Pass

open Child Cluster

variable {k : Kind} {P : Entry → Prop} {c c' : Cluster} {ns : String} {server : Server}
  {st st' : PassState} {u : Unit}

/-- The kinds that the legacy step writes. -/
def legacyKinds : List Kind := [.deploymentConfig, .imageStream]

/-- The objects of a kind that the legacy step takes for the server's. -/
def legacyObjects (c : Cluster) (k : Kind) (ns : String) (server : Server) : List (Object k) :=
  ((c.objects k ns).values.filter fun o =>
    selects ("app=" ++ server.anyName) o.metadata.labelsOrEmpty).filter
      (·.metadata.isOwnedBy server.metadata.uid)

/-- What the legacy step leaves behind when no call fails. -/
def LegacySettled (c : Cluster) (ns : String) (server : Server) : Prop :=
  ∀ k ∈ legacyKinds, c.serves k.apiVersion = true → legacyObjects c k ns server = []

theorem legacyObjects_of_shelf (h : c'.shelf k = c.shelf k) :
    legacyObjects c' k ns server = legacyObjects c k ns server := by
  unfold legacyObjects
  rw [objects_of_shelf h]

theorem LegacySettled.of_shelf (h : LegacySettled c ns server) (hserves : c'.serves = c.serves)
    (hshelf : ∀ k ∈ legacyKinds, c'.shelf k = c.shelf k) : LegacySettled c' ns server := by
  intro k hk hserved
  rw [hserves] at hserved
  rw [legacyObjects_of_shelf (hshelf k hk)]
  exact h k hk hserved

/-! ## What is written -/

theorem writesOnly_removeLegacy (hk : k ∈ legacyKinds) :
    WritesOnly legacyKinds (removeLegacy k) := by
  refine (writesOnly_read rfl).bind fun served => ?_
  split
  · exact writesOnly_pure
  · refine writesOnly_server.bind fun server => writesOnly_build.bind fun ns => ?_
    refine (writesOnly_liftM ?_).bind fun answer => ?_
    · exact (Task.Obeys.attempt (Task.obeys_read rfl)).weaken fun _ _ => trivial
    split
    · split
      · exact writesOnly_pure
      · exact writesOnly_fail
    · refine writesOnly_forM fun o _ => ?_
      refine (writesOnly_liftM ((Task.obeys_call ?_).weaken fun _ _ => trivial)).bind fun _ => ?_
      · rintro k' rfl
        exact hk
      · exact writesOnly_report

theorem writesOnly_removeLegacyKinds : WritesOnly legacyKinds removeLegacyKinds :=
  (writesOnly_removeLegacy (by decide)).bind fun _ => writesOnly_removeLegacy (by decide)

/-! ## What is left behind -/

theorem completes_removeLegacyObjects {os : List (Object k)}
    (h : Completes flaky P (os.forM removeLegacyObject) st c u st' c') :
    st' = st ∧ c' = c.removeAll os := by
  induction os generalizing st c with
  | nil =>
    obtain ⟨-, rfl, rfl⟩ := completes_pure.1 h
    exact ⟨rfl, rfl⟩
  | cons o os ih =>
    obtain ⟨_, st₁, c₁, hround, hrest⟩ := completes_bind.1 h
    obtain ⟨_, st₂, c₂, hdelete, hreport⟩ := completes_bind.1 hround
    obtain ⟨hdelete', rfl⟩ := completes_liftM.1 hdelete
    obtain ⟨-, -, rfl⟩ := Task.completes_delete.1 hdelete'
    obtain ⟨-, rfl, rfl⟩ := completes_report.1 hreport
    exact ih hrest

/-- Either the server's objects are gone, or there was no answer that shows them. -/
theorem completes_removeLegacy {w : World Cluster}
    (hw : ∀ r c a c', w r c a c' → flaky r c a c')
    (h : Completes w P (removeLegacy k) st c u st' c') (hns : st.server.metadata.ns = some ns) :
    st' = st ∧ (c' = c.removeAll (legacyObjects c k ns st.server) ∨
      c' = c ∧ (c.serves k.apiVersion = true → ∃ error,
        w (.list k ns ("app=" ++ st.server.anyName)) c (.error error) c)) := by
  obtain ⟨served, c, hprobe', hrest⟩ := completes_liftM_bind.1 h
  obtain ⟨-, rfl, rfl⟩ := Task.completes_probe.1 (hprobe'.mono hw)
  split at hrest
  · next hmissing =>
    obtain ⟨-, rfl, rfl⟩ := completes_pure.1 hrest
    exact ⟨rfl, .inr ⟨rfl, fun hserved => by simp [hserved] at hmissing⟩⟩
  · have hrest₁ := completes_server_bind.1 hrest
    obtain ⟨ns', hns', hrest₂⟩ := completes_build_bind.1 hrest₁
    obtain rfl : ns = ns' :=
      Option.some.inj (hns.symm.trans (ObjectMeta.requireNs_eq_ok.1 hns'))
    obtain ⟨answer, c₁, hlist', hrest₃⟩ := completes_liftM_bind.1 hrest₂
    obtain ⟨a, c₁, -, hcall, hdone⟩ := Interaction.yields_call.1 (Task.completes_attempt.1 hlist')
    obtain ⟨rfl, rfl⟩ := Interaction.yields_done.1 hdone
    cases answer with
    | error error =>
      -- Whatever the error is, a pass that goes on has deleted nothing.
      obtain rfl : c₁ = c := by
        rcases hw _ _ _ _ hcall with hanswer | ⟨_, _, rfl | rfl⟩
        · exact (Prod.mk.inj hanswer).2.symm
        · rfl
        · rfl
      obtain ⟨rfl, rfl⟩ : st' = st ∧ c' = c₁ := by
        dsimp only at hrest₃
        split at hrest₃
        · exact (completes_pure.1 hrest₃).2
        · exact absurd hrest₃ completes_throw
      exact ⟨rfl, .inr ⟨rfl, fun _ => ⟨error, hcall⟩⟩⟩
    | ok os =>
      obtain ⟨rfl, rfl⟩ := answer_list.1 (flaky_ok_iff.1 (hw _ _ _ _ hcall))
      obtain ⟨hst, hgone⟩ := completes_removeLegacyObjects (hrest₃.mono hw)
      exact ⟨hst, .inl hgone⟩

theorem mem_legacyObjects {o : Object k} : o ∈ legacyObjects c k ns server ↔
    (∃ name, c.get? k ns name = some o) ∧
      selects ("app=" ++ server.anyName) o.metadata.labelsOrEmpty = true ∧
      o.metadata.isOwnedBy server.metadata.uid = true := by
  unfold legacyObjects
  rw [List.mem_filter, List.mem_filter, mem_values_objects, and_assoc]

theorem legacyObjects_removeAll (hc : c.Filed) :
    legacyObjects (c.removeAll (legacyObjects c k ns server)) k ns server = [] := by
  have hns : ∀ o ∈ legacyObjects c k ns server, nsOf o = ns := by
    intro o ho
    obtain ⟨⟨name, hget⟩, -⟩ := mem_legacyObjects.1 ho
    exact (hc k ns name o hget).1
  refine List.eq_nil_iff_forall_not_mem.2 fun o ho => ?_
  obtain ⟨⟨name, hget⟩, hbelongs⟩ := mem_legacyObjects.1 ho
  rw [get?_removeAll c _ ns name hns] at hget
  split at hget
  · cases hget
  · next hgone =>
    have hmem : o ∈ legacyObjects c k ns server := mem_legacyObjects.2 ⟨⟨name, hget⟩, hbelongs⟩
    exact hgone (hc.nameOf hget ▸ List.mem_map_of_mem hmem)

theorem shelf_removeLegacy {k' : Kind} (h : Completes flaky P (removeLegacy k) st c u st' c')
    (hns : st.server.metadata.ns = some ns) (hne : k ≠ k') : c'.shelf k' = c.shelf k' := by
  obtain ⟨-, rfl | ⟨rfl, -⟩⟩ := completes_removeLegacy (fun _ _ _ _ h => h) h hns
  · exact shelf_removeAll_of_ne c _ hne
  · rfl

/-- Where only some objects of a kind were taken away, nothing was created. -/
theorem accounts_removeAll (hc : c.Filed) (os : List (Object k)) :
    Accounts ns [k] [] true st c st (c.removeAll os) where
  state := (PassState.saw_nil st).symm
  filed := hc.removeAll os
  keeps k' hk' := keeps_of_shelf (shelf_removeAll_of_ne c os (Ne.symm (by simpa using hk')))
  present := by simp
  recorded _ _ _ o ho := .inl ⟨o, get?_of_removeAll ho⟩

theorem accounts_removeLegacy (h : Completes flaky P (removeLegacy k) st c u st' c')
    (hc : c.Filed) (hns : st.server.metadata.ns = some ns) :
    Accounts ns [k] [] true st c st' c' := by
  obtain ⟨rfl, rfl | ⟨rfl, -⟩⟩ := completes_removeLegacy (fun _ _ _ _ h => h) h hns
  · exact accounts_removeAll hc _
  · exact (Accounts.refl _ hc).mono (by simp)

/-- When no call fails, nothing of the server is left. -/
theorem settled_removeLegacy (h : Completes reliable P (removeLegacy k) st c u st' c')
    (hc : c.Filed) (hns : st.server.metadata.ns = some ns)
    (hserved : c.serves k.apiVersion = true) : legacyObjects c' k ns st.server = [] := by
  obtain ⟨-, rfl | ⟨-, hrefused⟩⟩ := completes_removeLegacy flaky_of_reliable h hns
  · exact legacyObjects_removeAll hc
  · obtain ⟨error, herror⟩ := hrefused hserved
    cases (Prod.mk.inj herror).1

theorem completes_removeLegacyKinds (h : Completes flaky P removeLegacyKinds st c u st' c')
    (hc : c.Filed) (hns : st.server.metadata.ns = some ns) :
    Accounts ns legacyKinds [] true st c st' c' := by
  obtain ⟨_, st₁, c₁, hconfigs, hstreams⟩ := completes_bind.1 h
  have hconfigs' := accounts_removeLegacy hconfigs hc hns
  have hstreams' := accounts_removeLegacy hstreams hconfigs'.filed (hconfigs'.server ▸ hns)
  exact hconfigs'.trans hstreams' (by simp)

theorem settled_removeLegacyKinds (h : Completes reliable P removeLegacyKinds st c u st' c')
    (hc : c.Filed) (hns : st.server.metadata.ns = some ns) : LegacySettled c' ns st.server := by
  obtain ⟨_, st₁, c₁, hconfigs, hstreams⟩ := completes_bind.1 h
  have hconfigs' := hconfigs.mono flaky_of_reliable
  have hstreams' := hstreams.mono flaky_of_reliable
  have hgone₁ := accounts_removeLegacy hconfigs' hc hns
  have hserves₁ : c₁.serves = c.serves :=
    ((writesOnly_removeLegacy (by decide)).completes hconfigs').2.2.serves
  have hserves₂ : c'.serves = c₁.serves :=
    ((writesOnly_removeLegacy (by decide)).completes hstreams').2.2.serves
  intro k hk hserved
  rcases List.mem_cons.1 hk with rfl | hk
  · rw [hserves₂, hserves₁] at hserved
    rw [legacyObjects_of_shelf (shelf_removeLegacy hstreams' (hgone₁.server ▸ hns) (by decide))]
    exact settled_removeLegacy hconfigs hc hns hserved
  · obtain rfl := List.mem_singleton.1 hk
    rw [hserves₂] at hserved
    have hgone := settled_removeLegacy hstreams hgone₁.filed (hgone₁.server ▸ hns) hserved
    rwa [hgone₁.server] at hgone

/-! ## What is looked at -/

theorem quiet_removeLegacy (hns : server.metadata.ns = some ns)
    (h : c.serves k.apiVersion = true → legacyObjects c k ns server = []) :
    Quiet c server [] true (removeLegacy k) () := by
  refine (quiet_call rfl (answer_probe.2 ⟨rfl, rfl⟩)).bind_first ?_
  cases hserved : c.serves k.apiVersion with
  | false => exact quiet_pure ()
  | true =>
    refine quiet_server.bind_first ?_
    refine (quiet_ofExcept (ObjectMeta.requireNs_eq_ok.2 hns)).bind_first ?_
    have hlist : Task.Completes reliable Entry.IsRead
        (Task.call (.list k ns ("app=" ++ server.anyName))).attempt c
        (.ok ((c.objects k ns).values.filter fun o =>
          selects ("app=" ++ server.anyName) o.metadata.labelsOrEmpty)) c :=
      Task.completes_attempt.2 (Task.completes_call.2 ⟨rfl, answer_list.2 ⟨rfl, rfl⟩⟩)
    refine (quiet_liftM hlist).bind_first ?_
    have hnone := h hserved
    unfold legacyObjects at hnone
    dsimp only
    rw [hnone]
    exact quiet_pure ()

theorem quiet_removeLegacyKinds (hns : server.metadata.ns = some ns)
    (h : LegacySettled c ns server) : Quiet c server [] true removeLegacyKinds () :=
  (quiet_removeLegacy hns (h _ (by decide))).bind (quiet_removeLegacy hns (h _ (by decide)))

end PushOperator.Pass
