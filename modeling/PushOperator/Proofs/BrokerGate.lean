import Mathlib.Data.List.Induction
import PushOperator.Proofs.OwnedChanges
import PushOperator.Proofs.Pass.BrokerWaits

/-!
# The gate of the broker holds

Over a server with a message broker a pass does nothing but see to the broker until it has found the
address space and then all addresses ready. This holds of every trace, whatever fails, wherever the
pass is cut short and whatever others do in the meantime (`KeepsGate`). A pass that no call fails of
says what it waits for by when it asks to be run again (`keepsGate_of_run`).
-/

namespace PushOperator

open Child Cluster

variable {k : Kind} {settings : Settings} {ns name host : String} {server : Server}
  {others : Cluster → Cluster → Prop} {c c' : Cluster} {t : Trace} {r : Request}

/-! ## What is written before the gate opens -/

/-- The status of the server itself is written. -/
def Request.IsOwnStatus (ns name : String) : Request → Prop
  | .updateStatus .unifiedPushServer o => nsOf o = ns ∧ nameOf o = name
  | _ => False

/-- The address space is created. -/
def Request.CreatesSpace (ns : String) : Request → Prop
  | .create .addressSpace o => Placed ns Broker.spaceName o
  | _ => False

/-- The user, the credentials or an address of the broker is created. -/
def Request.Furnishes (ns : String) (server : Server) : Request → Prop
  | .create .messagingUser o => Placed ns Broker.userName o
  | .create .secret o => Placed ns (Broker.secretName server) o
  | .create .address o => ∃ entry ∈ Broker.catalogue, Placed ns (Broker.addressName entry.1) o
  | _ => False

/-- What a pass may write at which point of its trace. -/
structure KeepsGate (ns name : String) (server : Server) (t : Trace) : Prop where
  waiting : (∀ host, ¬SpaceSeen ns host t) → ∀ r a, .call r a ∈ t → r.isWrite = true →
    r.IsOwnStatus ns name ∨ r.CreatesSpace ns
  once : ∀ before r a after, t = before ++ .call r a :: after → r.CreatesSpace ns →
    ∀ r' a', .call r' a' ∈ before ++ after → ¬r'.CreatesSpace ns
  opening : (∃ host, SpaceSeen ns host t) → ¬AddressesSeen ns t → ∀ r a, .call r a ∈ t →
    r.isWrite = true → r.IsOwnStatus ns name ∨ r.Furnishes ns server
  passing : ∀ before r a after, t = before ++ .call r a :: after → r.isWrite = true →
    r.IsOwnStatus ns name ∨ r.CreatesSpace ns ∨ r.Furnishes ns server ∨
      (∃ host, SpaceSeen ns host before) ∧ AddressesSeen ns before

/-! ## Traces through the gate -/

/-- Every call of a trace, but for the first one, is let through by the gate. -/
def ThroughGate (ns name : String) (server : Server) (t : Trace) : Prop :=
  ∀ before r a after, t = before ++ .call r a :: after →
    (before = [] ∧ r = .get .unifiedPushServer ns name) ∨
      ∃ live, server.Remains live ∧ Gated live before r

theorem ThroughGate.left {t' : Trace} (h : ThroughGate ns name server (t ++ t')) :
    ThroughGate ns name server t := by
  rintro before r a after rfl
  exact h before r a (after ++ t') (by simp)

theorem gated_run :
    (Pass.run settings server).Grounded (fun t r => Told t → server.spec.useMessageBroker = true →
      ∃ live, server.Remains live ∧ Gated live t r) (fun _ _ => True)
      [.call (.get .unifiedPushServer ns name) (.ok (some server))] := by
  by_cases hbroker : server.spec.useMessageBroker = true
  · have hdefer : Pass.Grounds (fun t r => ∃ live, server.Remains live ∧ Gated live t r) server
        Preliminary (fun _ => Preliminary) Pass.deferToActive :=
      Pass.gated_deferToActive.imp fun t r h => ⟨server, .refl _, h⟩
    have hconverge (live : Server) (hremains : server.Remains live) :
        Pass.Grounds (fun t r => ∃ live, server.Remains live ∧ Gated live t r) live Preliminary
          (fun _ _ => True) (Pass.converge settings) :=
      (Pass.gated_converge (by rwa [hremains.spec])).imp fun t r h => ⟨live, hremains, h⟩
    have hbegin : Preliminary [.call (.get .unifiedPushServer ns name) (.ok (some server))] :=
      Pass.preliminary_get _
    have hrun := Pass.grounded_run Pass.statusBlind_remains
      (fun t o => ⟨server, .refl _, .status o⟩) Pass.preliminary_updateStatus (fun _ _ _ => id)
      hdefer hconverge hbegin
    exact (hrun.imp fun t r h htold _ => h htold).mono fun _ _ _ => trivial
  · have hidle : (Pass.run settings server).Grounded
        (fun t r => server.spec.useMessageBroker = true →
          ∃ live, server.Remains live ∧ Gated live t r)
        (fun _ _ => server.spec.useMessageBroker = true → True)
        [.call (.get .unifiedPushServer ns name) (.ok (some server))] :=
      grounded_of_bad _ _ (fun h _ => h) hbroker
    exact (hidle.mono fun _ _ _ => trivial).imp fun t r h _ => h

/-- What a pass over a server with a broker does goes through the gate. -/
theorem throughGate_of_steps {x : Interaction (Except Error Action)}
    (hothers : ∀ c c', others c c' → Becomes c c') (hc : c.Stamped)
    (hfetches : Fetches ns name server t) (hbroker : server.spec.useMessageBroker = true)
    (h : Steps (amid others) (reconcile settings ns name).run c t x c') :
    ThroughGate ns name server t := by
  rintro before r a after rfl
  obtain ⟨x₁, c₁, x₂, c₂, hbefore, hstep, -⟩ := h.of_append
  cases hstep with
  | call =>
    rcases grounds_of_steps (fun _ => gated_run) (told_of_steps hothers hc hbefore) hbefore with
      ⟨rfl, rfl⟩ | ⟨server', hfetches', hgated⟩
    · exact .inl ⟨rfl, rfl⟩
    · obtain rfl := (hfetches'.append _).unique hfetches
      exact .inr (hgated hbroker)

/-! ## What a trace through the gate shows -/

/-- A creation of the address space is preliminary to nothing. -/
theorem Preliminary.not_mem_create {o : Object k} {a : Except Error (Object k)}
    (h : Preliminary t) : .call (.create k o) a ∉ t := by
  intro hmem
  rcases h _ _ hmem with ⟨_, _, heq⟩ | ⟨_, _, heq⟩ | ⟨_, heq⟩ <;> cases heq

/-- After the creation of the address space a pass does nothing but write its status, and it has not
seen any space. -/
theorem ThroughGate.newSpace {before after : Trace} {o : AddressSpace}
    {a : Except Error AddressSpace} {ns' : String} (hbefore : Preliminary before)
    (h : ThroughGate ns name server
      (before ++ .call (.get .addressSpace ns' Broker.spaceName) (.ok none) ::
        .call (.create .addressSpace o) a :: after)) :
    (∀ r a', .call r a' ∈ after → ∃ o, r = .updateStatus .unifiedPushServer o) ∧
      ∀ ns host, ¬SpaceSeen ns host
        (before ++ .call (.get .addressSpace ns' Broker.spaceName) (.ok none) ::
          .call (.create .addressSpace o) a :: after) := by
  induction after using List.reverseRecOn with
  | nil =>
    refine ⟨by simp, ?_⟩
    rintro ns host ⟨space, hmem, -⟩
    rcases List.mem_append.1 hmem with hmem | hmem
    · rcases hbefore _ _ hmem with ⟨_, _, heq⟩ | ⟨_, _, heq⟩ | ⟨_, heq⟩ <;> cases heq
    · simp at hmem
  | append_singleton after e ih =>
    have htrace : before ++ .call (.get .addressSpace ns' Broker.spaceName) (.ok none) ::
        .call (.create .addressSpace o) a :: (after ++ [e]) =
        (before ++ .call (.get .addressSpace ns' Broker.spaceName) (.ok none) ::
          .call (.create .addressSpace o) a :: after) ++ [e] := by simp
    rw [htrace] at h ⊢
    obtain ⟨hstatuses, hunseen⟩ := ih h.left
    generalize ht : before ++ .call (.get .addressSpace ns' Broker.spaceName) (.ok none) ::
      .call (.create .addressSpace o) a :: after = t at *
    have hmem : .call (.create .addressSpace o) a ∈ t := by simp [← ht]
    have hpreliminary : ¬Preliminary t := fun hpre => hpre.not_mem_create hmem
    -- Whatever else the gate lets through wants the space to have been seen.
    have hlast (r : Request) (a') (he : e = .call r a') :
        ∃ o, r = .updateStatus .unifiedPushServer o := by
      subst he
      rcases h t r a' [] rfl with ⟨rfl, -⟩ | ⟨live, -, hgated⟩
      · cases hmem
      cases hgated with
      | status o => exact ⟨o, rfl⟩
      | others hpre => exact absurd hpre hpreliminary
      | space hpre => exact absurd hpre hpreliminary
      | newSpace _ _ _ hpre heq =>
        rw [heq] at hmem
        rcases List.mem_append.1 hmem with hmem | hmem
        · exact absurd hmem hpre.not_mem_create
        · cases List.mem_singleton.1 hmem
      | credential _ _ hseen => exact absurd hseen (hunseen _ _)
      | address _ harmed => exact absurd harmed.space (hunseen _ _)
      | broker _ _ hseen _ => exact absurd hseen (hunseen _ _)
      | database _ _ hopened _ =>
        obtain ⟨_, _, _, harmed, _⟩ := hopened
        exact absurd harmed.space (hunseen _ _)
      | rest hopened _ =>
        obtain ⟨_, _, _, harmed, _⟩ := hopened
        exact absurd harmed.space (hunseen _ _)
    refine ⟨fun r a' hr => ?_, fun ns host hseen => ?_⟩
    · rcases List.mem_append.1 hr with hr | hr
      · exact hstatuses r a' hr
      · exact hlast r a' (List.mem_singleton.1 hr).symm
    · rcases spaceSeen_concat.1 hseen with hbefore | ⟨space, he, -⟩
      · exact hunseen ns host hbefore
      · obtain ⟨_, heq⟩ := hlast _ _ he
        cases heq

/-- The statuses in a trace are those of the server itself. -/
def WritesOwnStatus (ns name : String) (t : Trace) : Prop :=
  ∀ o a, .call (.updateStatus .unifiedPushServer o) a ∈ t → nsOf o = ns ∧ nameOf o = name

/-- What a write of a trace through the gate is, and what had been seen before it. -/
inductive WritesAt (ns name : String) (server : Server) (before : Trace) (r : Request) : Prop
  | status : r.IsOwnStatus ns name → WritesAt ns name server before r
  | space {o : AddressSpace} {t₀ : Trace} : Preliminary t₀ → Placed ns Broker.spaceName o →
    before = t₀ ++ [.call (.get .addressSpace ns Broker.spaceName) (.ok none)] →
    r = .create .addressSpace o → WritesAt ns name server before r
  | broker {host : String} : SpaceSeen ns host before → r.Furnishes ns server →
    WritesAt ns name server before r
  | rest {host : String} : SpaceSeen ns host before → AddressesSeen ns before →
    ¬r.Writes .addressSpace → WritesAt ns name server before r

theorem BrokerBuilds.furnishes {live : Server} {o : Object k} (h : BrokerBuilds live host t k o)
    (hns : live.metadata.ns = some ns) (hname : live.anyName = server.anyName)
    (reference : OwnerReference) :
    Request.Furnishes ns server (.create k (o.withOwner reference)) := by
  cases h with
  | @user o password ho =>
    have hplaced : Placed ns Broker.userName o := (places_messagingUser password).placed hns ho
    exact hplaced
  | @secret o user password _ _ ho =>
    have hplaced : Placed ns (Broker.secretName live) o :=
      (places_brokerSecret password host).placed hns ho
    rw [Broker.secretName, childName, hname] at hplaced
    exact hplaced
  | @address o entry hentry ho =>
    have hplaced : Placed ns (Broker.addressName entry.1) o :=
      (places_catalogue hentry).placed hns ho
    exact ⟨entry, hentry, hplaced⟩

theorem ThroughGate.writesAt {before after : Trace} {a : Except Error r.Reply}
    (h : ThroughGate ns name server (before ++ .call r a :: after)) (hplace : nsOf server = ns)
    (hstatus : WritesOwnStatus ns name (before ++ .call r a :: after)) (hwrite : r.isWrite = true) :
    WritesAt ns name server before r := by
  rcases h before r a after rfl with ⟨-, rfl⟩ | ⟨live, hremains, hgated⟩
  · cases hwrite
  have hsame {ns' : String} (hns : live.metadata.ns = some ns') : ns' = ns :=
    (nsOf_of_eq_some (hremains.ns ▸ hns)).symm.trans hplace
  cases hgated with
  | status o => exact .status (hstatus o a (by simp))
  | others | space | credential | address => cases hwrite
  | @newSpace ns' o t₀ reference hns ho hpre heq =>
    obtain rfl := hsame hns
    have hplaced : Placed ns' Broker.spaceName o := places_addressSpace.placed hns ho
    exact .space (o := o.withOwner reference) hpre hplaced heq rfl
  | broker reference hns hspace hbuilds =>
    obtain rfl := hsame hns
    exact .broker hspace (hbuilds.furnishes hns hremains.anyName reference)
  | database reference hns hopened hplaced =>
    obtain ⟨ns', host, hns', harmed, haddresses⟩ := hopened
    obtain rfl := hsame hns'
    exact .rest harmed.space haddresses (by simp [Request.Writes])
  | rest hopened hkinds =>
    obtain ⟨ns', host, hns', harmed, haddresses⟩ := hopened
    obtain rfl := hsame hns'
    exact .rest harmed.space haddresses (hkinds _ (by decide))

theorem Request.CreatesSpace.writes (h : r.CreatesSpace ns) : r.Writes .addressSpace := by
  unfold CreatesSpace at h
  split at h
  · rfl
  · exact h.elim

theorem Request.CreatesSpace.not_isOwnStatus (h : r.CreatesSpace ns) :
    ¬r.IsOwnStatus ns name := by
  unfold CreatesSpace at h
  split at h
  · exact id
  · exact h.elim

theorem Request.CreatesSpace.not_furnishes (h : r.CreatesSpace ns) : ¬r.Furnishes ns server := by
  unfold CreatesSpace at h
  split at h
  · exact id
  · exact h.elim

/-- The gate is kept. -/
theorem ThroughGate.keepsGate (h : ThroughGate ns name server t) (hplace : nsOf server = ns)
    (hstatus : WritesOwnStatus ns name t) : KeepsGate ns name server t := by
  have hwrites {before : Trace} {r : Request} {a} {after : Trace}
      (ht : t = before ++ .call r a :: after) (hwrite : r.isWrite = true) :
      WritesAt ns name server before r := by
    subst ht
    exact h.writesAt hplace hstatus hwrite
  have hseen {before : Trace} {e : Entry} {after : Trace} {host : String}
      (ht : t = before ++ e :: after) (hspace : SpaceSeen ns host before) : SpaceSeen ns host t :=
    lasting_spaceSeen before t (ht ▸ List.subset_append_left before _) hspace
  have hspace {before : Trace} {r : Request} {a} {after t₀ : Trace} {o : AddressSpace}
      (ht : t = before ++ .call r a :: after)
      (hpre : Preliminary t₀)
      (hbefore : before = t₀ ++ [.call (.get .addressSpace ns Broker.spaceName) (.ok none)])
      (hr : r = .create .addressSpace o) :
      (∀ r' a', .call r' a' ∈ after → ∃ o, r' = .updateStatus .unifiedPushServer o) ∧
        ∀ ns host, ¬SpaceSeen ns host t := by
    subst hr hbefore ht
    rw [List.append_assoc] at h ⊢
    exact h.newSpace hpre
  refine ⟨?_, ?_, ?_, ?_⟩
  · intro hunseen r a hmem hwrite
    obtain ⟨before, after, ht⟩ := List.append_of_mem hmem
    cases hwrites ht hwrite with
    | status hown => exact .inl hown
    | space _ hplaced _ hr =>
      subst hr
      exact .inr hplaced
    | broker hbefore _ => exact absurd (hseen ht hbefore) (hunseen _)
    | rest hbefore _ _ => exact absurd (hseen ht hbefore) (hunseen _)
  · intro before r a after ht hcreates r' a' hmem hcreates'
    cases hwrites ht hcreates.writes.isWrite with
    | status hown => exact absurd hown hcreates.not_isOwnStatus
    | space hpre _ hbefore hr =>
      obtain ⟨hstatuses, -⟩ := hspace ht hpre hbefore hr
      rcases List.mem_append.1 hmem with hmem | hmem
      · rw [hbefore] at hmem
        rcases List.mem_append.1 hmem with hmem | hmem
        · obtain ⟨_, _, rfl⟩ | ⟨_, _, rfl⟩ | ⟨_, rfl⟩ := hpre _ _ hmem <;> exact hcreates'
        · cases List.mem_singleton.1 hmem
          exact hcreates'
      · obtain ⟨_, rfl⟩ := hstatuses _ _ hmem
        exact hcreates'
    | broker _ hfurnishes => exact hcreates.not_furnishes hfurnishes
    | rest _ _ hwrites => exact hwrites hcreates.writes
  · rintro ⟨host, hsome⟩ hmissing r a hmem hwrite
    obtain ⟨before, after, ht⟩ := List.append_of_mem hmem
    cases hwrites ht hwrite with
    | status hown => exact .inl hown
    | space hpre _ hbefore hr => exact absurd hsome ((hspace ht hpre hbefore hr).2 ns host)
    | broker _ hfurnishes => exact .inr hfurnishes
    | rest _ haddresses _ =>
      refine absurd (lasting_addressesSeen before t ?_ haddresses) hmissing
      exact ht ▸ List.subset_append_left before _
  · intro before r a after ht hwrite
    cases hwrites ht hwrite with
    | status hown => exact .inl hown
    | space _ hplaced _ hr =>
      subst hr
      exact .inr (.inl hplaced)
    | broker _ hfurnishes => exact .inr (.inr (.inl hfurnishes))
    | rest hbefore haddresses _ => exact .inr (.inr (.inr ⟨⟨_, hbefore⟩, haddresses⟩))

/-- The statuses that a pass writes are those of its server. -/
theorem writesOwnStatus_of_steps {x : Interaction (Except Error Action)}
    (hothers : ∀ c c', others c c' → Becomes c c') (hc : c.Keyed)
    (h : Steps (amid others) (reconcile settings ns name).run c t x c') :
    WritesOwnStatus ns name t := by
  intro o a hmem
  obtain ⟨before, after, next, c₁, c₂, rfl, hbefore, -⟩ := h.of_mem hmem
  obtain ⟨live, hfetched, hwarrant⟩ := (warranted_of_steps hbefore).2 rfl
  cases hwarrant with
  | status status => exact hfetched.inPlace (inPlace_of_steps hothers hc hbefore).2

/-! ## What was met is there -/

/-- An object of a certain sort stands in a place. -/
def Cluster.Holds (c : Cluster) (k : Kind) (ns name : String) (p : Object k → Prop) : Prop :=
  ∃ o, c.get? k ns name = some o ∧ p o

theorem Cluster.Keeps.holds {ns name : String} {p : Object k → Prop} (h : Keeps k c c')
    (hc : c.Holds k ns name p) : c'.Holds k ns name p := by
  obtain ⟨o, ho, hp⟩ := hc
  exact ⟨o, h ns name o ho, hp⟩

/-- A pass takes nothing of the broker away and puts nothing in its place. -/
theorem keeps_of_brokerKinds (hk : k ∈ Pass.brokerKinds) (h : Warranted settings ns name t r) :
    Keeps k c (c.answer r).2 := by
  have hkinds : ∀ k ∈ Pass.brokerKinds, k ∉ correctedKinds ∧ k ∉ Pass.specKinds ∧
      k ∉ Pass.deletedKinds ∧ k ≠ .unifiedPushServer := by decide
  obtain ⟨hcorrected, hspec, hdeleted, hserver⟩ := hkinds k hk
  exact keeps_of_warranted h hcorrected hspec hdeleted hserver

/-- What is there of the broker stays there as long as others leave it alone. -/
theorem holds_of_steps {x : Interaction (Except Error Action)} {ns' name' : String}
    {p : Object k → Prop} (hk : k ∈ Pass.brokerKinds)
    (hothers : ∀ c c', others c c' → c.Holds k ns' name' p → c'.Holds k ns' name' p)
    (h : Steps (amid others) (reconcile settings ns name).run c t x c')
    (hc : c.Holds k ns' name' p) : c'.Holds k ns' name' p := by
  apply preserved_of_steps h hothers _ hc
  intro t₁ r next c₁ c₂ _ hsteps _ hthere
  exact (keeps_of_brokerKinds hk (warranted_of_steps hsteps)).holds hthere

/-- What a pass has met of the broker is there as long as others leave it alone. -/
theorem holds_of_met {x : Interaction (Except Error Action)} {ns' name' : String}
    {p : Object k → Prop} (hk : k ∈ Pass.brokerKinds)
    (hothers : ∀ c c', others c c' → c.Holds k ns' name' p → c'.Holds k ns' name' p)
    (h : Steps (amid others) (reconcile settings ns name).run c t x c')
    (hmet : Pass.Met k ns' name' p t) : c'.Holds k ns' name' p := by
  induction h with
  | refl => rcases hmet with ⟨_, _, hmem⟩ | ⟨_, _, _, _, hmem⟩ <;> cases hmem
  | @step x₁ x₂ c₁ c₂ t e hsteps hlast ih =>
    -- It was met before the last step, or by it.
    have hkept (hbefore : Pass.Met k ns' name' p t) : c₂.Holds k ns' name' p := by
      have hthere := ih hbefore
      cases hlast with
      | emit | secret => exact hthere
      | call hcall =>
        refine preserved_of_amid hcall (fun c₁ hbetween => hothers _ c₁ hbetween hthere) ?_
        exact fun c₁ _ => (keeps_of_brokerKinds hk (warranted_of_steps hsteps)).holds
    rcases hmet with ⟨o, hp, hmem⟩ | ⟨o, created, hp, hplaced, hmem⟩
    · rcases List.mem_append.1 hmem with hmem | hmem
      · exact hkept (.found o hp hmem)
      · obtain rfl := List.mem_singleton.1 hmem
        cases hlast with
        | call hcall =>
          obtain ⟨c₃, -, hflaky⟩ := hcall
          obtain ⟨hget, rfl⟩ := answer_get.1 (flaky_ok_iff.1 hflaky)
          exact ⟨o, hget.symm, hp⟩
    · rcases List.mem_append.1 hmem with hmem | hmem
      · exact hkept (.created o created hp hplaced hmem)
      · obtain rfl := List.mem_singleton.1 hmem
        cases hlast with
        | call hcall =>
          obtain ⟨c₃, -, hflaky⟩ := hcall
          obtain ⟨-, rfl, rfl⟩ := answer_create.1 (flaky_ok_iff.1 hflaky)
          rw [hplaced.nsOf, hplaced.nameOf]
          exact ⟨_, get?_store_self c₃ ns' name' o, hp⟩

/-- Everything that the broker of a server needs is there. -/
structure Cluster.BrokerThere (c : Cluster) (ns : String) (server : Server) : Prop where
  user : ∃ user, c.get? .messagingUser ns Broker.userName = some user
  secret : ∃ secret, c.get? .secret ns (Broker.secretName server) = some secret
  addresses : ∀ entry ∈ Broker.catalogue, ∃ address,
    c.get? .address ns (Broker.addressName entry.1) = some address

/-- What others do who leave every place of the broker's kinds taken. -/
def Cluster.LeavesBroker (c c' : Cluster) : Prop :=
  ∀ k ∈ Pass.brokerKinds, ∀ ns name o, c.get? k ns name = some o → ∃ o, c'.get? k ns name = some o

theorem Provided.brokerThere {x : Interaction (Except Error Action)}
    (hothers : ∀ c c', others c c' → LeavesBroker c c')
    (h : Steps (amid others) (reconcile settings ns name).run c t x c')
    (hprovided : Provided ns server t) : c'.BrokerThere ns server := by
  have hthere {k : Kind} {name' : String} (hk : k ∈ Pass.brokerKinds)
      (htaken : Pass.Taken k ns name' t) : ∃ o, c'.get? k ns name' = some o := by
    have hholds : c'.Holds k ns name' fun _ => True := by
      refine holds_of_met hk ?_ h htaken
      rintro c c' hbetween ⟨o, ho, -⟩
      obtain ⟨o', ho'⟩ := hothers c c' hbetween k hk ns name' o ho
      exact ⟨o', ho', trivial⟩
    obtain ⟨o, ho, -⟩ := hholds
    exact ⟨o, ho⟩
  exact ⟨hthere (by decide) hprovided.user, hthere (by decide) hprovided.secret,
    fun entry hentry => hthere (by decide) (hprovided.addresses entry hentry)⟩

/-! ## Passes -/

/-- How a pass ends that no call fails of. -/
theorem brokerEnds_of_run {result : Except Error Action}
    (hothers : ∀ c c', others c c' → Becomes c c') (hc : c.Stamped)
    (hfetches : Fetches ns name server t) (hbroker : server.spec.useMessageBroker = true)
    (hserver : Placed ns name server) (huid : server.metadata.uid ≠ none)
    (h : Run (amid others) (reconcile settings ns name).run c t (some result) c')
    (hfails : ∀ r error, .call r (.error error) ∉ t) :
    ∃ action, result = .ok action ∧ BrokerEnds server ns t action := by
  obtain ⟨x, hsteps, -⟩ := Steps.of_run h
  have hsmooth : Smooth t := smooth_of_steps hothers hc hsteps hfails
  cases hwatched : settings.watches ns with
  | false =>
    rw [run_reconcile_of_unwatched hwatched] at h
    obtain ⟨-, rfl, -⟩ := run_done_some.1 h
    cases hfetches
  | true =>
    rw [run_reconcile hwatched] at h
    obtain ⟨answer, c₁, t', -, hrest, rfl⟩ := run_call_some.1 h
    cases hfetches
    obtain ⟨action, c₂, t₁, t₂, hpass, hdone, rfl⟩ := run_bind_iff.1 hrest
    obtain ⟨rfl, rfl, rfl⟩ := run_done_some.1 hdone
    obtain ⟨y, hpassSteps, hend⟩ := Steps.of_run hpass
    obtain rfl := hend action rfl
    have hfirst : Preliminary [.call (.get .unifiedPushServer ns name) (.ok (some server))] :=
      Pass.preliminary_get _
    have hled := (Pass.leads_run hserver huid hbroker hfirst).steps hpassSteps
    rw [List.append_nil] at hsmooth ⊢
    exact ⟨action, rfl, (hled hsmooth).2⟩

/-- A pass over a server with a message broker keeps the gate. When no call fails of a pass that no
other server turns away, it asks for ten seconds if it has not found the address space ready. If it
has, but has not found all addresses ready, it asks for five seconds, as long as it can read the
password of a user that was there; everything that the broker needs has then been made sure of, and
it is there unless others have taken it away. -/
theorem keepsGate_of_run {o : Option (Except Error Action)}
    (hothers : ∀ c c', others c c' → Becomes c c') (hc : c.Stamped)
    (hfetches : Fetches ns name server t) (hbroker : server.spec.useMessageBroker = true)
    (h : Run (amid others) (reconcile settings ns name).run c t o c') :
    KeepsGate ns name server t ∧
    ∀ result, o = some result → (∀ r error, .call r (.error error) ∉ t) →
      Placed ns name server → server.metadata.uid ≠ none → ¬TurnedAway server t →
        ((∀ host, ¬SpaceSeen ns host t) → result = .ok (.requeue 10)) ∧
        ((∃ host, SpaceSeen ns host t) → ¬AddressesSeen ns t → ¬UserUnreadable ns t →
          result = .ok (.requeue 5) ∧ Provided ns server t ∧
            ((∀ c c', others c c' → LeavesBroker c c') → c'.BrokerThere ns server)) := by
  obtain ⟨x, hsteps, -⟩ := Steps.of_run h
  have hgate := throughGate_of_steps hothers hc hfetches hbroker hsteps
  have hplace : nsOf server = ns :=
    ((inPlace_of_steps hothers hc.keyed hsteps).2 _ (List.mem_of_head? hfetches)).1
  refine ⟨hgate.keepsGate hplace (writesOwnStatus_of_steps hothers hc.keyed hsteps), ?_⟩
  rintro result rfl hfails hserver huid haway
  obtain ⟨action, rfl, hends⟩ :=
    brokerEnds_of_run hothers hc hfetches hbroker hserver huid h hfails
  have hopens (hopened : Opened server t) : (∃ host, SpaceSeen ns host t) ∧ AddressesSeen ns t := by
    obtain ⟨ns', host, hns, harmed, haddresses⟩ := hopened
    obtain rfl := Option.some.inj (hserver.1.symm.trans hns)
    exact ⟨⟨host, harmed.space⟩, haddresses⟩
  refine ⟨fun hunseen => ?_, fun hseen hmissing hreadable => ?_⟩
  · cases hends with
    | turnedAway hactive => exact absurd hactive haway
    | opened hopened =>
      obtain ⟨⟨host, hspace⟩, -⟩ := hopens hopened
      exact absurd hspace (hunseen host)
    | unreadable hspace => exact absurd hspace (hunseen _)
    | space => rfl
    | addresses hspace => exact absurd hspace (hunseen _)
  · cases hends with
    | turnedAway hactive => exact absurd hactive haway
    | opened hopened => exact absurd (hopens hopened).2 hmissing
    | unreadable _ hunreadable => exact absurd hunreadable hreadable
    | space hunseen =>
      obtain ⟨host, hspace⟩ := hseen
      exact absurd hspace (hunseen host)
    | addresses _ hprovided =>
      exact ⟨rfl, hprovided, fun hleaves => hprovided.brokerThere hleaves hsteps⟩

/-! ## Passes to try -/

/-- A new server with a message broker. -/
def brokerServer : Server where
  metadata := (sampleServer "a").metadata
  spec := { useMessageBroker := true }
  status := none

/-- A server whose broker has yet to be set up. -/
def brokerCluster : Cluster := (Cluster.empty.store "push" "a" brokerServer).2

/-- An address space that is ready. -/
def readySpace : AddressSpace where
  metadata := { name := some Broker.spaceName, ns := some "push" }
  spec := { type := "brokered", plan := "brokered-single-broker" }
  status := some {
    isReady := true
    endpointStatuses := [{ name := Broker.messagingEndpoint, serviceHost := some "messaging" }] }

/-- A user with a password that is short to write down. -/
def sampleUser (password : String) : MessagingUser where
  metadata := { name := some Broker.userName, ns := some "push" }
  spec := {
    username := Broker.username
    authentication := { type := "password", password := some (.ofText password) } }
  status := ()

/-- The same cluster when the address space has become ready and the user is there. -/
def spaceCluster : Cluster :=
  ((brokerCluster.store "push" Broker.spaceName readySpace).2.store "push" Broker.userName
    (sampleUser "secret")).2

/-- What is seen of a pass when nothing goes wrong. -/
def sampleTrace (c : Cluster) : Trace :=
  (reconcile {} "push" "a").run.trace Rehearsal.handler { cluster := c }

/-- Nothing is refused, no other server is active, users are found with their passwords, and no
addresses are. -/
def Entry.isPlain (server : Server) : Entry → Bool
  | .call (.get .messagingUser _ _) (.ok (some user)) => (MessagingUser.password? user).isSome
  | .call (.get .address _ _) (.ok (some _)) => false
  | .call (.list .unifiedPushServer _ _) (.ok others) => !others.any (Pass.isOtherActive server)
  | .call _ (.error _) => false
  | _ => true

theorem Entry.isPlain_error (r : Request) (error : Error) :
    Entry.isPlain server (.call r (.error error)) = false := by
  cases r with
  | get k | list k => cases k <;> rfl
  | create | update | updateStatus | delete | probe => rfl

/-- The host of an address space that is found ready. -/
def Entry.host? (ns : String) : Entry → Option String
  | .call (.get .addressSpace ns' name) (.ok (some space)) =>
    if ns' = ns ∧ name = Broker.spaceName ∧ AddressSpace.isReady space = true then
      AddressSpace.endpointHost? space Broker.messagingEndpoint
    else none
  | _ => none

theorem spaceSeen_iff : SpaceSeen ns host t ↔ host ∈ t.filterMap (Entry.host? ns) := by
  rw [List.mem_filterMap]
  constructor
  · rintro ⟨space, hmem, hready, hhost⟩
    refine ⟨_, hmem, ?_⟩
    rw [Entry.host?, if_pos ⟨rfl, rfl, hready⟩, hhost]
  · rintro ⟨e, hmem, hhost⟩
    unfold Entry.host? at hhost
    split at hhost
    · split at hhost
      · next hplace =>
        obtain ⟨rfl, rfl, hready⟩ := hplace
        exact ⟨_, hmem, hready, hhost⟩
      · cases hhost
    · cases hhost

/-- What is needed of a plain trace. -/
theorem of_isPlain (ns : String) (h : t.all (Entry.isPlain server) = true) :
    (∀ r error, .call r (.error error) ∉ t) ∧ ¬TurnedAway server t ∧ ¬AddressesSeen ns t ∧
      ¬UserUnreadable ns t := by
  have hplain := List.all_eq_true.1 h
  refine ⟨fun r error hmem => ?_, ?_, fun haddresses => ?_, ?_⟩
  · have he := hplain _ hmem
    rw [Entry.isPlain_error] at he
    cases he
  · rintro ⟨ns', others, other, hmem, hother, hactive⟩
    have he : (!others.any (Pass.isOtherActive server)) = true := hplain _ hmem
    rw [List.any_eq_true.2 ⟨other, hother, hactive⟩] at he
    cases he
  · obtain ⟨live, hmem, -⟩ := haddresses Broker.catalogue[0] (List.getElem_mem _)
    cases hplain _ hmem
  · rintro ⟨user, hmem, hunreadable⟩
    have he : (MessagingUser.password? user).isSome = true := hplain _ hmem
    rw [hunreadable] at he
    cases he

/-- A pass over a server whose broker has yet to be set up, and one when its space has become ready.
-/
theorem keepsGate_of_run_brokerCluster : ∃ c₁ c₂,
    Run (amid Eq) (reconcile {} "push" "a").run brokerCluster (sampleTrace brokerCluster)
      (some (.ok (.requeue 10))) c₁ ∧
    KeepsGate "push" "a" (stamped 1 brokerServer) (sampleTrace brokerCluster) ∧
    Run (amid Eq) (reconcile {} "push" "a").run spaceCluster (sampleTrace spaceCluster)
      (some (.ok (.requeue 5))) c₂ ∧
    KeepsGate "push" "a" (stamped 1 brokerServer) (sampleTrace spaceCluster) ∧
    c₂.BrokerThere "push" (stamped 1 brokerServer) := by
  have hrun (c : Cluster) : Run (amid Eq) (reconcile {} "push" "a").run c (sampleTrace c)
      (some (Rehearsal.run (reconcile {} "push" "a") { cluster := c }).1)
      (Rehearsal.run (reconcile {} "push" "a") { cluster := c }).2.cluster :=
    (Rehearsal.isRun_of_unplanned (reconcile {} "push" "a") (s := { cluster := c }) rfl rfl).mono
      (amid_of_reliable fun _ => rfl)
  have hothers (c c' : Cluster) (h : c = c') : Becomes c c' := h ▸ .refl
  have hstamped : brokerCluster.Stamped := stamped_empty.store brokerServer
  have hplain₁ :
      (sampleTrace brokerCluster).all (Entry.isPlain (stamped 1 brokerServer)) = true := by
    decide +kernel
  have hplain₂ :
      (sampleTrace spaceCluster).all (Entry.isPlain (stamped 1 brokerServer)) = true := by
    decide +kernel
  have hhosts₁ : (sampleTrace brokerCluster).filterMap (Entry.host? "push") = [] := by
    decide +kernel
  -- The host is seen well before the addresses are looked up.
  have hhosts₂ : ((sampleTrace spaceCluster).take 9).filterMap (Entry.host? "push") =
      ["messaging"] := by
    decide +kernel
  have hspace : SpaceSeen "push" "messaging" (sampleTrace spaceCluster) :=
    lasting_spaceSeen _ _ (List.take_subset 9 _) (spaceSeen_iff.2 (by simp [hhosts₂]))
  obtain ⟨hfails₁, haway₁, -, -⟩ := of_isPlain "push" hplain₁
  obtain ⟨hfails₂, haway₂, hmissing, hreadable⟩ := of_isPlain "push" hplain₂
  have hfetches₁ : Fetches "push" "a" (stamped 1 brokerServer) (sampleTrace brokerCluster) := rfl
  have hfetches₂ : Fetches "push" "a" (stamped 1 brokerServer) (sampleTrace spaceCluster) := rfl
  obtain ⟨hkeeps₁, hends₁⟩ :=
    keepsGate_of_run hothers hstamped hfetches₁ rfl (hrun brokerCluster)
  obtain ⟨hkeeps₂, hends₂⟩ :=
    keepsGate_of_run hothers ((hstamped.store readySpace).store (sampleUser "secret")) hfetches₂
      rfl (hrun spaceCluster)
  obtain ⟨hwaits, -⟩ := hends₁ _ rfl hfails₁ ⟨rfl, rfl⟩ (by decide) haway₁
  obtain ⟨-, hwaits'⟩ := hends₂ _ rfl hfails₂ ⟨rfl, rfl⟩ (by decide) haway₂
  have hten := hwaits fun host hseen => by simpa [hhosts₁] using spaceSeen_iff.1 hseen
  obtain ⟨hfive, -, hthere⟩ := hwaits' ⟨"messaging", hspace⟩ hmissing hreadable
  refine ⟨_, _, hten ▸ hrun brokerCluster, hkeeps₁, hfive ▸ hrun spaceCluster, hkeeps₂, ?_⟩
  exact hthere fun c c' h => h ▸ fun _ _ _ _ o ho => ⟨o, ho⟩

end PushOperator
