import PushOperator.Pass.Broker
import PushOperator.Proofs.Child.Wanted
import PushOperator.Proofs.Pass.Ensure

/-!
# The broker step completes

A broker step that completes has found the address space ready with its messaging host, a user with
a password, and every address ready. On what it leaves behind it is quiet.
-/

namespace PushOperator.Pass

open Child Cluster

variable {P : Entry → Prop} {c c' : Cluster} {ns : String} {server : Server} {st st' : PassState}

/-- The kinds that the broker step writes. -/
def brokerKinds : List Kind := [.addressSpace, .messagingUser, .secret, .address]

theorem kind_of_broker {child : Kind × String} (h : child ∈ Broker.wanted server) :
    child.1 ∈ brokerKinds := by
  unfold Broker.wanted at h
  split at h
  · simp only [List.mem_append, List.mem_cons, List.mem_map, List.not_mem_nil, or_false] at h
    rcases h with (rfl | rfl | rfl) | ⟨entry, -, rfl⟩ <;> simp [brokerKinds]
  · cases h

/-- What the broker step leaves behind. -/
structure BrokerSettled (c : Cluster) (ns : String) (server : Server) : Prop where
  space : ∃ space, c.get? .addressSpace ns Broker.spaceName = some space ∧
    AddressSpace.isReady space = true ∧
    ∃ host, AddressSpace.endpointHost? space Broker.messagingEndpoint = some host
  user : ∃ user, c.get? .messagingUser ns Broker.userName = some user ∧
    ∃ password, MessagingUser.password? user = some password
  secret : ∃ secret, c.get? .secret ns (Broker.secretName server) = some secret
  addresses : ∀ entry ∈ Broker.catalogue, ∃ address,
    c.get? .address ns (Broker.addressName entry.1) = some address ∧ Address.isReady address = true

theorem BrokerSettled.mono (h : BrokerSettled c ns server)
    (hkeeps : ∀ k ∈ brokerKinds, Keeps k c c') : BrokerSettled c' ns server where
  space := by
    obtain ⟨space, hspace, hready⟩ := h.space
    exact ⟨space, hkeeps _ (by decide) _ _ _ hspace, hready⟩
  user := by
    obtain ⟨user, huser, hpassword⟩ := h.user
    exact ⟨user, hkeeps _ (by decide) _ _ _ huser, hpassword⟩
  secret := (hkeeps _ (by decide)).exists_get? h.secret
  addresses := by
    intro entry hentry
    obtain ⟨address, haddress, hready⟩ := h.addresses entry hentry
    exact ⟨address, hkeeps _ (by decide) _ _ _ haddress, hready⟩

/-! ## What is written -/

theorem writesOnly_reconcileBroker : WritesOnly brokerKinds reconcileBroker := by
  refine writesOnly_server.bind fun server => ?_
  split
  · exact writesOnly_pure
  · refine (writesOnly_ensure (by decide) fun server => Task.obeys_build).bind fun space => ?_
    split
    · exact writesOnly_stop (by decide)
    · next host _ =>
      refine (writesOnly_ensure (by decide) fun server => ?_).bind fun user => ?_
      · exact Task.obeys_bind Task.obeys_secret fun password _ => Task.obeys_build
      split
      · exact writesOnly_fail
      · next password _ =>
        refine writesOnly_server.bind fun server => ?_
        refine (writesOnly_ensure (by decide) fun server => Task.obeys_build).bind fun _ => ?_
        refine (writesOnly_mapM fun entry _ => ?_).bind fun ready => ?_
        · refine (writesOnly_ensure (by decide) fun server => Task.obeys_build).bind fun _ => ?_
          exact writesOnly_pure
        split
        · exact writesOnly_stop (by decide)
        · exact writesOnly_pure

/-! ## What is left behind -/

theorem messagingHost?_eq_some {space : Ensured .addressSpace} {host : String} :
    messagingHost? space = some host ↔ ∃ live, space = .found live ∧
      AddressSpace.isReady live = true ∧
      AddressSpace.endpointHost? live Broker.messagingEndpoint = some host := by
  cases space with
  | created live => simp [messagingHost?, Ensured.observed]
  | found live => simp [messagingHost?, Ensured.observed]

/-- An address that the step calls ready is there and ready. -/
theorem completes_ensureAddress {address : String} {build : Server → Except Error Address}
    {ready : Bool} (h : Completes flaky P (ensureAddress address build) st c ready st' c')
    (hc : c.Filed) (hns : st.server.metadata.ns = some ns)
    (hmem : (address, build) ∈ Broker.catalogue) :
    Accounts ns [] [(.address, Broker.addressName address)] true st c st' c' ∧ (ready = true →
      ∃ live, c'.get? .address ns (Broker.addressName address) = some live ∧
        Address.isReady live = true) := by
  obtain ⟨ensured, st₁, c₁, hensure, hend⟩ := completes_bind.1 h
  obtain ⟨rfl, rfl, rfl⟩ := completes_pure.1 hend
  obtain ⟨haddress, -, hthere⟩ :=
    hensure.ensure_exists hc hns (Task.makes_of_places (places_catalogue hmem) rfl hns)
  refine ⟨haddress, fun hready => ?_⟩
  cases ensured with
  | found live => exact ⟨live, hthere, hready⟩
  | created live => cases hready

/-- When the step calls some addresses ready, all of them are there and ready. -/
theorem completes_addresses {l : List (String × (Server → Except Error Address))}
    {ready : List Bool}
    (h : Completes flaky P (l.mapM fun (address, build) => ensureAddress address build) st c ready
      st' c')
    (hc : c.Filed) (hns : st.server.metadata.ns = some ns)
    (hmem : ∀ entry ∈ l, entry ∈ Broker.catalogue) :
    Accounts ns [] (l.map fun entry => (.address, Broker.addressName entry.1)) true st c st' c' ∧
      (ready.all id = true → ∀ entry ∈ l, ∃ live,
        c'.get? .address ns (Broker.addressName entry.1) = some live ∧
          Address.isReady live = true) := by
  induction l generalizing st c ready with
  | nil =>
    obtain ⟨rfl, rfl, rfl⟩ := completes_pure.1 h
    exact ⟨.refl _ hc, by simp⟩
  | cons entry l ih =>
    rw [List.mapM_cons] at h
    obtain ⟨first, st₁, c₁, hfirst, hrest⟩ := completes_bind.1 h
    obtain ⟨others, st₂, c₂, hothers, hend⟩ := completes_bind.1 hrest
    obtain ⟨rfl, rfl, rfl⟩ := completes_pure.1 hend
    obtain ⟨hfirst', hlive⟩ :=
      completes_ensureAddress hfirst hc hns (hmem entry List.mem_cons_self)
    obtain ⟨hothers', hall⟩ := ih hothers hfirst'.filed (hfirst'.server ▸ hns) fun e he =>
      hmem e (List.mem_cons_of_mem entry he)
    refine ⟨hfirst'.trans hothers' (by simp), fun hready => ?_⟩
    obtain ⟨hready₁, hready₂⟩ : first = true ∧ others.all id = true := by
      simpa using hready
    rw [List.forall_mem_cons]
    obtain ⟨live, hget, hlive⟩ := hlive hready₁
    exact ⟨⟨live, hothers'.get? (by simp) hget, hlive⟩, hall hready₂⟩

theorem completes_reconcileBroker {u : Unit} (h : Completes flaky P reconcileBroker st c u st' c')
    (hc : c.Filed) (hns : st.server.metadata.ns = some ns) :
    Accounts ns [] (Broker.wanted st.server) true st c st' c' ∧
      (st.server.spec.useMessageBroker = true → BrokerSettled c' ns st.server) := by
  have hrest := completes_server_bind.1 h
  unfold Broker.wanted
  split at hrest
  · next hoff =>
    obtain ⟨-, rfl, rfl⟩ := completes_pure.1 hrest
    rw [if_neg (by simpa using hoff)]
    exact ⟨.refl _ hc, fun hon => by simp [hon] at hoff⟩
  · next hon =>
    rw [if_pos (by simpa using hon)]
    obtain ⟨space, st₁, c₁, hensure₁, hrest₁⟩ := completes_bind.1 hrest
    obtain ⟨hspace, -, hspaceThere⟩ := hensure₁.ensure_exists hc hns
      (Task.makes_of_places places_addressSpace rfl hns)
    have hns₁ : st₁.server.metadata.ns = some ns := hspace.server ▸ hns
    split at hrest₁
    · exact absurd hrest₁ completes_stop
    · next host hhost =>
      obtain ⟨live, rfl, hready, hlive⟩ := messagingHost?_eq_some.1 hhost
      obtain ⟨user, st₂, c₂, hensure₂, hrest₂⟩ := completes_bind.1 hrest₁
      obtain ⟨huser, -, huserThere⟩ := hensure₂.ensure_exists hspace.filed hns₁
        (Task.makes_secret fun text => Task.makes_of_places (places_messagingUser text) rfl hns₁)
      have hserver₂ : st₂.server = st.server := huser.server.trans hspace.server
      split at hrest₂
      · exact absurd hrest₂ completes_throw
      · next password hpassword =>
        have hrest₃ := completes_server_bind.1 hrest₂
        rw [hserver₂] at hrest₃
        obtain ⟨secret, st₃, c₃, hensure₃, hrest₄⟩ := completes_bind.1 hrest₃
        obtain ⟨hsecret, -, hsecretThere⟩ := hensure₃.ensure_exists huser.filed (hserver₂ ▸ hns)
          (Task.makes_of_places (places_brokerSecret password host) hserver₂ hns)
        obtain ⟨ready, st₄, c₄, hall, hend⟩ := completes_bind.1 hrest₄
        obtain ⟨haddresses, haddressesReady⟩ := completes_addresses hall hsecret.filed
          (hsecret.server ▸ hserver₂ ▸ hns) fun _ he => he
        split at hend
        · exact absurd hend completes_stop
        · next hallReady =>
          obtain ⟨-, rfl, rfl⟩ := completes_pure.1 hend
          have hafter₁ := hsecret.trans haddresses (by simp)
          have hafter := huser.trans hafter₁ (by simp)
          refine ⟨by simpa using hspace.trans hafter (by simp), fun _ => ⟨?_, ?_, ?_, ?_⟩⟩
          · exact ⟨live, hafter.get? (by simp) hspaceThere, hready, host, hlive⟩
          · exact ⟨_, hafter₁.get? (by simp) huserThere, password, hpassword⟩
          · exact ⟨_, haddresses.get? (by simp) hsecretThere⟩
          · exact haddressesReady (by simpa using hallReady)

/-! ## What is looked at -/

theorem quiet_addresses (hc : c.Filed) (hns : server.metadata.ns = some ns)
    {l : List (String × (Server → Except Error Address))}
    (h : ∀ entry ∈ l, ∃ live, c.get? .address ns (Broker.addressName entry.1) = some live ∧
      Address.isReady live = true) :
    ∃ ready, ready.all id = true ∧
      Quiet c server (l.map fun entry => (.address, Broker.addressName entry.1)) true
        (l.mapM fun (address, build) => ensureAddress address build) ready := by
  induction l with
  | nil => exact ⟨[], rfl, quiet_pure []⟩
  | cons entry l ih =>
    obtain ⟨⟨live, hlive, hready⟩, hothers⟩ := List.forall_mem_cons.1 h
    obtain ⟨others, hall, hquiet⟩ := ih hothers
    have hfirst : Quiet c server [(.address, Broker.addressName entry.1)] true
        (ensureAddress entry.1 entry.2) true := by
      refine (quiet_ensure hc hns hlive).bind ?_
      rw [Ensured.observed, Option.any_some, hready]
      exact quiet_pure true
    refine ⟨true :: others, by simpa using hall, ?_⟩
    rw [List.mapM_cons, List.map_cons]
    exact hfirst.bind (hquiet.bind_last (quiet_pure (true :: others)))

theorem quiet_reconcileBroker (hc : c.Filed) (hns : server.metadata.ns = some ns)
    (h : server.spec.useMessageBroker = true → BrokerSettled c ns server) :
    Quiet c server (Broker.wanted server) true reconcileBroker () := by
  refine quiet_server.bind_first ?_
  unfold Broker.wanted
  cases hon : server.spec.useMessageBroker with
  | false => exact quiet_pure ()
  | true =>
    obtain ⟨space, hspace, hready, host, hhost⟩ := (h hon).space
    obtain ⟨user, huser, password, hpassword⟩ := (h hon).user
    obtain ⟨secret, hsecret⟩ := (h hon).secret
    obtain ⟨ready, hall, haddresses⟩ := quiet_addresses hc hns (h hon).addresses
    refine (quiet_ensure hc hns hspace).bind ?_
    rw [messagingHost?_eq_some.2 ⟨space, rfl, hready, hhost⟩]
    refine (quiet_ensure hc hns huser).bind ?_
    rw [Ensured.object, hpassword]
    refine quiet_server.bind_first ((quiet_ensure hc hns hsecret).bind ?_)
    refine haddresses.bind_last ?_
    rw [hall]
    exact quiet_pure ()

end PushOperator.Pass
