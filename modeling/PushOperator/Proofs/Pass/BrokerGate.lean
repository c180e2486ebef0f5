import PushOperator.Proofs.Pass.Converge
import PushOperator.Proofs.Pass.Grounds

/-!
# The gate of the broker

What a pass over a server with a message broker may ask for depends on how far it has got with the
broker. It looks for the address space first, and creates it when there is none. Only when it has
found the space ready does it go on to the user, the credentials and the addresses, and only when it
has found all addresses ready to anything else. `Gated` says so of one request after a trace, and
`Pass.gated_converge` of all that the steps ask for.
-/

namespace PushOperator

open Child Cluster

variable {settings : Settings} {ns name host : String} {server : Server} {t t' : Trace}
  {r : Request}

/-! ## What was seen of the broker -/

/-- Only servers have been asked for, and nothing but statuses has been written. -/
def Preliminary (t : Trace) : Prop :=
  ∀ r a, .call r a ∈ t → (∃ ns name, r = .get .unifiedPushServer ns name) ∨
    (∃ ns selector, r = .list .unifiedPushServer ns selector) ∨
    ∃ o, r = .updateStatus .unifiedPushServer o

/-- The address space was found ready, with the host of its messaging endpoint. -/
def SpaceSeen (ns host : String) (t : Trace) : Prop :=
  ∃ space, .call (.get .addressSpace ns Broker.spaceName) (.ok (some space)) ∈ t ∧
    AddressSpace.isReady space = true ∧
    AddressSpace.endpointHost? space Broker.messagingEndpoint = some host

/-- Some address was found ready. -/
def AddressSeen (ns address : String) (t : Trace) : Prop :=
  ∃ live, .call (.get .address ns (Broker.addressName address)) (.ok (some live)) ∈ t ∧
    Address.isReady live = true

/-- All addresses of the catalogue were found ready. -/
def AddressesSeen (ns : String) (t : Trace) : Prop :=
  ∀ entry ∈ Broker.catalogue, AddressSeen ns entry.1 t

theorem lasting_spaceSeen : Lasting (SpaceSeen ns host) := by
  rintro t t' ht ⟨space, hspace, hready⟩
  exact ⟨space, ht hspace, hready⟩

theorem lasting_addressSeen {address : String} : Lasting (AddressSeen ns address) := by
  rintro t t' ht ⟨live, hlive, hready⟩
  exact ⟨live, ht hlive, hready⟩

theorem lasting_addressesSeen : Lasting (AddressesSeen ns) :=
  fun t t' ht h entry hentry => lasting_addressSeen t t' ht (h entry hentry)

/-! ## What is let through -/

/-- The space was found ready, and the credentials of the broker are there. -/
structure Armed (server : Server) (ns host : String) (t : Trace) : Prop where
  space : SpaceSeen ns host t
  user : Pass.Taken .messagingUser ns Broker.userName t
  secret : Pass.Taken .secret ns (Broker.secretName server) t

/-- The gate is open. -/
def Opened (server : Server) (t : Trace) : Prop :=
  ∃ ns host, server.metadata.ns = some ns ∧ Armed server ns host t ∧ AddressesSeen ns t

theorem lasting_armed : Lasting (Armed server ns host) := fun t t' ht h =>
  ⟨lasting_spaceSeen t t' ht h.space, Pass.lasting_taken t t' ht h.user,
    Pass.lasting_taken t t' ht h.secret⟩

theorem lasting_opened : Lasting (Opened server) := by
  rintro t t' ht ⟨ns, host, hns, harmed, haddresses⟩
  exact ⟨ns, host, hns, lasting_armed t t' ht harmed, lasting_addressesSeen t t' ht haddresses⟩

/-- The objects of the broker that come after the address space. -/
inductive BrokerBuilds (server : Server) (host : String) (t : Trace) :
    (k : Kind) → Object k → Prop
  | user {user : MessagingUser} (password : String) :
    Broker.messagingUser server password = .ok user →
    BrokerBuilds server host t .messagingUser user
  | secret {secret : Secret} (user : Ensured .messagingUser) (password : String) :
    Pass.Ensures server Broker.userName
      (fun o => ∃ password, Broker.messagingUser server password = .ok o) t user →
    MessagingUser.password? user.object = some password →
    Broker.secret server password host = .ok secret →
    BrokerBuilds server host t .secret secret
  | address {address : Address} (entry : String × (Server → Except Error Address)) :
    entry ∈ Broker.catalogue → entry.2 server = .ok address →
    BrokerBuilds server host t .address address

/-- What may be asked for over a server with a broker. -/
inductive Gated (server : Server) (t : Trace) : Request → Prop
  | status (o : Server) : Gated server t (.updateStatus .unifiedPushServer o)
  | others {ns : String} : Preliminary t → Gated server t (.list .unifiedPushServer ns "")
  | space {ns : String} : Preliminary t → Gated server t (.get .addressSpace ns Broker.spaceName)
  | newSpace {ns : String} {o : AddressSpace} {t₀ : Trace} (reference : OwnerReference) :
    server.metadata.ns = some ns → Broker.addressSpace server = .ok o → Preliminary t₀ →
    t = t₀ ++ [.call (.get .addressSpace ns Broker.spaceName) (.ok none)] →
    Gated server t (.create .addressSpace (o.withOwner reference))
  | credential {ns host name : String} {k : Kind} : k ≠ .address → server.metadata.ns = some ns →
    SpaceSeen ns host t → Gated server t (.get k ns name)
  | address {ns host name : String} : server.metadata.ns = some ns → Armed server ns host t →
    Gated server t (.get .address ns name)
  | broker {ns host : String} {k : Kind} {o : Object k} (reference : OwnerReference) :
    server.metadata.ns = some ns → SpaceSeen ns host t → BrokerBuilds server host t k o →
    Gated server t (.create k (o.withOwner reference))
  | database {ns : String} {o : Secret} (reference : OwnerReference) :
    server.metadata.ns = some ns → Opened server t → Placed ns (childName server postgresql) o →
    Gated server t (.create .secret (o.withOwner reference))
  | rest {r : Request} : Opened server t → (∀ k ∈ Pass.brokerKinds, ¬r.Writes k) →
    Gated server t r

/-! ## Steps -/

namespace Pass

theorem preliminary_concat {e : Entry} (h : Preliminary t)
    (he : ∀ r a, e = .call r a → (∃ ns name, r = .get .unifiedPushServer ns name) ∨
      (∃ ns selector, r = .list .unifiedPushServer ns selector) ∨
      ∃ o, r = .updateStatus .unifiedPushServer o) : Preliminary (t ++ [e]) := by
  intro r a hmem
  rcases List.mem_append.1 hmem with hmem | hmem
  · exact h r a hmem
  · exact he r a (List.mem_singleton.1 hmem).symm

theorem preliminary_get (a : Except Error (Option Server)) :
    Preliminary [.call (.get .unifiedPushServer ns name) a] := by
  intro r a hmem
  cases List.mem_singleton.1 hmem
  exact .inl ⟨_, _, rfl⟩

theorem preliminary_updateStatus (t : Trace) (o : Server) (a : Except Error Server)
    (h : Preliminary t) : Preliminary (t ++ [.call (.updateStatus .unifiedPushServer o) a]) := by
  refine preliminary_concat h ?_
  rintro r a heq
  obtain ⟨rfl, -⟩ := Entry.call.inj heq
  exact .inr (.inr ⟨_, rfl⟩)

theorem gated_deferToActive :
    Grounds (Gated server) server Preliminary (fun _ => Preliminary) deferToActive := by
  refine grounds_server_bind ?_
  split
  · exact grounds_pure fun _ h => h
  refine grounds_build_bind fun ns _ => ?_
  have hlist : Grounds (Gated server) server Preliminary (fun _ => Preliminary)
      (liftM (Task.call (.list .unifiedPushServer ns ""))) := by
    refine grounds_call (fun t ht => .others ht) fun t others ht => preliminary_concat ht ?_
    rintro r a heq
    obtain ⟨rfl, -⟩ := Entry.call.inj heq
    exact .inr (.inl ⟨_, _, rfl⟩)
  refine hlist.bind fun others => ?_
  split
  · exact grounds_stop fun _ _ => trivial
  · exact grounds_pure fun _ h => h

/-- The pass goes on when it has found the address space ready. -/
theorem gated_space :
    Grounds (Gated server) server Preliminary
      (fun space t => ∀ host, messagingHost? space = some host →
        ∃ ns, server.metadata.ns = some ns ∧ SpaceSeen ns host t)
      (ensure (k := .addressSpace) Broker.spaceName fun server => Broker.addressSpace server) := by
  refine grounds_ensure_of (fun o t => Broker.addressSpace server = .ok o ∧
    ∃ ns t₀, server.metadata.ns = some ns ∧ Preliminary t₀ ∧
      t = t₀ ++ [.call (.get .addressSpace ns Broker.spaceName) (.ok none)]) ?_ ?_ ?_ ?_ ?_ ?_
  · intro space t server' event h host hhost
    obtain ⟨ns, hns, hseen⟩ := h host hhost
    exact ⟨ns, hns, lasting_spaceSeen t _ (List.subset_append_left t _) hseen⟩
  · exact fun ns t _ ht => .space ht
  · intro ns found t hns ht host hhost
    obtain ⟨live, heq, hready, hlive⟩ := messagingHost?_eq_some.1 hhost
    obtain rfl := Ensured.found.inj heq
    exact ⟨ns, hns, found, List.mem_concat_self, hready, hlive⟩
  · intro ns hns
    refine Task.grounds_build ?_
    rintro o _ ho ⟨t, ht, rfl⟩
    exact ⟨ho, ns, t, hns, ht, rfl⟩
  · rintro o reference _ - ⟨ho, ns, t₀, hns, ht₀, rfl⟩
    exact .newSpace reference hns ho ht₀ rfl
  · rintro o reference t created - - host hhost
    obtain ⟨live, heq, -⟩ := messagingHost?_eq_some.1 hhost
    cases heq

section

variable (hns : server.metadata.ns = some ns)
include hns

theorem gated_ensureAddress {entry : String × (Server → Except Error Address)}
    (hentry : entry ∈ Broker.catalogue) :
    Grounds (Gated server) server (Armed server ns host)
      (fun ready t => ready = true → AddressSeen ns entry.1 t)
      (ensureAddress entry.1 entry.2) := by
  have hbuild : BuildsOnly (fun o => entry.2 server = .ok o) (liftM (entry.2 server)) :=
    buildsOnly_ofExcept fun _ h => h
  refine (grounds_ensure lasting_armed hbuild ?_ ?_).bind fun ensured => grounds_pure ?_
  · intro ns' t hns' ht
    obtain rfl := Option.some.inj (hns.symm.trans hns')
    exact .address hns ht
  · exact fun _ o reference t _ ho _ ht _ =>
      .broker reference hns ht.space (.address entry hentry ho)
  · rintro t ⟨-, hensured⟩ hready
    cases hensured with
    | created => cases hready
    | found hns' hget =>
      obtain rfl := Option.some.inj (hns.symm.trans hns')
      exact ⟨_, hget, hready⟩

/-- When all rounds call their addresses ready, all of them were seen to be. -/
theorem gated_addresses :
    Grounds (Gated server) server (Armed server ns host)
      (fun ready t => Armed server ns host t ∧ (ready.all id = true → AddressesSeen ns t))
      (Broker.catalogue.mapM fun (address, build) => ensureAddress address build) := by
  refine (grounds_mapM lasting_armed ?_ fun entry hentry => gated_ensureAddress hns hentry).mono
    (fun _ h => h) ?_
  · exact fun entry ready t t' ht h hready => lasting_addressSeen t t' ht (h hready)
  · rintro ready t ⟨harmed, hall⟩
    refine ⟨harmed, fun hready entry hentry => ?_⟩
    obtain ⟨b, hb, hseen⟩ := exists_of_forall₂ hall hentry
    exact hseen (by simpa using List.all_eq_true.1 hready b hb)

theorem armed_of_ensures {user : Ensured .messagingUser} {secret : Ensured .secret}
    {password : String} (hspace : SpaceSeen ns host t)
    (huser : Ensures server Broker.userName
      (fun o => ∃ password, Broker.messagingUser server password = .ok o) t user)
    (hsecret : Ensures server (Broker.secretName server)
      (fun o => Broker.secret server password host = .ok o) t secret) : Armed server ns host t where
  space := hspace
  user := huser.met hns (fun _ ⟨password, ho⟩ => (places_messagingUser password).placed hns ho)
    trivial
  secret := hsecret.met hns (fun _ ho => (places_brokerSecret password host).placed hns ho) trivial

theorem gated_credential {k : Kind} {ns' name : String} (hk : k ≠ .address)
    (hns' : server.metadata.ns = some ns') (ht : SpaceSeen ns host t) :
    Gated server t (.get k ns' name) := by
  obtain rfl := Option.some.inj (hns.symm.trans hns')
  exact .credential hk hns ht

theorem gated_user : Grounds (Gated server) server (SpaceSeen ns host)
    (fun user t => SpaceSeen ns host t ∧ Ensures server Broker.userName
      (fun o => ∃ password, Broker.messagingUser server password = .ok o) t user)
    (ensure (k := .messagingUser) Broker.userName fun server => do
      Broker.messagingUser server (← Task.secret)) := by
  have hbuild : BuildsOnly (fun o => ∃ password, Broker.messagingUser server password = .ok o)
      (do Broker.messagingUser server (← Task.secret)) :=
    buildsOnly_secret fun password => buildsOnly_ofExcept fun o ho => ⟨password, ho⟩
  refine grounds_ensure lasting_spaceSeen hbuild ?_ ?_
  · exact fun ns' t hns' ht => gated_credential hns (by decide) hns' ht
  · rintro _ o reference t - ⟨password, ho⟩ - ht -
    exact .broker reference hns ht (.user password ho)

theorem gated_secret {user : Ensured .messagingUser} {password : String}
    (hpassword : MessagingUser.password? user.object = some password) :
    Grounds (Gated server) server
      (fun t => SpaceSeen ns host t ∧ Ensures server Broker.userName
        (fun o => ∃ password, Broker.messagingUser server password = .ok o) t user)
      (fun _ => Armed server ns host)
      (ensure (k := .secret) (Broker.secretName server) fun server =>
        Broker.secret server password host) := by
  have hbuild : BuildsOnly (fun o => Broker.secret server password host = .ok o)
      (liftM (Broker.secret server password host)) := buildsOnly_ofExcept fun _ h => h
  refine (grounds_ensure (lasting_spaceSeen.and lasting_ensures) hbuild ?_ ?_).mono
    (fun _ h => h) ?_
  · exact fun ns' t hns' ht => gated_credential hns (by decide) hns' ht.1
  · exact fun _ o reference t _ ho _ ht _ =>
      .broker reference hns ht.1 (.secret user password ht.2 hpassword ho)
  · rintro secret t ⟨⟨hspace, huser⟩, hsecret⟩
    exact armed_of_ensures hns hspace huser hsecret

end

/-- The broker step opens the gate. -/
theorem gated_reconcileBroker (hbroker : server.spec.useMessageBroker = true) :
    Grounds (Gated server) server Preliminary (fun _ => Opened server) reconcileBroker := by
  refine grounds_server_bind ?_
  rw [hbroker]
  refine gated_space.bind fun space => ?_
  cases hhost : messagingHost? space with
  | none => exact grounds_stop fun _ _ => trivial
  | some host =>
    rintro st t hserver hseen
    obtain ⟨ns, hns, hspace⟩ := hseen host rfl
    revert hspace hserver
    suffices h : Grounds (Gated server) server (SpaceSeen ns host) (fun _ => Opened server) _ from
      fun hserver => h st t hserver
    refine (gated_user hns).bind fun user => ?_
    split
    · exact grounds_fail
    · next password hpassword =>
      refine grounds_server_bind ((gated_secret hns hpassword).bind fun _ => ?_)
      refine (gated_addresses hns).bind fun ready => ?_
      split
      · exact grounds_stop fun _ _ => trivial
      · next hall =>
        refine grounds_pure ?_
        rintro t ⟨harmed, haddresses⟩
        exact ⟨ns, host, hns, harmed, haddresses (by simpa using hall)⟩

/-- What comes after the broker leaves its kinds alone, but for the secret of the database. -/
theorem gated_of_writesOnly {α : Type} {kinds : List Kind} {x : Pass α} (h : WritesOnly kinds x)
    (hkinds : ∀ k ∈ brokerKinds, k ∉ kinds) :
    Grounds (Gated server) server (Opened server) (fun _ => Opened server) x := by
  refine grounds_of_writesOnly h lasting_opened ?_
  intro t r hwrites hopened
  exact .rest hopened fun k hk hr => hkinds k hk (hwrites k hr)

theorem gated_reconcileCredentials :
    Grounds (Gated server) server (Opened server) (fun _ => Opened server)
      reconcileCredentials := by
  refine grounds_server_bind ?_
  split
  · exact grounds_pure fun _ h => h
  let built (o : Secret) : Prop :=
    ∃ ns, server.metadata.ns = some ns ∧ Placed ns (childName server postgresql) o
  have hplaces (password : String) :
      BuildsOnly built (liftM (Database.secret server password)) := by
    refine buildsOnly_ofExcept fun o ho => ?_
    obtain ⟨ns, hns, -⟩ := bind_eq_ok.1 ho
    rw [ObjectMeta.requireNs_eq_ok] at hns
    exact ⟨ns, hns, (places_databaseSecret password).placed hns ho⟩
  have hbuild : BuildsOnly built (do
      let password ← if server.spec.externalDB then pure "" else Task.secret
      Database.secret server password) := by
    split
    · exact hplaces ""
    · exact buildsOnly_secret hplaces
  refine (grounds_ensure lasting_opened hbuild ?_ ?_).bind fun _ => grounds_pure fun _ h => h.1
  · exact fun _ t _ hopened => .rest hopened fun _ _ hr => hr.elim
  · rintro _ o reference t - ⟨ns, hns, hplaced⟩ - hopened -
    exact .database reference hns hopened hplaced

theorem gated_reconcileDatabase :
    Grounds (Gated server) server (Opened server) (fun _ => Opened server)
      (reconcileDatabase settings) := by
  refine grounds_server_bind (grounds_server_bind ?_)
  have hclaim : WritesOnly [.persistentVolumeClaim]
      (reconcileClaim settings (childName server postgresql)) :=
    writesOnly_reconcileClaim (by decide)
  have hdeployment : WritesOnly [.deployment]
      (reconcileDatabaseDeployment settings (childName server postgresql)) :=
    writesOnly_reconcileDatabaseDeployment (by decide)
  have hservice : WritesOnly [.service] (ensure (k := .service) (childName server postgresql)
      fun server => Database.service server) :=
    writesOnly_ensure (by decide) fun server => Task.obeys_build
  dsimp only
  split
  · refine (gated_of_writesOnly hclaim (by decide)).bind fun _ => ?_
    refine gated_reconcileCredentials.bind fun _ => ?_
    refine (gated_of_writesOnly hdeployment (by decide)).bind fun _ => ?_
    exact (gated_of_writesOnly hservice (by decide)).bind fun _ => grounds_pure fun _ h => h
  · exact gated_reconcileCredentials.bind fun _ => grounds_pure fun _ h => h

theorem gated_converge (hbroker : server.spec.useMessageBroker = true) :
    Grounds (Gated server) server Preliminary (fun _ _ => True) (converge settings) := by
  refine (gated_reconcileBroker hbroker).bind fun _ => ?_
  refine (gated_of_writesOnly writesOnly_removeLegacyKinds (by decide)).bind fun _ => ?_
  refine gated_reconcileDatabase.bind fun _ => ?_
  refine (gated_of_writesOnly writesOnly_reconcileFrontend (by decide)).bind fun _ => ?_
  refine (gated_of_writesOnly writesOnly_reconcileBackups (by decide)).bind fun _ => ?_
  exact (gated_of_writesOnly writesOnly_reconcileMonitoring (by decide)).mono (fun _ h => h)
    fun _ _ _ => trivial

end Pass

end PushOperator
