import PushOperator.Proofs.Pass.BrokerGate
import PushOperator.Proofs.Pass.Settles
import PushOperator.Proofs.Text.Base64

/-!
# What the broker step waits for

A pass over a server with a message broker that no call fails of waits for the address space until
it finds that ready, and then for the addresses. By the time it waits for the addresses, it has made
sure of everything that the broker needs.
-/

namespace PushOperator

open Child Cluster

open Interaction (leads_done leads_bind leads_of_lasting)

variable {settings : Settings} {ns name host : String} {server : Server} {t t' : Trace}

/-- Another server was found to be active. -/
def TurnedAway (server : Server) (t : Trace) : Prop :=
  ∃ ns others other, .call (.list .unifiedPushServer ns "") (.ok others) ∈ t ∧ other ∈ others ∧
    Pass.isOtherActive server other = true

/-- The places of everything that the broker needs are taken. -/
structure Provided (ns : String) (server : Server) (t : Trace) : Prop where
  user : Pass.Taken .messagingUser ns Broker.userName t
  secret : Pass.Taken .secret ns (Broker.secretName server) t
  addresses : ∀ entry ∈ Broker.catalogue,
    Pass.Taken .address ns (Broker.addressName entry.1) t

/-- The user was found, and it has no password that could be read. -/
def UserUnreadable (ns : String) (t : Trace) : Prop :=
  ∃ user, .call (.get .messagingUser ns Broker.userName) (.ok (some user)) ∈ t ∧
    MessagingUser.password? user = none

/-- Why the broker step halts. -/
inductive BrokerHalts (server : Server) (ns : String) (t : Trace) : Halt → Prop
  | space : (∀ host, ¬SpaceSeen ns host t) → BrokerHalts server ns t (.early (.requeue 10))
  | user {host : String} {user : Ensured .messagingUser} {error : Error} : SpaceSeen ns host t →
    Pass.Ensures server Broker.userName
      (fun o => ∃ password, Broker.messagingUser server password = .ok o) t user →
    MessagingUser.password? user.object = none → BrokerHalts server ns t (.failed error)
  | addresses {host : String} : SpaceSeen ns host t → Provided ns server t →
    BrokerHalts server ns t (.early (.requeue 5))

/-! ## What can be built -/

namespace Child.Broker

/-- A new user has the password that it was given. -/
theorem password?_messagingUser {user : MessagingUser} {password : String}
    (h : messagingUser server password = .ok user) :
    MessagingUser.password? user = some password := by
  obtain ⟨m, -, h⟩ := bind_eq_ok.1 h
  obtain rfl := pure_eq_ok.1 h
  exact Bytes.text?_ofText password

theorem exists_of_mem_catalogue {address : String} {build : Server → Except Error Address}
    (h : (address, build) ∈ catalogue) (hns : server.metadata.ns = some ns) :
    ∃ o, build server = .ok o := by
  simp only [catalogue, List.mem_append, List.mem_map, Prod.mk.injEq] at h
  obtain ⟨_, _, rfl, rfl⟩ | ⟨_, _, rfl, rfl⟩ := h
  · exact exists_of_namedMeta hns
  · exact exists_of_namedMeta hns

end Child.Broker

/-! ## What was seen of the space -/

theorem spaceSeen_concat {e : Entry} : SpaceSeen ns host (t ++ [e]) ↔ SpaceSeen ns host t ∨
    ∃ space, e = .call (.get .addressSpace ns Broker.spaceName) (.ok (some space)) ∧
      AddressSpace.isReady space = true ∧
      AddressSpace.endpointHost? space Broker.messagingEndpoint = some host := by
  constructor
  · rintro ⟨space, hmem, hready⟩
    rcases List.mem_append.1 hmem with hmem | hmem
    · exact .inl ⟨space, hmem, hready⟩
    · exact .inr ⟨space, (List.mem_singleton.1 hmem).symm, hready⟩
  · rintro (h | ⟨space, rfl, hready⟩)
    · exact lasting_spaceSeen t _ (List.subset_append_left t _) h
    · exact ⟨space, List.mem_concat_self, hready⟩

theorem Preliminary.not_spaceSeen (h : Preliminary t) : ¬SpaceSeen ns host t := by
  rintro ⟨space, hmem, -⟩
  rcases h _ _ hmem with ⟨_, _, heq⟩ | ⟨_, _, heq⟩ | ⟨_, heq⟩ <;> cases heq

namespace Pass

/-! ## Steps -/

section

variable {halts : Halt → Trace → Prop} (hns : server.metadata.ns = some ns)
  (howner : ∃ reference, ownerReference server = .ok reference)
include hns howner

/-- What the step takes for the host is what it has seen. -/
theorem settles_space : Settles server Preliminary (fun space t =>
      (messagingHost? space = none → ∀ host, ¬SpaceSeen ns host t) ∧
        ∀ host, messagingHost? space = some host → SpaceSeen ns host t) halts
    (ensure (k := .addressSpace) Broker.spaceName fun server => Broker.addressSpace server) := by
  refine settles_ensure_of hns howner (by decide) ?_ ?_ ?_
    fun o (ho : Broker.addressSpace server = .ok o) => places_addressSpace.placed hns ho
  · intro space t server' event h
    simpa [spaceSeen_concat] using h
  · intro found t ht
    refine ⟨fun hnone host hseen => ?_, fun host hhost => ?_⟩
    · rcases spaceSeen_concat.1 hseen with hbefore | ⟨space, heq, hready, hhost⟩
      · exact ht.not_spaceSeen hbefore
      · cases heq
        rw [messagingHost?_eq_some.2 ⟨found, rfl, hready, hhost⟩] at hnone
        cases hnone
    · obtain ⟨live, heq, hready, hlive⟩ := messagingHost?_eq_some.1 hhost
      obtain rfl := Ensured.found.inj heq
      exact ⟨found, List.mem_concat_self, hready, hlive⟩
  · refine Task.settles_build (exists_of_namedMeta hns) ?_
    rintro o _ ho ⟨t, ht, rfl⟩
    refine ⟨ho, fun reference created => ⟨fun _ host => ?_, fun host hhost => ?_⟩⟩
    · rw [spaceSeen_concat, spaceSeen_concat]
      rintro ((hbefore | ⟨_, heq, -⟩) | ⟨_, heq, -⟩)
      · exact ht.not_spaceSeen hbefore
      · cases heq
      · cases heq
    · obtain ⟨live, heq, -⟩ := messagingHost?_eq_some.1 hhost
      cases heq

theorem settles_user : Settles server (SpaceSeen ns host)
    (fun user t => SpaceSeen ns host t ∧ Ensures server Broker.userName
      (fun o => ∃ password, Broker.messagingUser server password = .ok o) t user) halts
    (ensure (k := .messagingUser) Broker.userName fun server => do
      Broker.messagingUser server (← Task.secret)) := by
  refine settles_ensure hns howner (by decide) lasting_spaceSeen ?_ ?_
  · intro pre hpre
    exact (Task.settles_secret hpre).bind fun password =>
      Task.settles_build (exists_of_namedMeta hns) fun o t ho ht => ⟨⟨password, ho⟩, ht⟩
  · rintro o ⟨password, ho⟩
    exact (places_messagingUser password).placed hns ho

theorem settles_secret {user : Ensured .messagingUser} {password : String} :
    Settles server
      (fun t => SpaceSeen ns host t ∧ Ensures server Broker.userName
        (fun o => ∃ password, Broker.messagingUser server password = .ok o) t user)
      (fun _ => Armed server ns host) halts
      (ensure (k := .secret) (Broker.secretName server) fun server =>
        Broker.secret server password host) := by
  have hplaced (o : Secret) (ho : Broker.secret server password host = .ok o) :
      Placed ns (Broker.secretName server) o := (places_brokerSecret password host).placed hns ho
  have hname : Broker.secretName server ≠ "" := by simp [Broker.secretName, childName]
  refine (settles_ensure hns howner hname (lasting_spaceSeen.and lasting_ensures) ?_ hplaced).mono
    (fun _ h => h) ?_
  · intro pre hpre
    exact Task.settles_build (exists_of_namedMeta hns) fun o t ho ht => ⟨ho, ht⟩
  · rintro secret t ⟨⟨hspace, huser⟩, hsecret⟩
    exact armed_of_ensures hns hspace huser hsecret

theorem settles_ensureAddress {entry : String × (Server → Except Error Address)}
    (hentry : entry ∈ Broker.catalogue) :
    Settles server (Armed server ns host)
      (fun ready t => (ready = true → AddressSeen ns entry.1 t) ∧
        Taken .address ns (Broker.addressName entry.1) t) halts
      (ensureAddress entry.1 entry.2) := by
  have hplaced (o : Address) (ho : entry.2 server = .ok o) :
      Placed ns (Broker.addressName entry.1) o := (places_catalogue hentry).placed hns ho
  refine (settles_ensure hns howner (by simp [Broker.addressName]) lasting_armed ?_ hplaced).bind
    fun ensured => settles_pure ?_
  · intro pre hpre
    exact Task.settles_build (Broker.exists_of_mem_catalogue hentry hns) fun o t ho ht => ⟨ho, ht⟩
  · rintro t ⟨-, hensured⟩
    refine ⟨fun hready => ?_, hensured.met hns hplaced trivial⟩
    cases hensured with
    | created => cases hready
    | found hns' hget =>
      obtain rfl := Option.some.inj (hns.symm.trans hns')
      exact ⟨_, hget, hready⟩

theorem settles_addresses : Settles server (Armed server ns host)
    (fun ready t => Armed server ns host t ∧ (ready.all id = true → AddressesSeen ns t) ∧
      Provided ns server t) halts
    (Broker.catalogue.mapM fun (address, build) => ensureAddress address build) := by
  refine (settles_mapM lasting_armed ?_ fun entry hentry =>
    settles_ensureAddress hns howner hentry).mono (fun _ h => h) ?_
  · rintro entry ready t t' ht ⟨hseen, htaken⟩
    exact ⟨fun hready => lasting_addressSeen t t' ht (hseen hready), lasting_taken t t' ht htaken⟩
  · rintro ready t ⟨harmed, hall⟩
    have hround (entry) (hentry : entry ∈ Broker.catalogue) :
        (ready.all id = true → AddressSeen ns entry.1 t) ∧
          Taken .address ns (Broker.addressName entry.1) t := by
      obtain ⟨b, hb, hseen, htaken⟩ := exists_of_forall₂ hall hentry
      refine ⟨fun hready => hseen ?_, htaken⟩
      simpa using List.all_eq_true.1 hready b hb
    exact ⟨harmed, fun hready entry hentry => (hround entry hentry).1 hready, harmed.user,
      harmed.secret, fun entry hentry => (hround entry hentry).2⟩

/-- Where nothing fails, the broker step opens the gate or says what it is waiting for. -/
theorem settles_reconcileBroker (hbroker : server.spec.useMessageBroker = true) :
    Settles server Preliminary (fun _ => Opened server) (fun halt t => BrokerHalts server ns t halt)
      reconcileBroker := by
  refine settles_server_bind ?_
  rw [hbroker]
  refine (settles_space hns howner).bind fun space => ?_
  cases hhost : messagingHost? space with
  | none => exact settles_stop fun t h => .space (h.1 rfl)
  | some host =>
    suffices h : Settles server (SpaceSeen ns host) (fun _ => Opened server)
        (fun halt t => BrokerHalts server ns t halt) _ from
      h.mono (fun t hseen => hseen.2 host rfl) fun _ _ h => h
    refine (settles_user hns howner).bind fun user => ?_
    split
    · next hpassword => exact settles_throw fun t h => .user h.1 h.2 hpassword
    · next password hpassword =>
      refine settles_server_bind ((settles_secret hns howner).bind fun _ => ?_)
      refine (settles_addresses hns howner).bind fun ready => ?_
      split
      · exact settles_stop fun t h => .addresses h.1.space h.2.2
      · next hall =>
        refine settles_pure ?_
        rintro t ⟨harmed, haddresses, -⟩
        exact ⟨ns, host, hns, harmed, haddresses (by simpa using hall)⟩

end

theorem settles_deferToActive (hns : server.metadata.ns = some ns) :
    Settles server Preliminary (fun _ => Preliminary)
      (fun halt t => halt = .early .awaitChange ∧ TurnedAway server t) deferToActive := by
  refine settles_server_bind ?_
  split
  · exact settles_pure fun _ h => h
  refine (settles_build ⟨ns, ObjectMeta.requireNs_eq_ok.2 hns⟩ fun _ _ _ h => h).bind fun ns' => ?_
  have hlist : Settles server Preliminary
      (fun others t => Preliminary t ∧
        .call (.list .unifiedPushServer ns' "") (.ok others) ∈ t)
      (fun halt t => halt = .early .awaitChange ∧ TurnedAway server t)
      (liftM (Task.call (.list .unifiedPushServer ns' ""))) := by
    refine settles_liftM (Task.settles_call fun t others _ ht => ⟨?_, List.mem_concat_self⟩)
    refine preliminary_concat ht ?_
    rintro r a heq
    obtain ⟨rfl, -⟩ := Entry.call.inj heq
    exact .inr (.inl ⟨_, _, rfl⟩)
  refine hlist.bind fun others => ?_
  split
  · next hactive =>
    refine settles_stop fun t h => ⟨rfl, ns', others, ?_⟩
    obtain ⟨other, hother, hisActive⟩ := List.any_eq_true.1 hactive
    exact ⟨other, h.2, hother, hisActive⟩
  · exact settles_pure fun _ h => h.1

end Pass

/-! ## Whole passes -/

/-- How a pass over a server with a broker may end when no call fails. -/
inductive BrokerEnds (server : Server) (ns : String) (t : Trace) : Action → Prop
  | turnedAway {action : Action} : TurnedAway server t → BrokerEnds server ns t action
  | opened {action : Action} : Opened server t → BrokerEnds server ns t action
  | unreadable {host : String} {action : Action} : SpaceSeen ns host t → UserUnreadable ns t →
    BrokerEnds server ns t action
  | space : (∀ host, ¬SpaceSeen ns host t) → BrokerEnds server ns t (.requeue 10)
  | addresses {host : String} : SpaceSeen ns host t → Provided ns server t →
    BrokerEnds server ns t (.requeue 5)

theorem Opened.of_remains {live : Server} (hremains : server.Remains live) (h : Opened live t) :
    Opened server t := by
  obtain ⟨ns, host, hns, ⟨hspace, huser, hsecret⟩, haddresses⟩ := h
  obtain ⟨⟩ := hremains
  exact ⟨ns, host, hns, ⟨hspace, huser, hsecret⟩, haddresses⟩

theorem Provided.of_remains {live : Server} (hremains : server.Remains live)
    (h : Provided ns live t) : Provided ns server t := by
  obtain ⟨huser, hsecret, haddresses⟩ := h
  obtain ⟨⟩ := hremains
  exact ⟨huser, hsecret, haddresses⟩

namespace Pass

/-- A server with a name and a uid can own children. -/
theorem exists_ownerReference (hserver : Placed ns name server)
    (huid : server.metadata.uid ≠ none) : ∃ reference, ownerReference server = .ok reference := by
  obtain ⟨uid, huid⟩ := Option.ne_none_iff_exists'.1 huid
  unfold ownerReference
  rw [hserver.2, huid]
  exact ⟨_, rfl⟩

/-- A user that was created has a password, so one without was found. -/
theorem unreadable_of_ensures {user : Ensured .messagingUser} (hns : server.metadata.ns = some ns)
    (hsmooth : Smooth t) (h : Ensures server Broker.userName
      (fun o => ∃ password, Broker.messagingUser server password = .ok o) t user)
    (hpassword : MessagingUser.password? user.object = none) : UserUnreadable ns t := by
  cases h with
  | @found ns' found hns' hget =>
    obtain rfl := Option.some.inj (hns.symm.trans hns')
    exact ⟨found, hget, hpassword⟩
  | @created o created reference ho hcreate =>
    obtain ⟨password, ho⟩ := ho
    obtain ⟨-, -, hspec⟩ := hsmooth _ hcreate
    have hsame : MessagingUser.password? created = MessagingUser.password? o := by
      unfold MessagingUser.password?
      rw [hspec]
      rfl
    rw [Ensured.object, hsame, Broker.password?_messagingUser ho] at hpassword
    cases hpassword

/-- The body of a pass ends as the whole pass will. -/
def BodyEnds (server : Server) (ns : String) (t : Trace) : Except Halt Action → Prop
  | .ok action | .error (.early action) => BrokerEnds server ns t action
  | .error (.failed _) => Opened server t ∨ ∃ host, SpaceSeen ns host t ∧ UserUnreadable ns t

theorem lasting_userUnreadable : Lasting (UserUnreadable ns) := by
  rintro t t' ht ⟨user, hget, hpassword⟩
  exact ⟨user, ht hget, hpassword⟩

theorem leads_body (hserver : Placed ns name server) (huid : server.metadata.uid ≠ none)
    (hbroker : server.spec.useMessageBroker = true) (ht : Preliminary t) {st : PassState}
    (hst : st.server = server) :
    ((body settings).exec st).Leads (fun p t' => BodyEnds server ns t' p.1) t := by
  rw [body_eq]
  refine leads_exec_bind (settles_deferToActive hserver.1 st t hst ht) ?_ ?_
  · rintro halt st₁ t₁ - ⟨-, rfl, haway⟩
    exact .turnedAway haway
  rintro _ st₁ t₁ ⟨rfl, ht₁⟩
  refine leads_exec_bind (leads_start st₁ hserver preliminary_updateStatus ht₁) ?_ ?_
  · rintro halt st₂ t₂ - ⟨hok, -⟩
    cases hok
  rintro _ st₂ t₂ ⟨-, hremains, ht₂⟩
  have hserver₂ : Placed ns name st₂.server := hremains.placed hserver
  have hbroker₂ : st₂.server.spec.useMessageBroker = true := by rwa [hremains.spec]
  have hsteps := settles_reconcileBroker hserver₂.1 (exists_ownerReference hserver₂ <| by
    rwa [hremains.uid huid]) hbroker₂
  unfold converge
  rw [bind_assoc]
  refine leads_exec_bind (hsteps st₂ t₂ rfl ht₂) ?_ ?_
  · rintro halt st₃ t₃ hsmooth ⟨-, hhalts⟩
    cases hhalts with
    | space hunseen => exact .space hunseen
    | user hspace huser hpassword =>
      exact .inr ⟨_, hspace, unreadable_of_ensures hserver₂.1 hsmooth huser hpassword⟩
    | addresses hspace hprovided => exact .addresses hspace (hprovided.of_remains hremains)
  · rintro _ st₃ t₃ ⟨-, hopened⟩
    refine (leads_of_lasting lasting_opened (hopened.of_remains hremains)).mono ?_
    rintro ⟨(error | action) | action, st₄⟩ t₄ - - hopened'
    · exact .inl hopened'
    · exact .opened hopened'
    · exact .opened hopened'

/-- A pass that no call fails of waits for the broker as long as it has to. -/
theorem leads_run (hserver : Placed ns name server) (huid : server.metadata.uid ≠ none)
    (hbroker : server.spec.useMessageBroker = true) (ht : Preliminary t) :
    (run settings server).Leads (fun action t' => BrokerEnds server ns t' action) t := by
  rw [run_eq]
  refine leads_bind (leads_body hserver huid hbroker ht rfl) ?_
  rintro ⟨(error | action) | action, st⟩ t' - hends
  · rcases hends with hopened | ⟨host, hhalted⟩
    · exact (leads_of_lasting lasting_opened hopened).mono fun _ _ _ _ h => .opened h
    · exact (leads_of_lasting (lasting_spaceSeen.and lasting_userUnreadable) hhalted).mono
        fun _ _ _ _ h => .unreadable h.1 h.2
  · exact leads_done hends
  · exact leads_done hends

end Pass

end PushOperator
