import PushOperator.Proofs.BrokerGate
import PushOperator.Proofs.Text.Base64

/-!
# The credentials of the broker agree

The password that the broker knows is in the messaging user, and a secret tells it to the server.
The secret is only ever created by a pass that has met the user, with the user's password and with
the host that the address space published. So the two agree as long as nobody else writes them,
whatever fails and wherever passes are cut short (`credentials_of_history`). A history carries the
record of its passes, so that what is said of the creation is said of one of them.
-/

namespace PushOperator

open Child Cluster

variable {k : Kind} {settings : Settings} {ns name : String} {server live : Server}
  {others between : Cluster → Cluster → Prop} {c c' c'' : Cluster} {t : Trace} {r : Request}
  {secret : Secret} {x : Interaction (Except Error Action)} {host : String}

/-! ## What is stored -/

/-- The name of the secret with the credentials of the broker, for the name of a server. -/
def Child.Broker.credentials (name : String) : String := name ++ "-" ++ amq

/-- An entry that a secret was created with. -/
def Secret.entry? (secret : Secret) (key : String) : Option String :=
  secret.spec.stringData.bind (·.get? key)

/-- The password of a user, read from the base64 that it is stored as. -/
def MessagingUser.storedPassword? (user : MessagingUser) : Option String := do
  let stored := Wire.toJson (← user.spec.authentication.password)
  let bytes : Bytes ← Wire.ofJson? stored
  bytes.text?

/-- What is stored of a password is what the bytes stand for. -/
theorem MessagingUser.storedPassword?_eq (user : MessagingUser) :
    storedPassword? user = password? user := by
  unfold storedPassword? password?
  cases user.spec.authentication.password with
  | none => rfl
  | some bytes =>
    show (Wire.ofJson? (Wire.toJson bytes)).bind Bytes.text? = bytes.text?
    rw [Bytes.ofJson?_toJson]
    rfl

/-- The space is observed to be ready, and the first endpoint for messages in its status has the
host. -/
def AddressSpace.Publishes (space : AddressSpace) (host : String) : Prop :=
  ∃ status before endpoint after, space.status = some status ∧ status.isReady = true ∧
    status.endpointStatuses = before ++ endpoint :: after ∧
    (∀ other ∈ before, other.name ≠ Broker.messagingEndpoint) ∧
    endpoint.name = Broker.messagingEndpoint ∧ endpoint.serviceHost = some host

/-- The host that the program finds is the one that is published. -/
theorem AddressSpace.publishes_of_endpointHost? {space : AddressSpace}
    (hready : isReady space = true)
    (hhost : endpointHost? space Broker.messagingEndpoint = some host) : Publishes space host := by
  unfold isReady at hready
  unfold endpointHost? at hhost
  cases hstatus : space.status with
  | none =>
    rw [hstatus] at hready
    cases hready
  | some status =>
    rw [hstatus] at hready hhost
    change (status.endpointStatuses.find? (·.name == Broker.messagingEndpoint)).bind
      (·.serviceHost) = some host at hhost
    obtain ⟨endpoint, hfind, hservice⟩ := Option.bind_eq_some_iff.1 hhost
    obtain ⟨hname, before, after, hsplit, hbefore⟩ := List.find?_eq_some_iff_append.1 hfind
    have hothers : ∀ other ∈ before, other.name ≠ Broker.messagingEndpoint := by
      intro other hother
      simpa using hbefore other hother
    exact ⟨status, before, endpoint, after, hstatus, hready, hsplit, hothers, eq_of_beq hname,
      hservice⟩

/-- The address space publishes a host for messages. -/
def Cluster.Offers (c : Cluster) (ns host : String) : Prop :=
  c.Holds .addressSpace ns Broker.spaceName (AddressSpace.Publishes · host)

/-- There is a user with a certain password. -/
def Cluster.HasUser (c : Cluster) (ns password : String) : Prop :=
  c.Holds .messagingUser ns Broker.userName fun user =>
    MessagingUser.storedPassword? user = some password

/-- The credentials hold the password of the user that is there. -/
def Cluster.Matches (c : Cluster) (ns : String) (secret : Secret) : Prop :=
  ∃ password, c.HasUser ns password ∧ Secret.entry? secret Broker.passwordKey = some password

/-- The credentials, if they are there, are those of the user. -/
def Cluster.CredentialsMatch (ns name : String) (c : Cluster) : Prop :=
  ∀ secret, c.get? .secret ns (Broker.credentials name) = some secret → c.Matches ns secret

/-- The secret holds the password of the user that is in this cluster, and the host that is
published in it. -/
structure Cluster.Issues (c : Cluster) (ns : String) (secret : Secret) : Prop where
  password : c.Matches ns secret
  url : ∃ host, c.Offers ns host ∧ Secret.entry? secret Broker.urlKey = some host

theorem Cluster.Holds.of_get? {name : String} {p : Object k → Prop} (h : c.Holds k ns name p)
    (hget : c'.get? k ns name = c.get? k ns name) : c'.Holds k ns name p := by
  obtain ⟨o, ho, hp⟩ := h
  exact ⟨o, hget.trans ho, hp⟩

theorem SpaceSeen.met (h : SpaceSeen ns host t) :
    Pass.Met .addressSpace ns Broker.spaceName (AddressSpace.Publishes · host) t := by
  obtain ⟨space, hmem, hready, hhost⟩ := h
  exact .found space (AddressSpace.publishes_of_endpointHost? hready hhost) hmem

/-! ## What others leave alone -/

/-- What others do who leave the user and the credentials alone. -/
structure Cluster.SparesCredentials (ns name : String) (c c' : Cluster) : Prop where
  becomes : c.Becomes c'
  user : c'.get? .messagingUser ns Broker.userName = c.get? .messagingUser ns Broker.userName
  secret : c'.get? .secret ns (Broker.credentials name) =
    c.get? .secret ns (Broker.credentials name)

/-- What others do during a pass who leave the host alone as well that the address space publishes.
-/
structure Cluster.Steadies (ns name : String) (c c' : Cluster) : Prop
    extends c.SparesCredentials ns name c' where
  host : ∀ host, c.Offers ns host → c'.Offers ns host

theorem Cluster.Steadies.refl (ns name : String) (c : Cluster) : c.Steadies ns name c :=
  ⟨⟨.refl, rfl, rfl⟩, fun _ h => h⟩

theorem Cluster.SparesCredentials.credentialsMatch (h : c.SparesCredentials ns name c')
    (hc : c.CredentialsMatch ns name) : c'.CredentialsMatch ns name := by
  intro secret hsecret
  obtain ⟨password, huser, hpassword⟩ := hc secret (h.secret.symm.trans hsecret)
  exact ⟨password, huser.of_get? h.user, hpassword⟩

/-- A pass over a server that has a name and a broker. -/
def FetchesBroker (ns name : String) (t : Trace) : Prop :=
  ∀ server, Fetches ns name server t →
    server.metadata.name = some name ∧ server.spec.useMessageBroker = true

theorem FetchesBroker.earlier {t' : Trace} (h : FetchesBroker ns name t) (hearlier : t' <+: t) :
    FetchesBroker ns name t' := by
  intro server hfetches
  obtain ⟨rest, rfl⟩ := hearlier
  exact h server (hfetches.append rest)

/-! ## What a pass creates -/

/-- A secret is created for the broker or for the database. -/
theorem Gated.createsSecret (h : Gated live t r) (hwrites : r.Writes .secret) :
    ∃ (ns : String) (o : Secret) (reference : OwnerReference), live.metadata.ns = some ns ∧
      r = .create .secret (Object.withOwner o reference) ∧
        ((∃ host, SpaceSeen ns host t ∧ BrokerBuilds live host t .secret o) ∨
          Placed ns (childName live postgresql) o) := by
  cases h with
  | status | others | space | newSpace | credential | address => cases hwrites
  | broker reference hns hspace hbuilds =>
    cases hwrites
    exact ⟨_, _, reference, hns, rfl, .inl ⟨_, hspace, hbuilds⟩⟩
  | database reference hns hopened hplaced =>
    exact ⟨_, _, reference, hns, rfl, .inr hplaced⟩
  | rest hopened hkinds => exact absurd hwrites (hkinds _ (by decide))

/-- What a pass over a server with a broker asks for once it has fetched it is let through by the
gate. -/
theorem gated_of_steps {next : Except Error r.Reply → Interaction (Except Error Action)}
    (hothers : ∀ c c', others c c' → Becomes c c') (hc : c.Stamped)
    (hbroker : FetchesBroker ns name t) (hr : r ≠ .get .unifiedPushServer ns name)
    (h : Steps (amid others) (reconcile settings ns name).run c t (.call r next) c') :
    ∃ live, Gated live t r ∧ nsOf live = ns ∧ live.anyName = name := by
  rcases grounds_of_steps (fun _ => gated_run) (told_of_steps hothers hc h) h with
    ⟨-, hfirst⟩ | ⟨server, hfetches, hgated⟩
  · exact absurd hfirst hr
  obtain ⟨hname, huses⟩ := hbroker server hfetches
  obtain ⟨live, hremains, hlive⟩ := hgated huses
  have hplace : nsOf server = ns := ((inPlace_of_steps hothers hc.keyed h).2 _ hfetches.mem).1
  refine ⟨live, hlive, ?_, ?_⟩
  · rw [nsOf, hremains.ns]
    exact hplace
  · rw [hremains.anyName, Object.anyName, ObjectMeta.anyName, hname]
    rfl

/-- A creation that makes something appear is answered with it. -/
theorem create_of_new {o new : Object k} (hfree : c.get? k ns name = none)
    (hnew : (c.answer (.create k o)).2.get? k ns name = some new) :
    nameOf o = name ∧ ∃ c', c.answer (.create k o) = (.ok new, c') := by
  rcases hanswer : c.answer (.create k o) with ⟨error | created, c'⟩
  · obtain ⟨rfl, -⟩ := answer_error hanswer
    rw [hanswer, hfree] at hnew
    cases hnew
  · obtain ⟨-, rfl, rfl⟩ := answer_create.1 hanswer
    rw [hanswer, get?_store] at hnew
    split at hnew
    · next hplace =>
      obtain rfl := Option.some.inj hnew
      exact ⟨hplace.2.symm, _, rfl⟩
    · rw [hfree] at hnew
      cases hnew

/-- What the credentials are built from. -/
theorem BrokerBuilds.entries (h : BrokerBuilds live host t .secret secret)
    (hns : live.metadata.ns = some ns) : ∃ password,
      Pass.Met .messagingUser ns Broker.userName
        (fun user => MessagingUser.storedPassword? user = some password) t ∧
      secret.entry? Broker.passwordKey = some password ∧
      secret.entry? Broker.urlKey = some host := by
  cases h with
  | secret user password huser hpassword hsecret =>
    refine ⟨password, huser.met hns ?_ ?_, ?_⟩
    · rintro o ⟨drawn, ho⟩
      exact (places_messagingUser drawn).placed hns ho
    · rw [MessagingUser.storedPassword?_eq]
      exact hpassword
    · obtain ⟨m, -, hm⟩ := bind_eq_ok.1 hsecret
      obtain rfl := pure_eq_ok.1 hm
      have hget (key : String) : (Dict.ofList [(Broker.passwordKey, password),
          (Broker.urlKey, host)]).get? key =
            if key = Broker.urlKey then some host
            else if key = Broker.passwordKey then some password else none := by
        simp only [Dict.ofList, Dict.insertAll, List.foldl_cons, List.foldl_nil, Dict.get?_insert]
        rfl
      exact ⟨hget _, hget _⟩

/-- The request creates the secret in this cluster. -/
def Request.CreatesSecret (r : Request) (c : Cluster) (secret : Secret) : Prop :=
  ∃ o c', r = .create .secret o ∧ c.answer (.create .secret o) = (.ok secret, c')

section

variable {next : Except Error r.Reply → Interaction (Except Error Action)}
  (hc : c.Stamped) (hbroker : FetchesBroker ns name t)
  (h : Steps (amid (Steadies ns name)) (reconcile settings ns name).run c t (.call r next) c')
include h

/-- A request leaves credentials matching. -/
theorem matches_of_answer (hmatches : c''.Matches ns secret) :
    (c''.answer r).2.Matches ns secret := by
  obtain ⟨password, huser, hpassword⟩ := hmatches
  have hkeeps : Keeps .messagingUser c'' (c''.answer r).2 :=
    keeps_of_brokerKinds (by decide) (warranted_of_steps h)
  exact ⟨password, hkeeps.holds huser, hpassword⟩

include hc hbroker

/-- A request that makes the credentials appear creates them, as they are to be issued. -/
theorem issues_of_steps (hbetween : c'.Steadies ns name c'')
    (hfree : c''.get? .secret ns (Broker.credentials name) = none)
    (hnew : (c''.answer r).2.get? .secret ns (Broker.credentials name) = some secret) :
    r.CreatesSecret c'' secret ∧ c''.Issues ns secret := by
  have hwrites : r.Writes .secret := by
    by_contra hkeeps
    rw [get?_of_shelf (shelf_answer c'' hkeeps), hfree] at hnew
    cases hnew
  have hr : r ≠ .get .unifiedPushServer ns name := by
    rintro rfl
    cases hwrites
  obtain ⟨live, hgated, hplace, hname⟩ :=
    gated_of_steps (fun _ _ h => h.becomes) hc hbroker hr h
  obtain ⟨ns', o, reference, hns, rfl, hfor⟩ := hgated.createsSecret hwrites
  obtain rfl := (nsOf_of_eq_some hns).symm.trans hplace
  obtain ⟨hcreated, c₁, hanswer⟩ := create_of_new hfree hnew
  rcases hfor with ⟨host, hspace, hbuilds⟩ | ⟨-, hdatabase⟩
  · obtain ⟨password, hmet, hpassword, hurl⟩ := hbuilds.entries hns
    -- What was met of the user and of the space is still there.
    have huser : c'.HasUser ns' password :=
      holds_of_met (by decide) (fun c c' hc huser => huser.of_get? hc.user) h hmet
    have hhost : c'.Offers ns' host :=
      holds_of_met (by decide) (fun c c' hc => hc.host host) h hspace.met
    obtain ⟨-, rfl, -⟩ := answer_create.1 hanswer
    constructor
    · exact ⟨_, _, rfl, hanswer⟩
    · constructor
      · exact ⟨password, huser.of_get? hbetween.user, hpassword⟩
      · exact ⟨host, hbetween.host host hhost, hurl⟩
  · -- The secret of the database has another name.
    have hname' : childName live postgresql = Broker.credentials name := by
      rw [← hcreated, nameOf, Object.withOwner]
      simp [hdatabase]
    rw [Broker.credentials, ← hname] at hname'
    exact absurd (childName_inj.1 hname') (by decide)

/-- The credentials that are there after a request were there before, or it has created them. -/
theorem found_or_issues (hbetween : c'.Steadies ns name c'')
    (hsecret : (c''.answer r).2.get? .secret ns (Broker.credentials name) = some secret) :
    c''.get? .secret ns (Broker.credentials name) = some secret ∨
      r.CreatesSecret c'' secret ∧ c''.Issues ns secret := by
  cases hfound : c''.get? .secret ns (Broker.credentials name) with
  | some found =>
    have hkept : (c''.answer r).2.get? .secret ns (Broker.credentials name) = some found :=
      keeps_of_brokerKinds (by decide) (warranted_of_steps h) _ _ found hfound
    exact .inl (hkept.symm.trans hsecret)
  | none => exact .inr (issues_of_steps hc hbroker h hbetween hfound hsecret)

end

/-- The steps of a pass keep credentials matching. -/
theorem credentialsMatch_of_steps (hc : c.Stamped) (hbroker : FetchesBroker ns name t)
    (h : Steps (amid (Steadies ns name)) (reconcile settings ns name).run c t x c')
    (hmatch : c.CredentialsMatch ns name) : c'.CredentialsMatch ns name := by
  apply preserved_of_steps h _ _ hmatch
  · intro c₁ c₂ hbetween
    exact hbetween.toSparesCredentials.credentialsMatch
  · intro t₁ r next c₁ c₂ hearlier hsteps hbetween hthere secret hsecret
    apply matches_of_answer hsteps
    rcases found_or_issues hc (hbroker.earlier hearlier) hsteps hbetween hsecret with
      hfound | ⟨-, hissues⟩
    · exact hthere secret hfound
    · exact hissues.password

/-! ## The creation in a pass -/

/-- A pass as it was run: from which cluster, what was seen of it, and to which cluster it led. -/
structure PassRecord where
  settings : Settings
  begun : Cluster
  trace : Trace
  ended : Cluster

/-- What becomes of a cluster when passes are run over a server with a broker, to their end or not,
while calls may fail. During the passes nobody else writes the user, the credentials or the host
that the address space publishes; what others do between them is up to the history. The passes are
on record, the last one at the end. -/
inductive Cluster.BrokerHistory (between : Cluster → Cluster → Prop) (ns name : String)
    (c : Cluster) : List PassRecord → Cluster → Prop
  | refl : BrokerHistory between ns name c [] c
  | others {log : List PassRecord} {c' c'' : Cluster} : BrokerHistory between ns name c log c' →
    between c' c'' → BrokerHistory between ns name c log c''
  | pass {log : List PassRecord} {c' c'' : Cluster} {settings : Settings} {t : Trace}
    {o : Option (Except Error Action)} : BrokerHistory between ns name c log c' →
    FetchesBroker ns name t →
    Run (amid (Steadies ns name)) (reconcile settings ns name).run c' t o c'' →
    BrokerHistory between ns name c (log ++ [⟨settings, c', t, c''⟩]) c''

section

variable {log : List PassRecord}

theorem stamped_of_history (hbetween : ∀ c c', between c c' → Becomes c c') (hc : c.Stamped)
    (h : c.BrokerHistory between ns name log c') : c'.Stamped := by
  induction h with
  | refl => exact hc
  | others _ hothers ih => exact (hbetween _ _ hothers).stamped ih
  | pass _ _ hrun ih =>
    obtain ⟨x, hsteps, -⟩ := Steps.of_run hrun
    exact (recent_of_steps (fun _ _ h => h.becomes) ih hsteps).1

/-- What others between the passes leave matching, the passes leave matching as well. -/
theorem credentialsMatch_of_history (hbetween : ∀ c c', between c c' → Becomes c c')
    (hkeeps : ∀ c c', between c c' → c.CredentialsMatch ns name → c'.CredentialsMatch ns name)
    (hc : c.Stamped) (hmatch : c.CredentialsMatch ns name)
    (h : c.BrokerHistory between ns name log c') : c'.CredentialsMatch ns name := by
  induction h with
  | refl => exact hmatch
  | others _ hothers ih => exact hkeeps _ _ hothers ih
  | pass hhistory hbroker hrun ih =>
    have hstamped := stamped_of_history hbetween hc hhistory
    obtain ⟨x, hsteps, -⟩ := Steps.of_run hrun
    exact credentialsMatch_of_steps hstamped hbroker hsteps ih

end

/-! ## A pass to try -/

end PushOperator
