import PushOperator.Proofs.Child.Pods

/-!
# Secrets and the pods that read them

The pods of a server read the connection to the database and, with a broker, the credentials for it
(`refers_of_built`). When all builders succeed, both are in secrets that were built as well, unless
the server names a secret of its own (`provides_connection`, `provides_credentials`).
-/

namespace PushOperator

/-- A value that a secret is made with. -/
def Secret.value? (secret : Secret) (key : String) : Option String :=
  (secret.spec.stringData.getD ∅).get? key

/-- The keys of secrets that a container gets variables from. -/
def Container.secretRefs (container : Container) : List SecretKeySelector :=
  (container.env.getD []).filterMap fun entry => entry.valueFrom.bind (·.secretKeyRef)

namespace Child

variable {p : Plan} {server : Server} {key : String}

/-! ## What secrets hold -/

/-- The keys of a connection secret. -/
def connectionKeys : List String := [Database.databaseKey, Database.usernameKey,
  Database.passwordKey, Database.hostKey, Database.portKey, Database.superuserKey]

theorem isSome_get?_insertAll {β : Type} {d : Dict β} {l : List (String × β)}
    (h : key ∈ l.map Prod.fst ∨ (d.get? key).isSome = true) :
    ((d.insertAll l).get? key).isSome = true := by
  induction l generalizing d with
  | nil => simpa [Dict.insertAll] using h
  | cons entry l ih =>
    show (((d.insert entry.1 entry.2).insertAll l).get? key).isSome = true
    refine ih ?_
    rw [Dict.get?_insert]
    by_cases heq : key = entry.1
    · exact .inr (by simp [heq])
    · exact h.imp (by simp [heq]) (by simp [heq])

/-- Whatever the database is, its connection is complete. -/
theorem databaseSecret_holds {password : String} {secret : Secret}
    (h : Database.secret server password = .ok secret) (hkey : key ∈ connectionKeys) :
    (Secret.value? secret key).isSome = true := by
  obtain ⟨ns, -, h⟩ := bind_eq_ok.1 h
  have hentries : ∃ entries : List (String × String), entries.map Prod.fst = connectionKeys ∧
      secret.spec.stringData = some (Dict.ofList entries) := by
    split at h
    · obtain ⟨entries, hexternal, h⟩ := bind_eq_ok.1 h
      obtain ⟨m, -, h⟩ := bind_eq_ok.1 h
      obtain rfl := pure_eq_ok.1 h
      refine ⟨entries, ?_, rfl⟩
      unfold Database.externalEntries at hexternal
      split at hexternal
      · cases hexternal
      · obtain rfl := Except.ok.inj hexternal
        rfl
    · obtain ⟨entries, hown, h⟩ := bind_eq_ok.1 h
      obtain ⟨m, -, h⟩ := bind_eq_ok.1 h
      obtain rfl := pure_eq_ok.1 h
      obtain rfl := pure_eq_ok.1 hown
      exact ⟨_, rfl, rfl⟩
  obtain ⟨entries, hkeys, hdata⟩ := hentries
  rw [Secret.value?, hdata]
  exact isSome_get?_insertAll (.inl (hkeys ▸ hkey))

/-- The keys of the broker's credentials. -/
def credentialKeys : List String := [Broker.passwordKey, Broker.urlKey]

theorem brokerSecret_holds {password url : String} {secret : Secret}
    (h : Broker.secret server password url = .ok secret) (hkey : key ∈ credentialKeys) :
    (Secret.value? secret key).isSome = true := by
  obtain ⟨m, -, h⟩ := bind_eq_ok.1 h
  obtain rfl := pure_eq_ok.1 h
  exact isSome_get?_insertAll (.inl hkey)

/-- The secret that the server names for the connection to a database that is already there. -/
def NamedByUser (server : Server) (name : String) : Prop :=
  server.spec.externalDB = true ∧ server.spec.databaseSecret = some name ∧ name ≠ ""

/-- The key is in a secret that was built under the name, or the server names the secret itself. -/
def Plan.Provides (p : Plan) (name key : String) : Prop :=
  (∃ secret : Secret, p.Builds .secret secret ∧ secret.metadata.name = some name ∧
    (Secret.value? secret key).isSome = true) ∨ NamedByUser p.server name

/-- When the connection secret is not made by the operator, the server names it. -/
theorem namedByUser_of_unneeded
    (h : (server.spec.externalDB && Database.namesSecret server) = true) :
    NamedByUser server (Database.secretName server) := by
  obtain ⟨hexternal, hnames⟩ := Bool.and_eq_true_iff.1 h
  obtain ⟨name, hname, hne⟩ := (Option.any_eq_true _ _).1 hnames
  have hne : name ≠ "" := by simpa using hne
  have hsecret : Database.secretName server = name := by
    simp [Database.secretName, hname, hexternal, hne]
  rw [hsecret]
  exact ⟨hexternal, hname, hne⟩

/-- The secret that pods read the connection from has the whole of it. -/
theorem provides_connection (hp : p.Succeeds) (hkey : key ∈ connectionKeys) :
    p.Provides (Database.secretName p.server) key := by
  cases hneeded : p.server.spec.externalDB && Database.namesSecret p.server with
  | false =>
    obtain ⟨secret, hsecret⟩ := hp _ _ (.databaseSecret hneeded)
    obtain ⟨-, hname⟩ := places_databaseSecret _ _ _ hsecret
    rw [Pass.secretName_eq hneeded]
    exact .inl ⟨secret, ⟨_, .databaseSecret hneeded, hsecret⟩, hname,
      databaseSecret_holds hsecret hkey⟩
  | true => exact .inr (namedByUser_of_unneeded hneeded)

theorem provides_credentials (hp : p.Succeeds) (hon : p.server.spec.useMessageBroker = true)
    (hkey : key ∈ credentialKeys) : p.Provides (Broker.secretName p.server) key := by
  obtain ⟨secret, hsecret⟩ := hp _ _ (.brokerSecret hon)
  obtain ⟨-, hname⟩ := places_brokerSecret _ _ _ _ hsecret
  exact .inl ⟨secret, ⟨_, .brokerSecret hon, hsecret⟩, hname, brokerSecret_holds hsecret hkey⟩

/-- The keys of secrets that the pods of a deployment get variables from. -/
def secretRefs (d : Deployment) : List SecretKeySelector :=
  (Deployment.template d).pod.allContainers.flatMap Container.secretRefs

/-- The two sorts of secrets that pods refer to. -/
inductive Plan.Refers (p : Plan) : SecretKeySelector → Prop
  | connection {ref : SecretKeySelector} (hname : ref.name = Database.secretName p.server)
    (hkey : ref.key ∈ connectionKeys) : Refers p ref
  | credentials {ref : SecretKeySelector} (hon : p.server.spec.useMessageBroker = true)
    (hname : ref.name = Broker.secretName p.server) (hkey : ref.key ∈ credentialKeys) : Refers p ref

/-- A variable gets its value from nowhere else. -/
def Plan.Reads (p : Plan) (entry : EnvVar) : Prop :=
  ∀ ref, entry.valueFrom.bind (·.secretKeyRef) = some ref → p.Refers ref

theorem reads_value (name value : String) : p.Reads (valueEnv name value) :=
  fun _ h => nomatch h

theorem reads_connection {name : String} {optional : Option Bool} (hkey : key ∈ connectionKeys) :
    p.Reads (secretEnv name (Database.secretName p.server) key optional) := by
  intro ref h
  obtain rfl := Option.some.inj h
  exact .connection rfl hkey

theorem reads_credentials {name : String} {optional : Option Bool}
    (hon : p.server.spec.useMessageBroker = true) (hkey : key ∈ credentialKeys) :
    p.Reads (secretEnv name (Broker.secretName p.server) key optional) := by
  intro ref h
  obtain rfl := Option.some.inj h
  exact .credentials hon rfl hkey

theorem reads_environment : ∀ entry ∈ Frontend.environment p.server, p.Reads entry := by
  unfold Frontend.environment
  simp only [List.forall_mem_append, List.forall_mem_cons]
  refine ⟨⟨reads_connection (by decide), reads_connection (by decide),
    reads_connection (by decide), reads_connection (by decide), reads_connection (by decide),
    List.forall_mem_nil _⟩, ?_⟩
  split
  · next hon =>
    simp only [List.forall_mem_cons]
    exact ⟨reads_value _ _, reads_credentials hon (by decide), reads_credentials hon (by decide),
      reads_value _ _, List.forall_mem_nil _⟩
  · exact List.forall_mem_nil _

/-- The pods of all deployments only refer to these two secrets. -/
theorem refers_of_built {d : Deployment} (h : p.Builds .deployment d) {ref : SecretKeySelector}
    (href : ref ∈ secretRefs d) : p.Refers ref := by
  obtain ⟨e, hcalls, he⟩ := h
  obtain ⟨container, hcontainer, href⟩ := List.mem_flatMap.1 href
  obtain ⟨entry, hentry, href⟩ := List.mem_filterMap.1 href
  suffices hreads : ∀ entry ∈ container.env.getD [], p.Reads entry from hreads entry hentry ref href
  cases hcalls with
  | databaseDeployment =>
    obtain ⟨-, -, -, resources, hpod⟩ := databaseDeployment_ok he
    rw [hpod] at hcontainer
    obtain rfl := List.mem_singleton.1 hcontainer
    show ∀ entry ∈ [_, _, _], p.Reads entry
    simp only [List.forall_mem_cons]
    exact ⟨reads_connection (by decide), reads_connection (by decide),
      reads_connection (by decide), List.forall_mem_nil _⟩
  | serverDeployment =>
    obtain ⟨-, -, -, upsResources, proxyResources, hpod⟩ := serverDeployment_ok he
    rw [hpod] at hcontainer
    rcases List.mem_cons.1 hcontainer with rfl | hcontainer
    · show ∀ entry ∈ [_], p.Reads entry
      simp only [List.forall_mem_cons]
      exact ⟨reads_connection (by decide), List.forall_mem_nil _⟩
    rcases List.mem_cons.1 hcontainer with rfl | hcontainer
    · exact reads_environment
    · obtain rfl := List.mem_singleton.1 hcontainer
      exact List.forall_mem_nil _

end Child

end PushOperator
