import PushOperator.Proofs.BrokerCredentials

/-!
# Credentials after deletions

A pass makes sure of the user and of the credentials one by one. When the credentials are gone, or
both are, it makes them agree again (`credentials_match_of_history`). When only the user is gone, it
creates one with another password and leaves the credentials as they are, so they do not let the
server in any more (`not_matches_deletedCluster`).
-/

namespace PushOperator

open Child Cluster

variable {settings : Settings} {ns name : String} {server live : Server} {c c' c'' : Cluster}
  {t : Trace} {r : Request} {secret : Secret} {x : Interaction (Except Error Action)}

/-! ## What others delete -/

/-- What others do between passes who take the user and the credentials away at most. -/
structure Cluster.DeletesCredentials (ns name : String) (c c' : Cluster) : Prop where
  becomes : c.Becomes c'
  user : c'.get? .messagingUser ns Broker.userName = none ∨
    c'.get? .messagingUser ns Broker.userName = c.get? .messagingUser ns Broker.userName
  secret : c'.get? .secret ns (Broker.credentials name) = none ∨
    c'.get? .secret ns (Broker.credentials name) = c.get? .secret ns (Broker.credentials name)

/-- What others do who take the user away only with the credentials. -/
structure Cluster.DeletesTogether (ns name : String) (c c' : Cluster) : Prop
    extends c.DeletesCredentials ns name c' where
  together : c'.get? .secret ns (Broker.credentials name) = none ∨
    c'.get? .messagingUser ns Broker.userName = c.get? .messagingUser ns Broker.userName

theorem Cluster.DeletesTogether.credentialsMatch (h : c.DeletesTogether ns name c')
    (hc : c.CredentialsMatch ns name) : c'.CredentialsMatch ns name := by
  intro secret hsecret
  rcases h.together with hgone | huser
  · rw [hgone] at hsecret
    cases hsecret
  · rcases h.secret with hgone | hsame
    · rw [hgone] at hsecret
      cases hsecret
    · obtain ⟨password, hpassword, hentry⟩ := hc secret (hsame.symm.trans hsecret)
      exact ⟨password, hpassword.of_get? huser, hentry⟩

/-! ## Passes -/

/-- What a pass has asked for was let through by the gate at its point of the trace. -/
theorem gated_of_mem {a : Except Error r.Reply} (hc : c.Stamped) (hbroker : FetchesBroker ns name t)
    (h : Steps (amid (Steadies ns name)) (reconcile settings ns name).run c t x c')
    (hmem : .call r a ∈ t) (hr : r ≠ .get .unifiedPushServer ns name) :
    ∃ before live, before ⊆ t ∧ Gated live before r ∧ nsOf live = ns ∧ live.anyName = name := by
  obtain ⟨before, after, next, c₁, c₂, rfl, hbefore, -⟩ := h.of_mem hmem
  have hbroker' := hbroker.earlier (List.prefix_append before _)
  obtain ⟨live, hgated, hlive⟩ := gated_of_steps (fun _ _ h => h.becomes) hc hbroker' hr hbefore
  exact ⟨before, live, List.subset_append_left _ _, hgated, hlive⟩

/-- A pass looks for an address only when it has met the user and the credentials. -/
theorem armed_of_steps {address : String} {a : Except Error (Option Address)}
    (hc : c.Stamped) (hbroker : FetchesBroker ns name t)
    (h : Steps (amid (Steadies ns name)) (reconcile settings ns name).run c t x c')
    (hmem : .call (.get .address ns address) a ∈ t) :
    Pass.Taken .messagingUser ns Broker.userName t ∧
      Pass.Taken .secret ns (Broker.credentials name) t := by
  obtain ⟨before, live, hsub, hgated, hplace, hname⟩ := gated_of_mem hc hbroker h hmem nofun
  have harmed : ∃ ns' host, live.metadata.ns = some ns' ∧ Armed live ns' host before := by
    cases hgated with
    | credential hk => exact absurd rfl hk
    | address hns harmed => exact ⟨_, _, hns, harmed⟩
    | rest hopened _ =>
      obtain ⟨ns', host, hns, harmed, -⟩ := hopened
      exact ⟨ns', host, hns, harmed⟩
  obtain ⟨ns', host, hns, harmed⟩ := harmed
  obtain rfl := (nsOf_of_eq_some hns).symm.trans hplace
  have hsecret : Broker.secretName live = Broker.credentials name := by
    rw [Broker.secretName, childName, hname]
    rfl
  constructor
  · exact Pass.lasting_taken _ _ hsub harmed.user
  · exact hsecret ▸ Pass.lasting_taken _ _ hsub harmed.secret

/-- A pass that writes what is not of the broker has found all addresses ready. -/
theorem addressesSeen_of_write {k : Kind} {a : Except Error r.Reply} (hc : c.Stamped)
    (hbroker : FetchesBroker ns name t)
    (h : Steps (amid (Steadies ns name)) (reconcile settings ns name).run c t x c')
    (hmem : .call r a ∈ t) (hwrites : r.Writes k) (hk : k ∉ Pass.brokerKinds)
    (hserver : k ≠ .unifiedPushServer) : AddressesSeen ns t := by
  have hr : r ≠ .get .unifiedPushServer ns name := by
    rintro rfl
    cases hwrites
  obtain ⟨before, live, hsub, hgated, hplace, -⟩ := gated_of_mem hc hbroker h hmem hr
  have hopened : Opened live before := by
    cases hgated with
    | status => exact absurd hwrites.symm hserver
    | others | space | credential | address => cases hwrites
    | newSpace =>
      cases hwrites
      exact absurd (by decide) hk
    | broker _ _ _ hbuilds =>
      cases hwrites
      cases hbuilds <;> exact absurd (by decide) hk
    | database _ _ hopened _ => exact hopened
    | rest hopened _ => exact hopened
  obtain ⟨ns', host, hns, -, haddresses⟩ := hopened
  obtain rfl := (nsOf_of_eq_some hns).symm.trans hplace
  exact lasting_addressesSeen _ _ hsub haddresses

/-- After a pass that has found all addresses ready, the credentials are there. -/
theorem exists_credentials_of_steps (hc : c.Stamped) (hbroker : FetchesBroker ns name t)
    (h : Steps (amid (Steadies ns name)) (reconcile settings ns name).run c t x c')
    (hseen : AddressesSeen ns t) :
    ∃ secret, c'.get? .secret ns (Broker.credentials name) = some secret := by
  obtain ⟨live, hmem, -⟩ := hseen Broker.catalogue[0] (List.getElem_mem _)
  obtain ⟨-, hsecret⟩ := armed_of_steps hc hbroker h hmem
  have hthere : c'.Holds .secret ns (Broker.credentials name) fun _ => True :=
    holds_of_met (by decide) (fun _ _ hc h => h.of_get? hc.secret) h hsecret
  obtain ⟨secret, hsecret, -⟩ := hthere
  exact ⟨secret, hsecret⟩

/-! ## Histories -/

/-- As long as others who delete children do not take the user away and leave the credentials, the
credentials hold the password of the user after every pass that gets past the broker. -/
theorem credentials_match_of_history {log : List PassRecord} {o : Option (Except Error Action)}
    (hc : c.Stamped) (hmatch : c.CredentialsMatch ns name)
    (hhistory : c.BrokerHistory (DeletesTogether ns name) ns name log c')
    (hbroker : FetchesBroker ns name t)
    (h : Run (amid (Steadies ns name)) (reconcile settings ns name).run c' t o c'')
    (hseen : AddressesSeen ns t) :
    ∃ secret, c''.get? .secret ns (Broker.credentials name) = some secret ∧
      c''.Matches ns secret := by
  have hstamped := stamped_of_history (fun _ _ h => h.becomes) hc hhistory
  obtain ⟨x, hsteps, -⟩ := Steps.of_run h
  obtain ⟨secret, hsecret⟩ := exists_credentials_of_steps hstamped hbroker hsteps hseen
  have hmatch'' : c''.CredentialsMatch ns name :=
    credentialsMatch_of_history (fun _ _ h => h.becomes) (fun _ _ h => h.credentialsMatch) hc hmatch
      (.pass hhistory hbroker h)
  exact ⟨secret, hsecret, hmatch'' secret hsecret⟩

/-! ## Passes to try -/

/-- An address that is ready. -/
def readyAddress (name : String) : Address where
  metadata := { name := some name, ns := some "push" }
  spec := { address := name, type := "queue", plan := "brokered-queue" }
  status := some { isReady := true }

/-- The names of all addresses. -/
def addressNames : List String := [
  "ups.apnspushmessagequeue",
  "ups.apnstokenbatchqueue",
  "ups.gcmpushmessagequeue",
  "ups.gcmtokenbatchqueue",
  "ups.wnspushmessagequeue",
  "ups.wnstokenbatchqueue",
  "ups.metricsqueue",
  "ups.triggermetriccollectionqueue",
  "ups.triggervariantmetriccollectionqueue",
  "ups.batchloadedqueue",
  "ups.allbatchesloadedqueue",
  "ups.freeserviceslotqueue",
  "ups.metricsprocessingstartedtopic",
  "ups.apnsclient"]

/-- The credentials for the user of the samples. -/
def sampleSecret : Secret where
  metadata := { name := some (Broker.credentials "a"), ns := some "push" }
  spec := { stringData := some (Dict.ofList [(Broker.passwordKey, "secret"),
    (Broker.urlKey, "messaging")]) }
  status := ()

/-- A server whose broker has all that it needs. -/
def readyCluster : Cluster :=
  addressNames.foldl (fun c name => (c.store "push" name (readyAddress name)).2)
    (spaceCluster.store "push" (Broker.credentials "a") sampleSecret).2

/-- What is seen of a pass that draws the given text as every secret. -/
def drawnTrace (text : String) (c : Cluster) : Trace :=
  (reconcile {} "push" "a").run.trace (drawing (fun _ => false) text) c

theorem run_drawnTrace (text : String) (c : Cluster) : ∃ result c',
    Run reliable (reconcile {} "push" "a").run c (drawnTrace text c) (some result) c' :=
  ⟨_, _, run_drawing (fun _ _ => rfl) text _ c⟩

theorem stamped_readyCluster : readyCluster.Stamped := by
  have hspace : spaceCluster.Stamped :=
    ((stamped_empty.store brokerServer).store readySpace).store (sampleUser "secret")
  have hstores (names : List String) (c : Cluster) (hc : c.Stamped) :
      (names.foldl (fun c name => (c.store "push" name (readyAddress name)).2) c).Stamped := by
    induction names generalizing c with
    | nil => exact hc
    | cons name names ih => exact ih _ (hc.store (readyAddress name))
  exact hstores addressNames _ (hspace.store sampleSecret)

theorem holds_sampleSecret : readyCluster.Holds .secret "push" (Broker.credentials "a")
    fun secret => Secret.entry? secret Broker.passwordKey = some "secret" := by
  have hentry : (readyCluster.get? .secret "push" (Broker.credentials "a")).bind
      (Secret.entry? · Broker.passwordKey) = some "secret" := by decide +kernel
  exact Option.bind_eq_some_iff.1 hentry

theorem credentialsMatch_readyCluster : readyCluster.CredentialsMatch "push" "a" := by
  have huser : (readyCluster.get? .messagingUser "push" Broker.userName).bind
      MessagingUser.storedPassword? = some "secret" := by decide +kernel
  intro secret hsecret
  obtain ⟨found, hfound, hentry⟩ := holds_sampleSecret
  obtain rfl := Option.some.inj (hfound.symm.trans hsecret)
  exact ⟨"secret", Option.bind_eq_some_iff.1 huser, hentry⟩

/-- Nothing is refused. -/
def Entry.isGranted : Entry → Bool
  | .call _ (.error _) => false
  | _ => true

/-- A volume is claimed. -/
def Entry.claimsVolume : Entry → Bool
  | .call (.create .persistentVolumeClaim _) _ => true
  | _ => false

/-- The user is created with a certain password. -/
def Entry.createsUser (password : String) : Entry → Bool
  | .call (.create .messagingUser o) (.ok user) =>
    decide (o.metadata.ns = some "push" ∧ o.metadata.name = some Broker.userName ∧
      MessagingUser.storedPassword? user = some password)
  | _ => false

/-- The same server when somebody has deleted the credentials. -/
def withdrawnCluster : Cluster := readyCluster.remove .secret "push" (Broker.credentials "a")

theorem deletesTogether_withdrawnCluster :
    readyCluster.DeletesTogether "push" "a" withdrawnCluster := by
  have huser : withdrawnCluster.get? .messagingUser "push" Broker.userName =
      readyCluster.get? .messagingUser "push" Broker.userName :=
    get?_of_shelf (shelf_remove_of_ne _ _ _ (by decide)) _ _
  have hsecret : withdrawnCluster.get? .secret "push" (Broker.credentials "a") = none := by
    rw [withdrawnCluster, get?_remove, if_pos ⟨rfl, rfl⟩]
  exact ⟨⟨.remove _ _ _ .refl, .inr huser, .inl hsecret⟩, .inl hsecret⟩

theorem fetchesBroker_of_head (h : t.head? = some
    (.call (.get .unifiedPushServer "push" "a") (.ok (some (stamped 1 brokerServer))))) :
    FetchesBroker "push" "a" t := by
  intro server hfetches
  cases h.symm.trans hfetches
  exact ⟨rfl, rfl⟩

theorem addressesSeen_of_claimsVolume (hc : c.Stamped)
    (hbroker : FetchesBroker ns name t)
    (h : Steps (amid (Steadies ns name)) (reconcile settings ns name).run c t x c')
    (hclaims : t.any Entry.claimsVolume = true) : AddressesSeen ns t := by
  obtain ⟨e, hmem, he⟩ := List.any_eq_true.1 hclaims
  unfold Entry.claimsVolume at he
  split at he
  · exact addressesSeen_of_write (k := .persistentVolumeClaim) hc hbroker h hmem rfl (by decide)
      (by decide)
  · cases he

/-- When only the credentials have been deleted, a pass makes them agree with the user again. -/
theorem credentials_match_withdrawnCluster : ∃ result c₂ secret,
    Run reliable (reconcile {} "push" "a").run withdrawnCluster
      (drawnTrace "fresh" withdrawnCluster) (some result) c₂ ∧
    AddressesSeen "push" (drawnTrace "fresh" withdrawnCluster) ∧
    c₂.get? .secret "push" (Broker.credentials "a") = some secret ∧ c₂.Matches "push" secret := by
  obtain ⟨result, c₂, hrun⟩ := run_drawnTrace "fresh" withdrawnCluster
  have hamid := hrun.mono (amid_of_reliable (Steadies.refl "push" "a"))
  obtain ⟨x, hsteps, -⟩ := Steps.of_run hamid
  have hstamped : withdrawnCluster.Stamped := stamped_readyCluster.remove _ _ _
  have hbroker : FetchesBroker "push" "a" (drawnTrace "fresh" withdrawnCluster) :=
    fetchesBroker_of_head rfl
  have hclaims : (drawnTrace "fresh" withdrawnCluster).any Entry.claimsVolume = true := by
    decide +kernel
  have hseen := addressesSeen_of_claimsVolume hstamped hbroker hsteps hclaims
  obtain ⟨secret, hsecret, hmatches⟩ := credentials_match_of_history stamped_readyCluster
    credentialsMatch_readyCluster (.others .refl deletesTogether_withdrawnCluster) hbroker hamid
    hseen
  exact ⟨result, c₂, secret, hrun, hseen, hsecret, hmatches⟩

/-- The same server when somebody has deleted the user. -/
def deletedCluster : Cluster := readyCluster.remove .messagingUser "push" Broker.userName

theorem get?_secret_deletedCluster (name : String) :
    deletedCluster.get? .secret "push" name = readyCluster.get? .secret "push" name :=
  get?_of_shelf (shelf_remove_of_ne _ _ _ (by decide)) _ _

theorem deletesCredentials_deletedCluster :
    readyCluster.DeletesCredentials "push" "a" deletedCluster := by
  have huser : deletedCluster.get? .messagingUser "push" Broker.userName = none := by
    rw [deletedCluster, get?_remove, if_pos ⟨rfl, rfl⟩]
  exact ⟨.remove _ _ _ .refl, .inl huser, .inr (get?_secret_deletedCluster _)⟩

/-- A user that a pass creates with a certain password is there as long as others leave it alone. -/
theorem hasUser_of_createsUser {password : String}
    (h : Steps (amid (Steadies "push" name)) (reconcile settings ns name).run c t x c')
    (hcreates : t.any (Entry.createsUser password) = true) : c'.HasUser "push" password := by
  obtain ⟨e, hmem, he⟩ := List.any_eq_true.1 hcreates
  unfold Entry.createsUser at he
  split at he
  · obtain ⟨hns, hname, hpassword⟩ := of_decide_eq_true he
    exact holds_of_met (by decide) (fun c c' hc huser => huser.of_get? hc.user) h
      (.created _ _ hpassword ⟨hns, hname⟩ hmem)
  · cases he

/-- A pass in which no call fails gets past the broker when only the user has been deleted. It has
made a user with another password, and the credentials are still the old ones. -/
theorem not_matches_deletedCluster : ∃ action c₂ secret,
    readyCluster.CredentialsMatch "push" "a" ∧
    readyCluster.DeletesCredentials "push" "a" deletedCluster ∧
    FetchesBroker "push" "a" (drawnTrace "fresh" deletedCluster) ∧
    Run reliable (reconcile {} "push" "a").run deletedCluster (drawnTrace "fresh" deletedCluster)
      (some (.ok action)) c₂ ∧
    (∀ r error, .call r (.error error) ∉ drawnTrace "fresh" deletedCluster) ∧
    AddressesSeen "push" (drawnTrace "fresh" deletedCluster) ∧
    c₂.get? .secret "push" (Broker.credentials "a") = some secret ∧
    c₂.HasUser "push" "fresh" ∧ ¬c₂.Matches "push" secret := by
  have hchecked : ((drawnTrace "fresh" deletedCluster).all Entry.isGranted &&
      (drawnTrace "fresh" deletedCluster).any Entry.claimsVolume &&
      (drawnTrace "fresh" deletedCluster).any (Entry.createsUser "fresh")) = true := by
    decide +kernel
  rw [Bool.and_eq_true, Bool.and_eq_true] at hchecked
  obtain ⟨⟨hgranted, hclaims⟩, hcreates⟩ := hchecked
  obtain ⟨result, c₂, hrun⟩ := run_drawnTrace "fresh" deletedCluster
  have hamid := hrun.mono (amid_of_reliable (Steadies.refl "push" "a"))
  obtain ⟨x, hsteps, -⟩ := Steps.of_run hamid
  have hstamped : deletedCluster.Stamped := stamped_readyCluster.remove _ _ _
  have hfetches : Fetches "push" "a" (stamped 1 brokerServer) (drawnTrace "fresh" deletedCluster) :=
    rfl
  have hbroker := fetchesBroker_of_head hfetches
  have hfails (r : Request) (error : Error) :
      .call r (.error error) ∉ drawnTrace "fresh" deletedCluster := by
    intro hmem
    cases List.all_eq_true.1 hgranted _ hmem
  obtain ⟨action, rfl, -⟩ := brokerEnds_of_run (fun _ _ h => h.becomes) hstamped hfetches rfl
    ⟨rfl, rfl⟩ (by decide) hamid hfails
  have hseen := addressesSeen_of_claimsVolume hstamped hbroker hsteps hclaims
  -- The user is the one that the pass has created.
  have huser : c₂.HasUser "push" "fresh" := hasUser_of_createsUser hsteps hcreates
  have hsecret : deletedCluster.Holds .secret "push" (Broker.credentials "a") fun secret =>
      Secret.entry? secret Broker.passwordKey = some "secret" :=
    holds_sampleSecret.of_get? (get?_secret_deletedCluster _)
  obtain ⟨secret, hthere, hentry⟩ := holds_of_steps (by decide)
    (fun _ _ hc hsecret => hsecret.of_get? hc.secret) hsteps hsecret
  refine ⟨action, c₂, secret, credentialsMatch_readyCluster, deletesCredentials_deletedCluster,
    hbroker, hrun, hfails, hseen, hthere, huser, ?_⟩
  rintro ⟨password, ⟨user, hget, hpassword⟩, hentry'⟩
  obtain ⟨fresh, hfresh, hnew⟩ := huser
  obtain rfl := Option.some.inj (hget.symm.trans hfresh)
  obtain rfl := Option.some.inj (hpassword.symm.trans hnew)
  exact absurd (Option.some.inj (hentry.symm.trans hentry')) (by decide)

end PushOperator
