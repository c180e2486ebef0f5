import PushOperator.Proofs.PublishedRegistry

/-!
# Names of children

Most children bear the name of their server with something added, which may be nothing. So the names
of two servers in a namespace may give one name to children of both. Of all that is added only the
empty ending is the end of another one of the same kind: a deployment may be the server itself or
its database. This is the only way in which two servers come to share a child (`shared_iff`).
-/

namespace PushOperator.Child

variable {k : Kind} {name : String} {server a b : Server} {serves serves' : String → Bool}

/-- The kinds of children that are called after their server. -/
def namedKinds : List Kind :=
  [.persistentVolumeClaim, .secret, .deployment, .service, .serviceAccount, .route,
    .serviceMonitor, .prometheusRule, .grafanaDashboard]

/-- What their names add to that of the server. -/
def endings : Kind → List String
  | .persistentVolumeClaim => ["-" ++ postgresql]
  | .secret => ["-" ++ postgresql, "-" ++ amq]
  | .deployment => ["-" ++ postgresql, ""]
  | .service => ["-" ++ postgresql, "-" ++ proxy, "-" ++ unifiedpush]
  | .serviceAccount => [""]
  | .route => ["-" ++ proxy]
  | .serviceMonitor | .prometheusRule | .grafanaDashboard => ["-" ++ unifiedpush]
  | _ => []

/-- What a cluster may have of a server: the children that the spec calls for where all kinds are
served. -/
abbrev MayHave (server : Server) (k : Kind) (name : String) : Prop :=
  CalledFor server (fun _ => true) k name

theorem mayHave_of_wanted (h : (k, name) ∈ wanted server serves) : MayHave server k name := by
  cases mem_wanted_iff.1 h with
  | addressSpace hon => exact .addressSpace hon
  | messagingUser hon => exact .messagingUser hon
  | brokerSecret hon => exact .brokerSecret hon
  | address hon haddress => exact .address hon haddress
  | claim hown => exact .claim hown
  | databaseSecret hneeded => exact .databaseSecret hneeded
  | databaseDeployment hown => exact .databaseDeployment hown
  | databaseService hown => exact .databaseService hown
  | serviceAccount => exact .serviceAccount
  | proxyService => exact .proxyService
  | serverService => exact .serverService
  | route => exact .route
  | serverDeployment => exact .serverDeployment
  | cronJob hbackup => exact .cronJob hbackup
  | serviceMonitor => exact .serviceMonitor rfl
  | prometheusRule => exact .prometheusRule rfl
  | grafanaDashboard => exact .grafanaDashboard rfl

theorem childName_eq (server : Server) (suffix : String) :
    childName server suffix = server.anyName ++ ("-" ++ suffix) := String.append_assoc

theorem exists_ending (hk : k ∈ namedKinds) (h : MayHave server k name) :
    ∃ ending ∈ endings k, name = server.anyName ++ ending := by
  have hchild {suffix : String} (hmem : "-" ++ suffix ∈ endings k) :
      ∃ ending ∈ endings k, childName server suffix = server.anyName ++ ending :=
    ⟨_, hmem, childName_eq server suffix⟩
  cases h with
  | addressSpace | messagingUser | address | cronJob => exact absurd hk (by decide)
  | serviceAccount | serverDeployment => exact ⟨"", by simp [endings], String.append_empty.symm⟩
  | brokerSecret | claim | databaseSecret | databaseDeployment | databaseService | proxyService
  | serverService | route | serviceMonitor | prometheusRule | grafanaDashboard =>
    exact hchild (by simp [endings])

/-- Only what is called like the server itself ends in what another of its children ends in. -/
theorem eq_of_suffix : ∀ k ∈ namedKinds, ∀ e ∈ endings k, ∀ e' ∈ endings k,
    e.toList <:+ e'.toList → e = e' ∨ k = .deployment := by
  decide +kernel

/-- So servers of different names share no child but a deployment. -/
theorem kind_of_shared (hne : a.anyName ≠ b.anyName) (hk : k ∈ namedKinds)
    (ha : MayHave a k name) (hb : MayHave b k name) : k = .deployment := by
  obtain ⟨e, he, rfl⟩ := exists_ending hk ha
  obtain ⟨e', he', heq⟩ := exists_ending hk hb
  have hdiffer : e ≠ e' := by
    rintro rfl
    exact hne ((String.append_left_inj e).1 heq)
  have hlists : a.anyName.toList ++ e.toList = b.anyName.toList ++ e'.toList := by
    rw [← String.toList_append, heq, String.toList_append]
  have hsuffix : e.toList <:+ a.anyName.toList ++ e.toList := List.suffix_append _ _
  have hsuffix' : e'.toList <:+ a.anyName.toList ++ e.toList := hlists ▸ List.suffix_append _ _
  rcases List.suffix_or_suffix_of_suffix hsuffix hsuffix' with h | h
  · exact (eq_of_suffix k hk e he e' he' h).resolve_left hdiffer
  · exact (eq_of_suffix k hk e' he' e he h).resolve_left hdiffer.symm

theorem mayHave_deployment (h : MayHave server .deployment name) :
    (server.spec.externalDB = false ∧ name = childName server postgresql) ∨
      name = server.anyName := by
  cases h with
  | databaseDeployment hown => exact .inl ⟨hown, rfl⟩
  | serverDeployment => exact .inr rfl

/-- A server runs a database, and another one is called like that. -/
def Shadows (a b : Server) : Prop :=
  a.spec.externalDB = false ∧ b.anyName = childName a postgresql

/-- Servers of different names share a child exactly when one is called like the database of the
other, and then it is that deployment. -/
theorem shared_cases (hne : a.anyName ≠ b.anyName) (hk : k ∈ namedKinds) (ha : MayHave a k name)
    (hb : MayHave b k name) :
    k = .deployment ∧ (Shadows a b ∧ name = b.anyName ∨ Shadows b a ∧ name = a.anyName) := by
  obtain rfl := kind_of_shared hne hk ha hb
  refine ⟨rfl, ?_⟩
  rcases mayHave_deployment ha with ⟨hown, rfl⟩ | rfl
  · rcases mayHave_deployment hb with ⟨-, heq⟩ | heq
    · rw [childName_eq, childName_eq] at heq
      exact absurd ((String.append_left_inj _).1 heq) hne
    · exact .inl ⟨⟨hown, heq.symm⟩, heq⟩
  · rcases mayHave_deployment hb with ⟨hown, heq⟩ | heq
    · exact .inr ⟨⟨hown, heq⟩, rfl⟩
    · exact absurd heq hne

theorem wanted_of_shadows (h : Shadows a b) : (.deployment, b.anyName) ∈ wanted a serves ∧
    (.deployment, b.anyName) ∈ wanted b serves' := by
  obtain ⟨hown, hname⟩ := h
  constructor
  · rw [hname]
    exact mem_wanted_iff.2 (.databaseDeployment hown)
  · exact mem_wanted_iff.2 .serverDeployment

theorem shared_iff (hne : a.anyName ≠ b.anyName) :
    (∃ k ∈ namedKinds, ∃ name, (k, name) ∈ wanted a serves ∧ (k, name) ∈ wanted b serves') ↔
      Shadows a b ∨ Shadows b a := by
  constructor
  · rintro ⟨k, hk, name, ha, hb⟩
    obtain ⟨-, h⟩ := shared_cases hne hk (mayHave_of_wanted ha) (mayHave_of_wanted hb)
    exact h.imp And.left And.left
  · rintro (h | h)
    · exact ⟨.deployment, by decide, _, wanted_of_shadows h⟩
    · exact ⟨.deployment, by decide, _, (wanted_of_shadows h).symm⟩

end PushOperator.Child
