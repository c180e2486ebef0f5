import PushOperator.Proofs.OwnedCreations
import PushOperator.Proofs.Pass.Lookups

/-!
# Passes over different servers

Two servers of different names share a child exactly when one of them is called like the database
that the other one runs. As long as neither is, a pass over one of them asks for no child of the
other, neither to read it nor to write it (`names_separate`). When one is, the pass over it takes
the database of the other one for its own deployment (`adopted_shadowedCluster`).
-/

namespace PushOperator

open Child Cluster

variable {k : Kind} {settings : Settings} {ns ns' name place : String} {server : Server}
  {c c' : Cluster} {t : Trace} {r : Request} {others : Cluster → Cluster → Prop}

/-- A request is about the object of a kind in a place. A listing is about all objects of a kind in
a namespace. -/
def Request.Touches (k : Kind) (ns name : String) : Request → Prop
  | .get k' ns' name' => k' = k ∧ ns' = ns ∧ name' = name
  | .list k' ns' _ => k' = k ∧ ns' = ns
  | .create k' o | .update k' o | .updateStatus k' o | .delete k' o =>
    k' = k ∧ nsOf o = ns ∧ nameOf o = name
  | .probe _ => False

/-- The pass looks whether the account is there that backups run as. -/
def Request.LooksForAccount : Request → Prop
  | .get .serviceAccount _ name => name = Backup.account
  | _ => False

/-! ## One pass -/

section

variable (hothers : ∀ c c', others c c' → Becomes c c') (hc : c.Stamped)
include hothers hc

/-- What was looked up before is a child of the server that the pass has fetched. -/
theorem mayHave_of_looked {x : Interaction (Except Error Action)}
    {a : Except Error (Option (Object k))}
    (h : Steps (amid others) (reconcile settings ns name).run c t x c') (hk : k ∈ namedKinds)
    (hmem : .call (.get k ns' place) a ∈ t) :
    ∃ server, Fetches ns name server t ∧ server.metadata.ns = some ns' ∧
      (MayHave server k place ∨ k = .serviceAccount ∧ place = Backup.account) := by
  obtain ⟨before, after, next, c₁, c₂, rfl, hbefore, -⟩ := h.of_mem hmem
  rcases looks_of_steps (told_of_steps hothers hc hbefore) hbefore with
    ⟨-, heq⟩ | ⟨server, hfetches, hlooks⟩
  · cases heq
    exact absurd hk (by decide)
  · exact ⟨server, hfetches.append _, hlooks hk⟩

/-- Of the kinds that are called after their server, a pass only touches what its server may have.
-/
theorem touches_of_steps {next : Except Error r.Reply → Interaction (Except Error Action)}
    (h : Steps (amid others) (reconcile settings ns name).run c t (.call r next) c')
    (hk : k ∈ namedKinds) (htouches : r.Touches k ns' place) :
    ∃ server, Fetches ns name server t ∧ server.metadata.ns = some ns' ∧
      (MayHave server k place ∨ r.LooksForAccount) := by
  have hlooks := looks_of_steps (told_of_steps hothers hc h) h
  have hwarranted := warranted_of_steps h
  cases r with
  | probe groupVersion => exact htouches.elim
  | get k₁ ns₁ name₁ =>
    obtain ⟨rfl, rfl, rfl⟩ := htouches
    rcases hlooks with ⟨-, heq⟩ | ⟨server, hfetches, hlooks⟩
    · cases heq
      exact absurd hk (by decide)
    · obtain ⟨hns, hhas⟩ := hlooks hk
      refine ⟨server, hfetches, hns, hhas.imp id ?_⟩
      rintro ⟨rfl, rfl⟩
      rfl
  | list k₁ ns₁ selector =>
    obtain ⟨rfl, rfl⟩ := htouches
    rcases hlooks with ⟨-, heq⟩ | ⟨server, -, hlooks⟩
    · cases heq
    · exact absurd hk hlooks
  | create k₁ o =>
    obtain ⟨rfl, rfl, rfl⟩ := htouches
    rcases hlooks with ⟨-, heq⟩ | ⟨server, hfetches, hlooks⟩
    · cases heq
    · obtain ⟨hplace, name', hname, hhas⟩ := hlooks hk
      obtain ⟨server', hfetches', howned⟩ := ownedCreation_of_steps (stays_of_steps hothers hc h) h
      obtain rfl := hfetches.unique hfetches'
      obtain ⟨ns₁, name₁, hns, hplaced, -⟩ := howned.place
      obtain rfl : name' = name₁ := Option.some.inj (hname.symm.trans hplaced.2)
      rw [hplaced.nsOf, hplaced.nameOf]
      exact ⟨server, hfetches, hns, .inl hhas⟩
  | update k₁ o =>
    obtain ⟨rfl, rfl, rfl⟩ := htouches
    obtain ⟨_, -, hwarrant⟩ := hwarranted.2 rfl
    have hseen := (inPlace_of_steps hothers hc.keyed h).2
    -- What is updated was found under its name, and it is no account.
    have hfound {ns₁ name₁ : String} {found : Object k₁} (haccount : k₁ ≠ .serviceAccount)
        (hget : .call (.get k₁ ns₁ name₁) (.ok (some found)) ∈ t)
        (hmetadata : o.metadata = found.metadata) :
        ∃ server, Fetches ns name server t ∧ server.metadata.ns = some (nsOf o) ∧
          (MayHave server k₁ (nameOf o) ∨ (Request.update k₁ o).LooksForAccount) := by
      obtain ⟨hplace, hname⟩ := hseen _ hget
      obtain ⟨server, hfetches, hns, hhas⟩ := mayHave_of_looked hothers hc h hk hget
      have hplace' : nsOf o = ns₁ := by
        rw [nsOf, hmetadata]
        exact hplace
      have hname' : nameOf o = name₁ := by
        rw [nameOf, hmetadata]
        exact hname
      rw [hplace', hname']
      exact ⟨server, hfetches, hns, .inl (hhas.resolve_right fun h => haccount h.1)⟩
    cases hwarrant with
    | correct _ hget hcorrects =>
      refine hfound ?_ hget hcorrects.metadata
      rintro rfl
      cases hcorrects
    | spec _ hspec hget =>
      refine hfound ?_ hget rfl
      rintro rfl
      exact absurd hspec (by decide)
    | job => exact absurd hk (by decide)
  | updateStatus k₁ o =>
    obtain ⟨rfl, -, -⟩ := htouches
    obtain ⟨_, -, hwarrant⟩ := hwarranted.2 rfl
    cases hwarrant
    exact absurd hk (by decide)
  | delete k₁ o =>
    obtain ⟨rfl, -, -⟩ := htouches
    obtain ⟨_, -, hwarrant⟩ := hwarranted.2 rfl
    cases hwarrant with
    | delete _ hdeleted =>
      have hnamed : ∀ k ∈ Pass.deletedKinds, k ∉ namedKinds := by decide
      exact absurd hk (hnamed _ hdeleted)

end

/-! ## Two servers -/

/-- For all specs, servers of different names share a child exactly when one runs a database and the
other one is called like it. Otherwise no pass over one of them asks for a child of the other: it
neither looks it up nor writes it, unless that is the account that the backups of both need. -/
theorem names_separate {a b : Server} (hne : a.anyName ≠ b.anyName) :
    (∀ serves serves', (∃ k ∈ namedKinds, ∃ name,
        (k, name) ∈ wanted a serves ∧ (k, name) ∈ wanted b serves') ↔ Shadows a b ∨ Shadows b a) ∧
    (¬Shadows a b → ¬Shadows b a → ∀ (settings : Settings) (ns name : String)
      (others : Cluster → Cluster → Prop) c t r
      (next : Except Error r.Reply → Interaction (Except Error Action)) c',
      (∀ c c', others c c' → Becomes c c') → c.Stamped →
      Steps (amid others) (reconcile settings ns name).run c t (.call r next) c' →
      Fetches ns name a t →
      ∀ k ∈ namedKinds, ∀ ns' place serves, (k, place) ∈ wanted b serves →
        r.Touches k ns' place → r.LooksForAccount) := by
  refine ⟨fun serves serves' => shared_iff hne, ?_⟩
  intro hab hba settings ns name others c t r next c' hothers hc hsteps hfetches k hk ns' place
    serves hwanted htouches
  obtain ⟨server, hfetches', -, hhas⟩ := touches_of_steps hothers hc hsteps hk htouches
  obtain rfl := hfetches.unique hfetches'
  refine hhas.resolve_left fun hmay => ?_
  obtain ⟨-, ⟨hshadows, -⟩ | ⟨hshadows, -⟩⟩ :=
    shared_cases hne hk hmay (mayHave_of_wanted hwanted)
  · exact hab hshadows
  · exact hba hshadows

/-- The pass over "a" that creates a secret touches no child of "b" with it. -/
theorem names_separate_sampleCluster :
    (stamped 2 (sampleServer "a")).anyName ≠ (sampleServer "b").anyName ∧
    (¬∃ k ∈ namedKinds, ∃ name, (k, name) ∈ wanted (stamped 2 (sampleServer "a")) (fun _ => true) ∧
      (k, name) ∈ wanted (sampleServer "b") fun _ => true) ∧
    ∃ (t : Trace) (o : Secret) (next : _) (c' : Cluster),
      Steps flaky (reconcile {} "push" "a").run sampleCluster t
        (.call (.create .secret o) next) c' ∧
      Fetches "push" "a" (stamped 2 (sampleServer "a")) t ∧
      ∀ k ∈ namedKinds, ∀ ns' place, (k, place) ∈ wanted (sampleServer "b") (fun _ => true) →
        ¬(Request.create .secret o).Touches k ns' place := by
  have hne : (stamped 2 (sampleServer "a")).anyName ≠ (sampleServer "b").anyName := by decide
  have hab : ¬Shadows (stamped 2 (sampleServer "a")) (sampleServer "b") := by
    rintro ⟨-, heq⟩
    exact absurd heq (by decide +kernel)
  have hba : ¬Shadows (sampleServer "b") (stamped 2 (sampleServer "a")) := by
    rintro ⟨-, heq⟩
    exact absurd heq (by decide +kernel)
  obtain ⟨hshared, huntouched⟩ := names_separate hne
  refine ⟨hne, fun h => ((hshared _ _).1 h).elim hab hba, ?_⟩
  have hrun := run_drawing (flaky_drawing fun _ => false) "secret" (reconcile {} "push" "a").run
    sampleCluster
  obtain ⟨o, a, hmem⟩ : ∃ (o : Secret) (a : _), .call (.create .secret o) a ∈
      trial (fun _ => false) sampleCluster :=
    exists_create_of_any (by decide +kernel)
  obtain ⟨x, hsteps, -⟩ := Steps.of_run hrun
  obtain ⟨before, after, next, c₁, c₂, -, hbefore, -⟩ := hsteps.of_mem hmem
  have hamid := hbefore.mono (amid_of_flaky fun _ => Becomes.refl)
  obtain ⟨server, hfetches, -, -⟩ := touches_of_steps (fun _ _ h => h) stamped_sampleCluster hamid
    (by decide) ⟨rfl, rfl, rfl⟩
  have hserver := get?_of_fetches hfetches hbefore
  obtain rfl := Option.some.inj (get?_sampleCluster.symm.trans hserver)
  refine ⟨before, o, next, c₁, hbefore, hfetches, ?_⟩
  intro k hk ns' place hwanted htouches
  exact huntouched hab hba _ _ _ _ _ _ _ _ _ (fun _ _ h => h) stamped_sampleCluster hamid
    hfetches k hk ns' place _ hwanted htouches

/-! ## A server that is called like a database -/

/-- The server "a" runs a database, and another server is called like it. All servers are new. -/
def shadowedCluster : Cluster :=
  (sampleCluster.store "push" "a-postgresql" (sampleServer "a-postgresql")).2

/-- The cluster after a pass over "a" that could not list the jobs. -/
def adoptedCluster : Cluster := (tried Request.listsJobs shadowedCluster).2

/-- Whether a deployment is found that belongs to "a". -/
def Entry.adopts : Entry → Bool
  | .call (.get .deployment ns name) (.ok (some live)) =>
    ns = "push" ∧ name = "a-postgresql" ∧ live.metadata.isOwnedBy (some "uid-a") = true
  | _ => false

theorem exists_adopted_of_any {t : Trace} (h : t.any Entry.adopts = true) :
    ∃ live : Deployment, .call (.get .deployment "push" "a-postgresql") (.ok (some live)) ∈ t ∧
      live.metadata.isOwnedBy (some "uid-a") = true := by
  obtain ⟨e, he, hadopts⟩ := List.any_eq_true.1 h
  unfold Entry.adopts at hadopts
  split at hadopts
  · next ns name live =>
    obtain ⟨rfl, rfl, howned⟩ := of_decide_eq_true hadopts
    exact ⟨live, he, howned⟩
  · cases hadopts

/-- Whether a deployment is created under the name of the other server. -/
def Entry.createsShadowed : Entry → Bool
  | .call (.create .deployment o) _ => nameOf o = "a-postgresql"
  | _ => false

theorem not_created_of_all {t : Trace} (h : t.all (fun e => !e.createsShadowed) = true)
    (o : Deployment) (a : _) (hmem : .call (.create .deployment o) a ∈ t) :
    nameOf o ≠ "a-postgresql" := by
  intro hname
  have hnot := List.all_eq_true.1 h _ hmem
  rw [Entry.createsShadowed, decide_eq_true hname] at hnot
  cases hnot

/-- What a pass over that server does in which nothing is refused. -/
def adoption : Trace :=
  (reconcile {} "push" "a-postgresql").run.trace (drawing (fun _ => false) "secret") adoptedCluster

/-- The pass over the other server finds the database of "a" in place of its own deployment, creates
none, and ends well. -/
theorem adopted_shadowedCluster : ∃ (t t' : Trace) (c' : Cluster) (live : Deployment),
    Run flaky (reconcile {} "push" "a").run shadowedCluster t (some (.ok (.requeue 5)))
      adoptedCluster ∧
    Run reliable (reconcile {} "push" "a-postgresql").run adoptedCluster t'
      (some (.ok (.requeue 30))) c' ∧
    .call (.get .deployment "push" "a-postgresql") (.ok (some live)) ∈ t' ∧
    live.metadata.isOwnedBy (some "uid-a") = true ∧
    (∀ (o : Deployment) a, .call (.create .deployment o) a ∈ t' → nameOf o ≠ "a-postgresql") ∧
    (sampleServer "a").anyName ≠ (sampleServer "a-postgresql").anyName ∧
    (.deployment, "a-postgresql") ∈ wanted (sampleServer "a") (fun _ => true) ∧
    (.deployment, "a-postgresql") ∈ wanted (sampleServer "a-postgresql") fun _ => true := by
  have hfirst : Run flaky (reconcile {} "push" "a").run shadowedCluster _
      (some (.ok (.requeue 5))) adoptedCluster :=
    run_tried (flaky_drawing Request.listsJobs) (by decide +kernel)
  have hsecond : Run reliable (reconcile {} "push" "a-postgresql").run adoptedCluster
      adoption _ _ :=
    run_drawing (fun _ _ => rfl) "secret" _ _
  have hended : ((reconcile {} "push" "a-postgresql").run.run (drawing (fun _ => false) "secret")
      adoptedCluster).1 = .ok (.requeue 30) :=
    Rehearsal.eq_ok_of_toOption (by decide +kernel)
  rw [hended] at hsecond
  have hshadows : Shadows (sampleServer "a") (sampleServer "a-postgresql") :=
    ⟨rfl, by decide +kernel⟩
  obtain ⟨live, hfound, howned⟩ := exists_adopted_of_any (t := adoption) (by decide +kernel)
  have hcreated := not_created_of_all (t := adoption) (by decide +kernel)
  exact ⟨_, adoption, _, live, hfirst, hsecond, hfound, howned, hcreated, by decide,
    wanted_of_shadows hshadows⟩

end PushOperator
