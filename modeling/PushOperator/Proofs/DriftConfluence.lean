import PushOperator.Proofs.DriftedFields

/-!
# Corrections in any order

The checks of a deployment put one field right at a time, and each of them looks for its container
anew. In whatever order they are applied, as long as one of them finds drift, they come to an end
after two corrections for each wanted container at most. What is left is the same in every order
(`corrections_confluent`): no correction changes what the deployment has to become (`restored`), and
a deployment that no check finds fault with is what it has to become.
-/

namespace PushOperator

/-- A live container with the resources and the image of a wanted one. -/
def Container.restored (live expected : Container) : Container :=
  { live with resources := expected.resources, image := expected.image }

namespace Deployment

variable {found desired x o : Deployment} {wanted live : List Container} {expected : Container}
  {f : Container → Container} {name : String}

/-! ## What a deployment has to become -/

/-- The first live container of a wanted name takes the resources and the image that are wanted for
it. This uses the wanted container up, so later containers of that name stay as they are, and so do
those of other names. -/
def restoreContainers (wanted : List Container) : List Container → List Container
  | [] => []
  | live :: rest =>
    match findContainer wanted live.name with
    | some expected =>
      live.restored expected :: restoreContainers (wanted.filter (·.name ≠ live.name)) rest
    | none => live :: restoreContainers wanted rest

/-- The live deployment with its containers put right and all else as it is. -/
def restored (found desired : Deployment) : Deployment :=
  mapContainers (restoreContainers (containers desired)) found

/-! ## Corrections -/

/-- A check answers the live deployment with something put right: that of the resources, or that of
the image of a wanted container. -/
inductive Correction (desired : Deployment) : Deployment → Deployment → Prop
  | resources {found o : Deployment} : resourcesDrift found desired = some o →
    Correction desired found o
  | image {found o : Deployment} {name : String} : name ∈ (containers desired).map (·.name) →
    imageDrift found desired name = some o → Correction desired found o

/-- So many corrections, each of what the one before has left. -/
inductive Corrections (desired found : Deployment) : Nat → Deployment → Prop
  | none : Corrections desired found 0 found
  | next {x o : Deployment} {n : Nat} : Corrections desired found n x → Correction desired x o →
    Corrections desired found (n + 1) o

/-- No check finds anything to put right. -/
def Settled (desired found : Deployment) : Prop := ∀ o, ¬Correction desired found o

theorem settled_iff (hnames : ((containers desired).map (·.name)).Nodup) :
    Settled desired found ↔ Matches found desired := by
  rw [matches_iff hnames]
  constructor
  · intro h
    constructor
    · exact Option.eq_none_iff_forall_not_mem.2 fun o ho => h o (.resources ho)
    · intro expected hexpected
      have hname := List.mem_map_of_mem (f := (·.name)) hexpected
      exact Option.eq_none_iff_forall_not_mem.2 fun o ho => h o (.image hname ho)
  · rintro ⟨hresources, himage⟩ o hcorrection
    cases hcorrection with
    | resources ho =>
      rw [hresources] at ho
      cases ho
    | image hname ho =>
      obtain ⟨expected, hexpected, rfl⟩ := List.mem_map.1 hname
      rw [himage expected hexpected] at ho
      cases ho

/-! ## Where nothing has to be put right -/

theorem restored_eq_self {live expected : Container}
    (hresources : live.resources = expected.resources) (himage : live.image = expected.image) :
    live.restored expected = live := by
  unfold Container.restored
  rw [← hresources, ← himage]

theorem restoreContainers_eq_self (h : ∀ expected ∈ wanted, ∀ container,
    findContainer live expected.name = some container →
      container.resources = expected.resources ∧ container.image = expected.image) :
    restoreContainers wanted live = live := by
  induction live generalizing wanted with
  | nil => rfl
  | cons head rest ih =>
    -- Behind the first container all that counts are the wanted ones of other names.
    have hrest (expected : Container) (hmem : expected ∈ wanted) (hne : expected.name ≠ head.name)
        (container : Container) (hfind : findContainer rest expected.name = some container) :
        container.resources = expected.resources ∧ container.image = expected.image := by
      refine h expected hmem container ?_
      rw [findContainer, List.find?_cons_of_neg (by simpa using Ne.symm hne)]
      exact hfind
    unfold restoreContainers
    cases hfind : findContainer wanted head.name with
    | some expected =>
      obtain ⟨hmem, hname⟩ := findContainer_mem hfind
      have hhead : findContainer (head :: rest) expected.name = some head := by
        simp [findContainer, hname]
      obtain ⟨hresources, himage⟩ := h expected hmem head hhead
      have htail : restoreContainers (wanted.filter (·.name ≠ head.name)) rest = rest := by
        refine ih fun expected hmem => ?_
        obtain ⟨hmem, hne⟩ := List.mem_filter.1 hmem
        exact hrest expected hmem (by simpa using hne)
      simp only [restored_eq_self hresources himage, htail]
    | none =>
      have htail : restoreContainers wanted rest = rest := by
        refine ih fun expected hmem => hrest expected hmem fun hname => ?_
        have hall := List.find?_eq_none.1 hfind expected hmem
        simp [hname] at hall
      simp only [htail]

theorem mapContainers_mapContainers (f g : List Container → List Container) (d : Deployment) :
    mapContainers f (mapContainers g d) = mapContainers (f ∘ g) d := by
  unfold mapContainers
  cases hspec : d.spec with
  | none => rfl
  | some spec => cases hpod : spec.template.spec <;> simp [hpod]

theorem mapContainers_eq_self {g : List Container → List Container}
    (h : g (containers found) = containers found) : mapContainers g found = found := by
  rw [mapContainers_eq_const, h]
  obtain ⟨metadata, spec, status⟩ := found
  cases spec with
  | none => rfl
  | some spec =>
    obtain ⟨_, _, _, ⟨_, pod⟩, _⟩ := spec
    cases pod <;> rfl

/-- A deployment that matches has nothing to become. -/
theorem restored_of_matches (h : Matches found desired) : restored found desired = found :=
  mapContainers_eq_self (restoreContainers_eq_self h)

/-! ## What a correction leaves -/

theorem findContainer_filter_ne {other : String} (h : name ≠ other) :
    findContainer (wanted.filter (·.name ≠ other)) name = findContainer wanted name := by
  unfold findContainer
  rw [List.find?_filter]
  congr
  funext c
  by_cases hname : c.name = name
  · simp [hname, h]
  · simp [hname]

/-- A change of what is going to be replaced anyway. -/
theorem restoreContainers_modify (hname : ∀ c, (f c).name = c.name)
    (hf : ∀ c : Container, (f c).restored expected = c.restored expected)
    (hexpected : findContainer wanted name = some expected) :
    restoreContainers wanted (modifyContainer f name live) = restoreContainers wanted live := by
  induction live generalizing wanted with
  | nil => rfl
  | cons head rest ih =>
    unfold modifyContainer
    by_cases hhead : head.name = name
    · subst hhead
      simp [restoreContainers, hname, hexpected, hf]
    · have hother : findContainer (wanted.filter (·.name ≠ head.name)) name = some expected := by
        rw [findContainer_filter_ne (Ne.symm hhead), hexpected]
      simp only [beq_iff_eq, hhead, if_false, restoreContainers]
      cases hfind : findContainer wanted head.name with
      | some other => simp only [ih hother]
      | none => simp only [ih hexpected]

/-- No correction changes what the deployment has to become, and each one takes drift away. -/
theorem Correction.restored_eq (hnames : ((containers desired).map (·.name)).Nodup)
    (h : Correction desired found o) : restored o desired = restored found desired := by
  cases h with
  | resources hdrift =>
    obtain ⟨expected, hexpected, -, -, -, rfl⟩ := resourcesDrift_eq_some hdrift
    unfold restored
    rw [mapContainers_mapContainers]
    congr 1
    funext live
    exact restoreContainers_modify (fun _ => rfl) (fun _ => rfl)
      (findContainer_of_mem hnames hexpected)
  | image _ hdrift =>
    obtain ⟨expected, -, hexpected, -, -, rfl⟩ := imageDrift_eq_some hdrift
    unfold restored
    rw [mapContainers_mapContainers]
    congr 1
    funext live
    exact restoreContainers_modify (fun _ => rfl) (fun _ => rfl) hexpected

theorem Correction.drift_lt (hnames : ((containers desired).map (·.name)).Nodup)
    (h : Correction desired found o) : drift o desired < drift found desired := by
  cases h with
  | resources hdrift => exact drift_lt_of_resourcesDrift hnames hdrift
  | image _ hdrift => exact drift_lt_of_imageDrift hnames hdrift

/-! ## Runs of corrections -/

variable {n m : Nat}

theorem Corrections.trans (h : Corrections desired found n x) (h' : Corrections desired x m o) :
    Corrections desired found (n + m) o := by
  induction h' with
  | none => exact h
  | next _ hlast ih => exact .next ih hlast

theorem Corrections.restored_eq (hnames : ((containers desired).map (·.name)).Nodup)
    (h : Corrections desired found n x) : restored x desired = restored found desired := by
  induction h with
  | none => rfl
  | next _ hlast ih => exact (hlast.restored_eq hnames).trans ih

theorem Corrections.add_drift_le (hnames : ((containers desired).map (·.name)).Nodup)
    (h : Corrections desired found n x) : n + drift x desired ≤ drift found desired := by
  induction h with
  | none => omega
  | next _ hlast ih =>
    have hless := hlast.drift_lt hnames
    omega

/-- Corrections come to an end, and what they come to is what the deployment has to become. -/
theorem exists_corrections (hnames : ((containers desired).map (·.name)).Nodup)
    (found : Deployment) : ∃ n, Corrections desired found n (restored found desired) := by
  induction hdrift : drift found desired using Nat.strong_induction_on generalizing found with
  | _ amount ih =>
    subst hdrift
    by_cases hsettled : Settled desired found
    · rw [restored_of_matches ((settled_iff hnames).1 hsettled)]
      exact ⟨0, .none⟩
    · obtain ⟨o, hfirst⟩ : ∃ o, Correction desired found o := by
        by_contra hnone
        exact hsettled fun o ho => hnone ⟨o, ho⟩
      obtain ⟨n, hrest⟩ := ih _ (hfirst.drift_lt hnames) o rfl
      rw [hfirst.restored_eq hnames] at hrest
      exact ⟨0 + 1 + n, (Corrections.next .none hfirst).trans hrest⟩

theorem settled_restored (hnames : ((containers desired).map (·.name)).Nodup)
    (found : Deployment) : Settled desired (restored found desired) := by
  -- Another correction would lead on to where the deployment is already, with less drift.
  intro o hcorrection
  obtain ⟨_, hrun⟩ := exists_corrections hnames found
  obtain ⟨_, hrest⟩ := exists_corrections hnames o
  rw [hcorrection.restored_eq hnames, hrun.restored_eq hnames] at hrest
  have hless := hcorrection.drift_lt hnames
  have hle := hrest.add_drift_le hnames
  omega

/-- Corrections of a deployment, in whatever order they are made, are at most two for each wanted
container. They can go on as long as the deployment is not what it has to become, and they always
come there: the first live container of each wanted name then has the resources and the image that
are wanted, and nothing else has changed. -/
theorem corrections_confluent (hnames : ((containers desired).map (·.name)).Nodup)
    (h : Corrections desired found n x) : n ≤ 2 * (containers desired).length ∧
      (Settled desired x ↔ x = restored found desired) ∧
      ∃ m, Corrections desired x m (restored found desired) := by
  refine ⟨?_, ?_, ?_⟩
  · have hrun := h.add_drift_le hnames
    have hdrift := drift_le found desired
    omega
  · constructor
    · intro hsettled
      rw [← h.restored_eq hnames, restored_of_matches ((settled_iff hnames).1 hsettled)]
    · rintro rfl
      exact settled_restored hnames found
  · rw [← h.restored_eq hnames]
    exact exists_corrections hnames x

/-- A deployment that is only its containers. -/
def ofContainers (containers : List Container) : Deployment where
  metadata := {}
  spec := some { template := { spec := some { containers } } }
  status := none

/-- Containers of which one is not there and the other one is there twice. -/
def twinsFound : Deployment := ofContainers [
  { name := "log", image := some "log:1" },
  { name := "ups", image := some "ups:1", resources := some {}, args := some ["--verbose"] },
  { name := "ups", image := some "ups:1", resources := some {} }]

def twinsWanted : Deployment := ofContainers [
  { name := "proxy", image := some "proxy:2" },
  { name := "ups", image := some "ups:2" }]

/-- Image and resources of the first twin are put right, and then all is done. -/
theorem corrections_confluent_twins : ((containers twinsWanted).map (·.name)).Nodup ∧
    ∃ x, Corrections twinsWanted twinsFound 2 x ∧ Settled twinsWanted x ∧
      x = ofContainers [
        { name := "log", image := some "log:1" },
        { name := "ups", image := some "ups:2", args := some ["--verbose"] },
        { name := "ups", image := some "ups:1", resources := some {} }] := by
  have hnames : ((containers twinsWanted).map (·.name)).Nodup := by decide
  have himage : imageDrift twinsFound twinsWanted "ups" = some (ofContainers [
      { name := "log", image := some "log:1" },
      { name := "ups", image := some "ups:2", resources := some {}, args := some ["--verbose"] },
      { name := "ups", image := some "ups:1", resources := some {} }]) := rfl
  have hfirst : Corrections twinsWanted twinsFound 1 _ :=
    .next .none (.image (by decide) himage)
  have hsecond : Corrections twinsWanted twinsFound 2 (restored twinsFound twinsWanted) :=
    .next hfirst (.resources rfl)
  obtain ⟨-, hsettled, -⟩ := corrections_confluent hnames hsecond
  exact ⟨hnames, _, hsecond, hsettled.2 rfl, rfl⟩

end Deployment

end PushOperator
