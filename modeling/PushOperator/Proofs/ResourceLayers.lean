import Mathlib.Tactic.Common
import PushOperator.Proofs.Child.Place
import PushOperator.Proofs.Dict

/-!
# Layers of resources

The limits and the requests of a container are overrides that lie over the defaults for memory and
CPU. Here is when they can be layered (`Usable`) and what comes of it (`LiesOver`), and that nothing
can be laid under what is layered already: it has both keys, so no default counts any more.
-/

namespace PushOperator

/-- A text that is read as a quantity. -/
def Quantity.Parses (text : String) : Prop := ∃ quantity, parse text = .ok quantity

/-- What is read is the text itself. -/
theorem Quantity.parse_eq_ok {text quantity : String} :
    parse text = .ok quantity ↔ Parses text ∧ quantity = text := by
  constructor
  · intro h
    refine ⟨⟨quantity, h⟩, ?_⟩
    unfold parse at h
    split at h
    · exact (Except.ok.inj h).symm
    · cases h
  · rintro ⟨⟨quantity', h⟩, rfl⟩
    unfold parse at h ⊢
    split at h
    · next hvalid => rw [if_pos hvalid]
    · cases h

namespace ResourceRequirements

/-- The limits of overrides; where nothing is said, there are none. -/
def limitsOf (overrides : Option ResourceRequirements) : Dict String :=
  (overrides.bind (·.limits)).getD ∅

@[inherit_doc limitsOf]
def requestsOf (overrides : Option ResourceRequirements) : Dict String :=
  (overrides.bind (·.requests)).getD ∅

/-- All that is going to be read is a quantity: each override, and a default where there is no
override. -/
structure Usable (upper : Dict String) (memory cpu : String) : Prop where
  texts : ∀ key text, upper.get? key = some text → Quantity.Parses text
  memory : upper.get? "memory" = none → Quantity.Parses memory
  cpu : upper.get? "cpu" = none → Quantity.Parses cpu

/-- Overrides with the defaults for memory and CPU under them. -/
structure LiesOver (d upper : Dict String) (memory cpu : String) : Prop where
  keys : ∀ key, key ∈ d.keys ↔ key ∈ upper.keys ∨ key = "memory" ∨ key = "cpu"
  texts : ∀ key text, upper.get? key = some text → d.get? key = some text
  memory : upper.get? "memory" = none → d.get? "memory" = some memory
  cpu : upper.get? "cpu" = none → d.get? "cpu" = some cpu

variable {upper d d' : Dict String} {memory cpu key default : String}

/-! ## One map -/

/-- The overrides are read one by one, each as itself. -/
theorem mapM_parse_eq_ok {entries read : List (String × String)} :
    (entries.mapM fun (key, text) => return (key, ← Quantity.parse text) :
        Except Error (List (String × String))) = .ok read ↔
      (∀ entry ∈ entries, Quantity.Parses entry.2) ∧ read = entries := by
  induction entries generalizing read with
  | nil =>
    rw [List.mapM_nil, pure_eq_ok]
    simp [eq_comm]
  | cons entry rest ih =>
    rw [List.mapM_cons, List.forall_mem_cons]
    constructor
    · intro h
      obtain ⟨first, hfirst, h⟩ := bind_eq_ok.1 h
      obtain ⟨others, hothers, h⟩ := bind_eq_ok.1 h
      obtain rfl := pure_eq_ok.1 h
      obtain ⟨quantity, hquantity, hfirst⟩ := bind_eq_ok.1 hfirst
      obtain rfl := pure_eq_ok.1 hfirst
      obtain ⟨hparses, rfl⟩ := Quantity.parse_eq_ok.1 hquantity
      obtain ⟨hrest, rfl⟩ := ih.1 hothers
      exact ⟨⟨hparses, hrest⟩, rfl⟩
    · rintro ⟨⟨hparses, hrest⟩, rfl⟩
      refine bind_eq_ok.2 ⟨entry, ?_, bind_eq_ok.2 ⟨rest, ih.2 ⟨hrest, rfl⟩, rfl⟩⟩
      exact bind_eq_ok.2 ⟨entry.2, Quantity.parse_eq_ok.2 ⟨hparses, rfl⟩, rfl⟩

/-- A default goes where nothing stands, and has to be a quantity only there. -/
theorem fillIn_eq_ok : fillIn d key default = .ok d' ↔
    (d.get? key = none → Quantity.Parses default) ∧
      d' = d.insert key ((d.get? key).getD default) := by
  unfold fillIn Dict.contains
  cases hkey : d.get? key with
  | some text =>
    have hself : d.insert key text = d := Dict.insert_self hkey
    constructor
    · intro h
      obtain rfl : d = d' := Except.ok.inj h
      exact ⟨nofun, hself.symm⟩
    · rintro ⟨-, rfl⟩
      exact congrArg Except.ok hself.symm
  | none =>
    constructor
    · intro h
      obtain ⟨quantity, hquantity, hinsert⟩ := bind_eq_ok.1 h
      obtain ⟨hparses, rfl⟩ := Quantity.parse_eq_ok.1 hquantity
      exact ⟨fun _ => hparses, (pure_eq_ok.1 hinsert).symm⟩
    · rintro ⟨hparses, rfl⟩
      exact bind_eq_ok.2 ⟨default, Quantity.parse_eq_ok.2 ⟨hparses rfl, rfl⟩, rfl⟩

/-- Overrides with the defaults filled in. -/
def overDefaults (upper : Dict String) (memory cpu : String) : Dict String :=
  (upper.insert "memory" ((upper.get? "memory").getD memory)).insert "cpu"
    ((upper.get? "cpu").getD cpu)

theorem get?_overDefaults (upper : Dict String) (memory cpu key : String) :
    (overDefaults upper memory cpu).get? key = (upper.get? key).or
      (if key = "cpu" then some cpu else if key = "memory" then some memory else none) := by
  unfold overDefaults
  rw [Dict.get?_insert, Dict.get?_insert]
  by_cases hcpu : key = "cpu"
  · subst hcpu
    cases upper.get? "cpu" <;> simp
  · by_cases hmemory : key = "memory"
    · subst hmemory
      cases upper.get? "memory" <;> simp
    · simp [hcpu, hmemory]

theorem liesOver_overDefaults (upper : Dict String) (memory cpu : String) :
    LiesOver (overDefaults upper memory cpu) upper memory cpu := by
  constructor
  · intro key
    rw [Dict.mem_keys_iff, Dict.mem_keys_iff, Dict.contains, Dict.contains, get?_overDefaults]
    by_cases hcpu : key = "cpu"
    · simp [hcpu]
    · by_cases hmemory : key = "memory"
      · simp [hmemory]
      · simp [hcpu, hmemory]
  · intro key text hkey
    rw [get?_overDefaults, hkey]
    rfl
  · intro hkey
    rw [get?_overDefaults, hkey]
    rfl
  · intro hkey
    rw [get?_overDefaults, hkey]
    rfl

/-- A map that is usable is layered. -/
theorem layer_eq_ok {given : Option (Dict String)} : layer given memory cpu = .ok d ↔
    Usable (given.getD ∅) memory cpu ∧ d = overDefaults (given.getD ∅) memory cpu := by
  have htexts : (∀ entry ∈ (given.getD ∅).entries, Quantity.Parses entry.2) ↔
      ∀ key text, (given.getD ∅).get? key = some text → Quantity.Parses text := by
    simp only [Prod.forall, Dict.get?_eq_some_iff]
  -- The first default does not go where the second one goes.
  have hcpu (text : String) :
      ((given.getD ∅).insert "memory" text).get? "cpu" = (given.getD ∅).get? "cpu" :=
    Dict.get?_insert _ _ _ _
  unfold layer
  constructor
  · intro h
    obtain ⟨entries, hentries, hfill⟩ := bind_eq_ok.1 h
    obtain ⟨hparses, rfl⟩ := mapM_parse_eq_ok.1 hentries
    rw [Dict.ofList_entries] at hfill
    obtain ⟨first, hfirst, hsecond⟩ := bind_eq_ok.1 hfill
    obtain ⟨hmemory, rfl⟩ := fillIn_eq_ok.1 hfirst
    rw [fillIn_eq_ok, hcpu] at hsecond
    exact ⟨⟨htexts.1 hparses, hmemory, hsecond.1⟩, hsecond.2⟩
  · rintro ⟨husable, rfl⟩
    refine bind_eq_ok.2 ⟨_, mapM_parse_eq_ok.2 ⟨htexts.2 husable.texts, rfl⟩, ?_⟩
    rw [Dict.ofList_entries]
    refine bind_eq_ok.2 ⟨_, fillIn_eq_ok.2 ⟨husable.memory, rfl⟩, ?_⟩
    rw [fillIn_eq_ok, hcpu]
    exact ⟨husable.cpu, rfl⟩

/-- There is something under both keys. -/
theorem exists_overDefaults (upper : Dict String) (memory cpu : String) :
    (∃ text, (overDefaults upper memory cpu).get? "memory" = some text) ∧
      ∃ text, (overDefaults upper memory cpu).get? "cpu" = some text := by
  rw [get?_overDefaults, get?_overDefaults]
  constructor
  · cases upper.get? "memory" <;> simp
  · cases upper.get? "cpu" <;> simp

/-- So no other default can be seen there. -/
theorem overDefaults_overDefaults (upper : Dict String) (memory cpu memory' cpu' : String) :
    overDefaults (overDefaults upper memory cpu) memory' cpu' = overDefaults upper memory cpu := by
  obtain ⟨⟨text, hmemory⟩, text', hcpu⟩ := exists_overDefaults upper memory cpu
  rw [overDefaults, hmemory, Option.getD_some, Dict.insert_self hmemory, hcpu, Option.getD_some,
    Dict.insert_self hcpu]

/-- All that was layered has been read. -/
theorem Usable.overDefaults (h : Usable upper memory cpu) (memory' cpu' : String) :
    Usable (overDefaults upper memory cpu) memory' cpu' := by
  constructor
  · intro key text hkey
    rw [get?_overDefaults] at hkey
    cases hupper : upper.get? key with
    | some text' =>
      rw [hupper] at hkey
      obtain rfl : text' = text := Option.some.inj hkey
      exact h.texts key text' hupper
    | none =>
      rw [hupper, Option.none_or] at hkey
      split at hkey
      · next heq =>
        subst heq
        exact Option.some.inj hkey ▸ h.cpu hupper
      · split at hkey
        · next heq =>
          subst heq
          exact Option.some.inj hkey ▸ h.memory hupper
        · cases hkey
  · intro hnone
    obtain ⟨⟨text, hmemory⟩, -⟩ := exists_overDefaults upper memory cpu
    rw [hmemory] at hnone
    cases hnone
  · intro hnone
    obtain ⟨-, text, hcpu⟩ := exists_overDefaults upper memory cpu
    rw [hcpu] at hnone
    cases hnone

/-! ## Limits and requests -/

theorem layered_eq_ok {overrides : Option ResourceRequirements} {defaults : ResourceDefaults}
    {resources : ResourceRequirements} : layered overrides defaults = .ok resources ↔
    Usable (limitsOf overrides) defaults.memoryLimit defaults.cpuLimit ∧
      Usable (requestsOf overrides) defaults.memoryRequest defaults.cpuRequest ∧
      resources = {
        limits := some (overDefaults (limitsOf overrides) defaults.memoryLimit defaults.cpuLimit)
        requests := some
          (overDefaults (requestsOf overrides) defaults.memoryRequest defaults.cpuRequest) } := by
  unfold layered
  constructor
  · intro h
    obtain ⟨limits, hlimits, hrest⟩ := bind_eq_ok.1 h
    obtain ⟨requests, hrequests, hend⟩ := bind_eq_ok.1 hrest
    obtain ⟨husable, rfl⟩ := layer_eq_ok.1 hlimits
    obtain ⟨husable', rfl⟩ := layer_eq_ok.1 hrequests
    exact ⟨husable, husable', (pure_eq_ok.1 hend).symm⟩
  · rintro ⟨husable, husable', rfl⟩
    refine bind_eq_ok.2 ⟨_, layer_eq_ok.2 ⟨husable, rfl⟩, ?_⟩
    exact bind_eq_ok.2 ⟨_, layer_eq_ok.2 ⟨husable', rfl⟩, rfl⟩

/-- Resources are layered exactly when all overrides and all defaults that are not overridden are
quantities. Then each of the two maps has the keys of its overrides, memory and CPU, with the
override wherever there is one. Layering once more changes nothing, whatever the defaults are. -/
theorem layered_over_defaults (overrides : Option ResourceRequirements)
    (defaults : ResourceDefaults) :
    ((∃ resources, layered overrides defaults = .ok resources) ↔
      Usable (limitsOf overrides) defaults.memoryLimit defaults.cpuLimit ∧
        Usable (requestsOf overrides) defaults.memoryRequest defaults.cpuRequest) ∧
    ∀ resources, layered overrides defaults = .ok resources →
      (∃ limits requests, resources = { limits := some limits, requests := some requests } ∧
        LiesOver limits (limitsOf overrides) defaults.memoryLimit defaults.cpuLimit ∧
        LiesOver requests (requestsOf overrides) defaults.memoryRequest defaults.cpuRequest) ∧
      ∀ others, layered (some resources) others = .ok resources := by
  constructor
  · constructor
    · rintro ⟨resources, h⟩
      obtain ⟨husable, husable', -⟩ := layered_eq_ok.1 h
      exact ⟨husable, husable'⟩
    · rintro ⟨husable, husable'⟩
      exact ⟨_, layered_eq_ok.2 ⟨husable, husable', rfl⟩⟩
  · intro resources h
    obtain ⟨husable, husable', rfl⟩ := layered_eq_ok.1 h
    constructor
    · exact ⟨_, _, rfl, liesOver_overDefaults _ _ _, liesOver_overDefaults _ _ _⟩
    · intro others
      refine layered_eq_ok.2 ⟨husable.overDefaults _ _, husable'.overDefaults _ _, ?_⟩
      simp only [limitsOf, requestsOf, Option.bind_some, Option.getD_some,
        overDefaults_overDefaults]

/-- Overrides of one limit, and of a request that there is no default for. -/
def sampleOverrides : ResourceRequirements where
  limits := some (Dict.ofList [("memory", "4Gi")])
  requests := some (Dict.ofList [("ephemeral-storage", "1Gi")])

/-- A default that is overridden may be any text. -/
theorem layered_over_defaults_sample : ∃ resources,
    layered (some sampleOverrides) ⟨"lots", "512Mi", "1", "500m"⟩ = .ok resources ∧
      (resources.limits.bind (·.get? "memory")) = some "4Gi" ∧
      layered (some resources) ⟨"", "", "", ""⟩ = .ok resources := by
  have hlayered : layered (some sampleOverrides) ⟨"lots", "512Mi", "1", "500m"⟩ = .ok {
      limits := some (Dict.ofList [("cpu", "1"), ("memory", "4Gi")])
      requests := some (Dict.ofList
        [("cpu", "500m"), ("ephemeral-storage", "1Gi"), ("memory", "512Mi")]) } := by
    rfl
  obtain ⟨-, hself⟩ := (layered_over_defaults _ _).2 _ hlayered
  exact ⟨_, hlayered, rfl, hself _⟩

end ResourceRequirements

end PushOperator
