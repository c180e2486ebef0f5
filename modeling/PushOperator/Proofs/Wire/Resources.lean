import PushOperator.Kind
import PushOperator.Proofs.Wire.Schema

/-!
# Records that are read back

The records of the operator's own kinds are read back from the objects they are written as: every
one of those that have no field in the form of a schema, and of the others every one whose fields
fit their schemas. That is so of every record that was read. A record reads each field under the
name that it is written under, and in the way that suits how it is written; what that comes to is
what the lemmas on fields say.
-/

namespace PushOperator

/-! ## Small types -/

instance : LawfulWire IntOrString where
  readsBack
    | .int n => ⟨congrArg (Option.map IntOrString.int) (ofJson?_toJson n), nofun⟩
    | .string _ => ⟨rfl, nofun⟩

instance : LawfulWire OwnerReference where
  readsBack _ := ⟨by dsimp only [toJson, ofJson?]; simp, nofun⟩

instance : LawfulWire LabelRequirement where
  readsBack _ := ⟨by dsimp only [toJson, ofJson?]; simp, nofun⟩

instance : LawfulWire LabelSelector where
  readsBack _ := ⟨by dsimp only [toJson, ofJson?]; simp, nofun⟩

instance : LawfulWire Toleration where
  readsBack _ := ⟨by dsimp only [toJson, ofJson?]; simp, nofun⟩

instance : LawfulWire Registry where
  readsBack r := ⟨congrArg (Option.map Registry.mk) (ofJson?_toJson r.kinds), nofun⟩

instance : LawfulWire Phase where
  readsBack p := ⟨by cases p <;> decide, nofun⟩

/-! ## The message broker -/

instance : LawfulWire AddressSpaceSpec where
  readsBack _ := ⟨by dsimp only [toJson, ofJson?]; simp, nofun⟩

instance : LawfulWire EndpointStatus where
  readsBack _ := ⟨by dsimp only [toJson, ofJson?]; simp, nofun⟩

instance : LawfulWire AddressSpaceStatus where
  readsBack _ := ⟨by dsimp only [toJson, ofJson?]; simp, nofun⟩

instance : LawfulWire AddressSpec where
  readsBack _ := ⟨by dsimp only [toJson, ofJson?]; simp, nofun⟩

instance : LawfulWire AddressStatus where
  readsBack _ := ⟨by dsimp only [toJson, ofJson?]; simp, nofun⟩

instance : LawfulWire UserAuthentication where
  readsBack _ := ⟨by dsimp only [toJson, ofJson?]; simp, nofun⟩

instance : LawfulWire UserAuthorization where
  readsBack _ := ⟨by dsimp only [toJson, ofJson?]; simp, nofun⟩

instance : LawfulWire MessagingUserSpec where
  readsBack _ := ⟨by dsimp only [toJson, ofJson?]; simp, nofun⟩

/-! ## Monitoring -/

instance : LawfulWire MetricsEndpoint where
  readsBack _ := ⟨by dsimp only [toJson, ofJson?]; simp, nofun⟩

instance : LawfulWire ServiceMonitorSpec where
  readsBack _ := ⟨by dsimp only [toJson, ofJson?]; simp, nofun⟩

instance : LawfulWire AlertRule where
  readsBack _ := ⟨by dsimp only [toJson, ofJson?]; simp, nofun⟩

instance : LawfulWire RuleGroup where
  readsBack _ := ⟨by dsimp only [toJson, ofJson?]; simp, nofun⟩

instance : LawfulWire PrometheusRuleSpec where
  readsBack _ := ⟨by dsimp only [toJson, ofJson?]; simp, nofun⟩

instance : LawfulWire GrafanaDashboardSpec where
  readsBack _ := ⟨by dsimp only [toJson, ofJson?]; simp, nofun⟩

/-! ## Routes and older kinds -/

instance : LawfulWire RouteTarget where
  readsBack _ := ⟨by dsimp only [toJson, ofJson?]; simp, nofun⟩

instance : LawfulWire TlsConfig where
  readsBack _ := ⟨by dsimp only [toJson, ofJson?]; simp, nofun⟩

instance : LawfulWire RouteSpec where
  readsBack _ := ⟨by dsimp only [toJson, ofJson?]; simp, nofun⟩

instance : LawfulWire RouteCondition where
  readsBack _ := ⟨by dsimp only [toJson, ofJson?]; simp, nofun⟩

instance : LawfulWire RouteIngress where
  readsBack _ := ⟨by dsimp only [toJson, ofJson?]; simp, nofun⟩

instance : LawfulWire RouteStatus where
  readsBack _ := ⟨by dsimp only [toJson, ofJson?]; simp, nofun⟩

instance : LawfulWire DeploymentConfigSpec where
  readsBack _ := ⟨by dsimp only [toJson, ofJson?]; simp, nofun⟩

instance : LawfulWire ImageStreamSpec where
  readsBack _ := ⟨by dsimp only [toJson, ofJson?]; simp, nofun⟩

/-! ## Push servers -/

instance : LawfulWire Database where
  readsBack _ := ⟨by dsimp only [toJson, ofJson?]; simp, nofun⟩

instance : LawfulWire Backup where
  readsBack _ := ⟨by dsimp only [toJson, ofJson?]; simp, nofun⟩

instance : LawfulWire ServerStatus where
  readsBack _ := ⟨by dsimp only [toJson, ofJson?]; simp, nofun⟩

/-! ## Records with fields in the form of a schema -/

/-- The other fields are in the form of their schema. -/
def ObjectMeta.Fits (m : ObjectMeta) : Prop := Schema.FieldsFit otherSchema m.other

/-- The other fields are in the form of their schema. -/
def ResourceRequirements.Fits (r : ResourceRequirements) : Prop :=
  Schema.FieldsFit otherSchema r.other

/-- The rules are in the form of their schema. -/
def Affinity.Fits (a : Affinity) : Prop := Schema.FieldsFit PodSchema.affinityFields a.rules

/-- All that the spec of a server has in the form of a schema is in that form. -/
structure ServerSpec.Fits (spec : ServerSpec) : Prop where
  unifiedPush : ∀ r ∈ spec.unifiedPushResourceRequirements, r.Fits
  oAuth : ∀ r ∈ spec.oAuthResourceRequirements, r.Fits
  postgres : ∀ r ∈ spec.postgresResourceRequirements, r.Fits
  affinity : ∀ a ∈ spec.affinity, a.Fits

theorem ObjectMeta.Fits.readsBack {m : ObjectMeta} (h : m.Fits) : ReadsBack m := by
  refine ⟨?_, nofun⟩
  dsimp only [toJson, ofJson?]
  rw [Json.fields?_ofFields, Option.bind_eq_bind, Option.bind_some,
    Schema.conformFields_ofList (by decide) h (by simp [Schema.names, otherSchema, Schema.opt])]
  -- None of the other fields is read for one of the metadata's own.
  simp (disch := decide) [Schema.written_eq_none h]

theorem ObjectMeta.fits_of_ofJson? {j : Json} {m : ObjectMeta} (h : ofJson? j = some m) :
    m.Fits := by
  obtain ⟨f, -, h⟩ := Option.bind_eq_some_iff.1 h
  simp only [Option.bind_eq_bind, Option.bind_eq_some_iff, Option.pure_def, Option.some.injEq] at h
  obtain ⟨-, -, -, -, -, -, -, -, -, -, -, -, -, -, -, -, -, -, other, hother, rfl⟩ := h
  exact Schema.fieldsFit_of_conformFields otherSchema hother

theorem ResourceRequirements.Fits.readsBack {r : ResourceRequirements} (h : r.Fits) :
    ReadsBack r := by
  refine ⟨?_, nofun⟩
  dsimp only [toJson, ofJson?]
  rw [Json.fields?_ofFields, Option.bind_eq_bind, Option.bind_some,
    Schema.conformFields_ofList (by decide) h (by simp [Schema.names, otherSchema, Schema.opt])]
  simp (disch := decide) [Schema.written_eq_none h]

theorem ResourceRequirements.fits_of_ofJson? {j : Json} {r : ResourceRequirements}
    (h : ofJson? j = some r) : r.Fits := by
  obtain ⟨f, -, h⟩ := Option.bind_eq_some_iff.1 h
  simp only [Option.bind_eq_bind, Option.bind_eq_some_iff, Option.pure_def, Option.some.injEq] at h
  obtain ⟨limits, -, requests, -, other, hother, rfl⟩ := h
  exact Schema.fieldsFit_of_conformFields otherSchema hother

theorem Affinity.Fits.readsBack {a : Affinity} (h : a.Fits) : ReadsBack a := by
  have hrules := Schema.conformFields_of_fieldsFit PodSchema.affinityFields (by decide) h
  refine ⟨?_, nofun⟩
  dsimp only [toJson, ofJson?]
  rw [Json.fields?, Option.bind_eq_bind, Option.bind_some, hrules]
  rfl

theorem Affinity.fits_of_ofJson? {j : Json} {a : Affinity} (h : ofJson? j = some a) : a.Fits := by
  obtain ⟨f, -, h⟩ := Option.bind_eq_some_iff.1 h
  obtain ⟨rules, hrules, h⟩ := Option.bind_eq_some_iff.1 h
  cases h
  exact Schema.fieldsFit_of_conformFields PodSchema.affinityFields hrules

theorem ServerSpec.Fits.readsBack {spec : ServerSpec} (h : spec.Fits) : ReadsBack spec := by
  have hresources {r : Option ResourceRequirements} (hfits : ∀ x ∈ r, x.Fits) :
      r.elim (some none) (Fields.orNull ofJson? ∘ toJson) = some r :=
    elim_orNull fun x hx => (hfits x hx).readsBack
  have hplace : spec.affinity.elim (some none) (Fields.orNull ofJson? ∘ toJson) =
      some spec.affinity := elim_orNull fun x hx => (h.affinity x hx).readsBack
  refine ⟨?_, nofun⟩
  dsimp only [toJson, ofJson?]
  simp [hresources h.unifiedPush, hresources h.oAuth, hresources h.postgres, hplace]

theorem ServerSpec.fits_of_ofJson? {j : Json} {spec : ServerSpec} (h : ofJson? j = some spec) :
    spec.Fits := by
  obtain ⟨f, -, h⟩ := Option.bind_eq_some_iff.1 h
  simp only [Option.bind_eq_bind, Option.bind_eq_some_iff, Option.pure_def, Option.some.injEq] at h
  obtain ⟨-, -, -, -, -, -, -, -, -, -, ups, hups, oauth, hoauth, postgres, hpostgres, -, -,
    affinity, haffinity, -, -, rfl⟩ := h
  have hresources {name : String} {r : Option ResourceRequirements}
      (hread : Fields.optional f name = some r) : ∀ x ∈ r, x.Fits := by
    intro x hx
    obtain ⟨j, hj⟩ := Fields.exists_of_optional (hx ▸ hread)
    exact ResourceRequirements.fits_of_ofJson? hj
  have hplace : ∀ a ∈ affinity, a.Fits := by
    intro a ha
    obtain ⟨j, hj⟩ := Fields.exists_of_optional (ha ▸ haffinity)
    exact Affinity.fits_of_ofJson? hj
  exact ⟨hresources hups, hresources hoauth, hresources hpostgres, hplace⟩

end PushOperator
