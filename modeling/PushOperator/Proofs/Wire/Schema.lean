import PushOperator.Proofs.Timestamp
import PushOperator.Proofs.Wire.Fields

/-!
# Documents that fit a schema

Which documents are in the form of a schema is said here without conforming anything
(`Schema.Fits`). What a document is conformed to fits the schema (`fits_of_conform`), and what fits
it is left as it is (`conform_of_fits`). The fields of each object of the schema have to have
different names for the latter, or one of them would be read in place of another.
-/

namespace PushOperator

/-! ## Values of documents -/

namespace Json

/-- A document that is a value: all of it can be read, and the fields of every object have different
names and stand in ascending order of these. -/
inductive IsValue : Json → Prop
  | null : IsValue .null
  | bool (b : Bool) : IsValue (.bool b)
  | int (n : Int) : IsValue (.int n)
  | real (text : String) : IsValue (.real text)
  | string (s : String) : IsValue (.string s)
  | array {items : List Json} (h : ∀ item ∈ items, item.IsValue) : IsValue (.array items)
  | object {values : Dict Json} (h : ∀ entry ∈ values.entries, entry.2.IsValue) :
    IsValue (.object values.entries)

mutual

/-- What a document stands for is a value. -/
theorem isValue_of_value? {value : Json} : (j : Json) → value? j = some value → value.IsValue
  | .array items, h => by
    unfold value? at h
    obtain ⟨values, hvalues, rfl⟩ := Option.map_eq_some_iff.1 h
    exact .array (isValue_of_mem_valueItems? items hvalues)
  | .object fields, h => by
    unfold value? at h
    obtain ⟨values, hvalues, rfl⟩ := Option.map_eq_some_iff.1 h
    have hfields := isValue_of_mem_valueFields? fields hvalues
    exact .object fun entry hmem => hfields entry (Dict.mem_of_mem_ofList hmem)
  | .unreadable, h => by cases h
  | .null, h => by cases h; exact .null
  | .bool b, h => by cases h; exact .bool b
  | .int n, h => by cases h; exact .int n
  | .real text, h => by cases h; exact .real text
  | .string s, h => by cases h; exact .string s

theorem isValue_of_mem_valueItems? {values : List Json} : (items : List Json) →
    valueItems? items = some values → ∀ value ∈ values, value.IsValue
  | [], h => by
    cases h
    nofun
  | item :: items, h => by
    unfold valueItems? at h
    obtain ⟨value, hvalue, h⟩ := Option.bind_eq_some_iff.1 h
    obtain ⟨others, hothers, h⟩ := Option.bind_eq_some_iff.1 h
    cases h
    exact List.forall_mem_cons.2
      ⟨isValue_of_value? item hvalue, isValue_of_mem_valueItems? items hothers⟩

theorem isValue_of_mem_valueFields? {values : Fields} : (fields : Fields) →
    valueFields? fields = some values → ∀ field ∈ values, field.2.IsValue
  | [], h => by
    cases h
    nofun
  | (name, j) :: fields, h => by
    unfold valueFields? at h
    obtain ⟨value, hvalue, h⟩ := Option.bind_eq_some_iff.1 h
    obtain ⟨others, hothers, h⟩ := Option.bind_eq_some_iff.1 h
    cases h
    exact List.forall_mem_cons.2
      ⟨isValue_of_value? j hvalue, isValue_of_mem_valueFields? fields hothers⟩

end

theorem valueItems?_eq_self {items : List Json} (h : ∀ item ∈ items, value? item = item) :
    valueItems? items = some items := by
  induction items with
  | nil => rfl
  | cons item items ih =>
    obtain ⟨hitem, hitems⟩ := List.forall_mem_cons.1 h
    unfold valueItems?
    rw [hitem, ih hitems]
    rfl

theorem valueFields?_eq_self {fields : Fields} (h : ∀ field ∈ fields, value? field.2 = field.2) :
    valueFields? fields = some fields := by
  induction fields with
  | nil => rfl
  | cons field fields ih =>
    obtain ⟨hfield, hfields⟩ := List.forall_mem_cons.1 h
    unfold valueFields?
    rw [hfield, ih hfields]
    rfl

/-- A value stands for itself. -/
theorem value?_of_isValue {j : Json} (h : j.IsValue) : value? j = some j := by
  induction h with
  | null | bool | int | real | string => rfl
  | array _ ih =>
    unfold value?
    rw [valueItems?_eq_self ih]
    rfl
  | object _ ih =>
    unfold value?
    rw [valueFields?_eq_self ih, Option.map_some, ofFields, Dict.ofList_entries]

end Json

namespace Schema

/-! ## Fitting -/

mutual

/-- A value in the form of a schema. A moment is written as the text of a valid one. -/
def Fits : Schema → Json → Prop
  | any, j => j.IsValue
  | string, j => ∃ s, j = .string s
  | bool, j => ∃ b, j = .bool b
  | int32, j => ∃ n : Int32, j = .int n.toInt
  | int64, j => ∃ n : Int64, j = .int n.toInt
  | bytes, j => ∃ octets, j = .string (String.ofList (Base64.encode octets))
  | time, j => ∃ t : Timestamp, t.Valid ∧ j = .string t.toSeconds
  | microTime, j => ∃ t : Timestamp, t.Valid ∧ j = .string t.toMicroseconds
  | intOrString, j => (∃ s, j = .string s) ∨ ∃ n : Int32, j = .int n.toInt
  | list item, j => ∃ items, j = .array items ∧ ∀ j' ∈ items, item.Fits j'
  | dict value, j => ∃ entries : Dict Json, j = .object entries.entries ∧
    ∀ entry ∈ entries.entries, value.Fits entry.2
  | object schemas, j => ∃ fields, j = .object fields ∧ FieldsFit schemas fields

/-- Fields in the form of schemas: under each name, in this order, either a value that fits, which
is null only if the field is required, or nothing if it is not. -/
def FieldsFit : List (String × Bool × Schema) → Fields → Prop
  | [], fields => fields = []
  | (name, required, schema) :: rest, fields =>
    (∃ j others, fields = (name, j) :: others ∧ schema.Fits j ∧ (j = .null → required = true) ∧
      FieldsFit rest others) ∨
    (required = false ∧ FieldsFit rest fields)

end

/-! ## Names of fields -/

/-- The names of the fields of an object. -/
def names (schemas : List (String × Bool × Schema)) : List String := schemas.map (·.1)

mutual

/-- Whether the fields of every object have different names. -/
def isDistinct : Schema → Bool
  | list item => item.isDistinct
  | dict value => value.isDistinct
  | object schemas => areDistinct schemas
  | any | string | bool | int32 | int64 | bytes | time | microTime | intOrString => true

/-- Whether fields have different names, and the fields of every object in them as well. -/
def areDistinct : List (String × Bool × Schema) → Bool
  | [] => true
  | (name, _, schema) :: rest =>
    rest.all (·.1 ≠ name) && schema.isDistinct && areDistinct rest

end

theorem areDistinct_cons {name : String} {required : Bool} {schema : Schema}
    {rest : List (String × Bool × Schema)} :
    areDistinct ((name, required, schema) :: rest) = true ↔
      name ∉ names rest ∧ schema.isDistinct = true ∧ areDistinct rest = true := by
  have hname : rest.all (·.1 ≠ name) = true ↔ name ∉ names rest := by
    rw [List.all_eq_true, names, List.mem_map]
    constructor
    · rintro hall ⟨field, hmem, rfl⟩
      simpa using hall field hmem
    · intro hnot field hmem
      exact decide_eq_true fun heq => hnot ⟨field, hmem, heq⟩
  simp only [areDistinct, Bool.and_eq_true, hname, and_assoc]

/-- Fields that fit have no other names than those of the schemas. -/
theorem mem_names_of_fieldsFit {schemas : List (String × Bool × Schema)} {f : Fields}
    (h : FieldsFit schemas f) : ∀ field ∈ f, field.1 ∈ names schemas := by
  induction schemas generalizing f with
  | nil =>
    cases h
    nofun
  | cons entry rest ih =>
    rcases h with ⟨j, others, rfl, -, -, hothers⟩ | ⟨-, hf⟩
    · refine List.forall_mem_cons.2 ⟨List.mem_cons_self, fun field hmem => ?_⟩
      exact List.mem_cons_of_mem _ (ih hothers field hmem)
    · exact fun field hmem => List.mem_cons_of_mem _ (ih hf field hmem)

/-- Under a name that the schemas do not have there is nothing. -/
theorem given_eq_nil {schemas : List (String × Bool × Schema)} {f : Fields}
    (h : FieldsFit schemas f) {name : String} (hname : name ∉ names schemas) :
    Fields.given f name = [] :=
  Dict.given_eq_nil fun field hmem heq => hname (heq ▸ mem_names_of_fieldsFit h field hmem)

/-! ## What does not fit -/

theorem value?_ne_null {j k : Json} (h : j.value? = some k) (hne : j ≠ .null) : k ≠ .null := by
  rintro rfl
  cases j with
  | array items =>
    obtain ⟨values, -, heq⟩ := Option.map_eq_some_iff.1 h
    cases heq
  | object fields =>
    obtain ⟨values, -, heq⟩ := Option.map_eq_some_iff.1 h
    cases heq
  | null => exact hne rfl
  | _ => cases h

/-- Null is a value, and nothing more than that. -/
theorem eq_any_of_fits_null {schema : Schema} (h : schema.Fits .null) : schema = any := by
  unfold Fits at h
  cases schema with
  | any => rfl
  | string | bool | int32 | int64 | bytes =>
    obtain ⟨_, heq⟩ := h
    cases heq
  | time | microTime =>
    obtain ⟨_, -, heq⟩ := h
    cases heq
  | intOrString => rcases h with ⟨_, heq⟩ | ⟨_, heq⟩ <;> cases heq
  | list | dict | object =>
    obtain ⟨_, heq, -⟩ := h
    cases heq

/-! ## What conforming comes to -/

/-- One field more: what it comes to, and what the others come to. -/
theorem conformFields_cons {name : String} {required : Bool} {schema : Schema}
    {rest : List (String × Bool × Schema)} {f g : Fields}
    (h : conformFields ((name, required, schema) :: rest) f = some g) :
    ∃ others, conformFields rest f = some others ∧
      ((∃ j k, j ≠ .null ∧ schema.conform j = some k ∧ g = (name, k) :: others) ∨
        (required = true ∧ ∃ k, schema.empty? = some k ∧ g = (name, k) :: others) ∨
        (required = false ∧ g = others)) := by
  unfold conformFields at h
  obtain ⟨others, hothers, h⟩ := Option.bind_eq_some_iff.1 h
  obtain ⟨last, hlast, h⟩ := Option.bind_eq_some_iff.1 h
  refine ⟨others, hothers, ?_⟩
  split at h
  · next k =>
    obtain ⟨j, -, hj⟩ := Fields.exists_of_last? hlast
    obtain ⟨hne, hconform⟩ := Fields.ne_null_of_orNull hj
    exact .inl ⟨j, k, hne, hconform, (Option.some.inj h).symm⟩
  · split at h
    · next hrequired =>
      obtain ⟨k, hk, h⟩ := Option.bind_eq_some_iff.1 h
      exact .inr (.inl ⟨hrequired, k, hk, (Option.some.inj h).symm⟩)
    · next hrequired =>
      exact .inr (.inr ⟨Bool.not_eq_true _ ▸ hrequired, (Option.some.inj h).symm⟩)

mutual

theorem fits_of_empty : (schema : Schema) → {j : Json} → schema.empty? = some j → schema.Fits j
  | .any, _, h => by cases h; exact .null
  | .string, _, h => by cases h; exact ⟨"", rfl⟩
  | .bool, _, h => by cases h; exact ⟨false, rfl⟩
  | .int32, _, h => by cases h; exact ⟨0, rfl⟩
  | .int64, _, h => by cases h; exact ⟨0, rfl⟩
  | .bytes, _, h => by cases h; exact ⟨[], rfl⟩
  | .time, _, h => by cases h
  | .microTime, _, h => by cases h
  | .intOrString, _, h => by cases h; exact .inr ⟨0, rfl⟩
  | .list _, _, h => by cases h; exact ⟨[], rfl, nofun⟩
  | .dict _, _, h => by cases h; exact ⟨∅, rfl, nofun⟩
  | .object schemas, _, h => by
    obtain ⟨fields, hfields, rfl⟩ := Option.map_eq_some_iff.1 h
    exact ⟨fields, rfl, fieldsFit_of_emptyFields schemas hfields⟩

theorem fieldsFit_of_emptyFields : (schemas : List (String × Bool × Schema)) → {fields : Fields} →
    emptyFields? schemas = some fields → FieldsFit schemas fields
  | [], _, h => by cases h; rfl
  | (name, required, schema) :: rest, fields, h => by
    unfold emptyFields? at h
    obtain ⟨others, hothers, h⟩ := Option.bind_eq_some_iff.1 h
    have hrest := fieldsFit_of_emptyFields rest hothers
    cases required with
    | true =>
      obtain ⟨j, hj, h⟩ := Option.bind_eq_some_iff.1 h
      cases h
      exact .inl ⟨j, others, rfl, fits_of_empty schema hj, fun _ => rfl, hrest⟩
    | false =>
      cases h
      exact .inr ⟨rfl, hrest⟩

end

mutual

/-- **What a document is conformed to fits the schema.** -/
theorem fits_of_conform : (schema : Schema) → {j k : Json} → schema.conform j = some k →
    schema.Fits k
  | .any, j, _, h => Json.isValue_of_value? j h
  | .string, _, _, h => by
    obtain ⟨s, -, rfl⟩ := Option.map_eq_some_iff.1 h
    exact ⟨s, rfl⟩
  | .bool, _, _, h => by
    obtain ⟨b, -, rfl⟩ := Option.map_eq_some_iff.1 h
    exact ⟨b, rfl⟩
  | .int32, _, _, h => by
    obtain ⟨n, -, rfl⟩ := Option.map_eq_some_iff.1 h
    exact ⟨n, rfl⟩
  | .int64, _, _, h => by
    obtain ⟨n, -, rfl⟩ := Option.map_eq_some_iff.1 h
    exact ⟨n, rfl⟩
  | .bytes, _, _, h => by
    obtain ⟨bytes, -, rfl⟩ := Option.map_eq_some_iff.1 h
    exact ⟨bytes.toList, rfl⟩
  | .time, .string _, _, h => by
    obtain ⟨t, ht, rfl⟩ := Option.map_eq_some_iff.1 h
    exact ⟨t, Timestamp.valid_of_parse? ht, rfl⟩
  | .microTime, .string _, _, h => by
    obtain ⟨t, ht, rfl⟩ := Option.map_eq_some_iff.1 h
    exact ⟨t, Timestamp.valid_of_parse? ht, rfl⟩
  | .intOrString, _, _, h => by
    unfold conform at h
    split at h
    · cases h
      exact .inl ⟨_, rfl⟩
    · obtain ⟨n, -, rfl⟩ := Option.map_eq_some_iff.1 h
      exact .inr ⟨n, rfl⟩
  | .list item, _, _, h => by
    unfold conform at h
    obtain ⟨items, -, h⟩ := Option.bind_eq_some_iff.1 h
    obtain ⟨values, hvalues, h⟩ := Option.bind_eq_some_iff.1 h
    cases h
    refine ⟨values, rfl, fun value hmem => ?_⟩
    obtain ⟨j, -, hj⟩ := exists_of_mem_mapM hvalues value hmem
    exact fits_of_conform item hj
  | .dict value, _, _, h => by
    unfold conform at h
    obtain ⟨f, -, h⟩ := Option.bind_eq_some_iff.1 h
    obtain ⟨entries, hentries, h⟩ := Option.bind_eq_some_iff.1 h
    cases h
    refine ⟨Dict.ofList entries, rfl, fun entry hmem => ?_⟩
    obtain ⟨field, -, hfield⟩ := exists_of_mem_mapM hentries entry (Dict.mem_of_mem_ofList hmem)
    obtain ⟨k, hk, rfl⟩ := Option.map_eq_some_iff.1 hfield
    exact fits_of_conform value hk
  | .object schemas, _, _, h => by
    unfold conform at h
    obtain ⟨f, -, h⟩ := Option.bind_eq_some_iff.1 h
    obtain ⟨g, hg, h⟩ := Option.bind_eq_some_iff.1 h
    cases h
    exact ⟨g, rfl, fieldsFit_of_conformFields schemas hg⟩

theorem fieldsFit_of_conformFields : (schemas : List (String × Bool × Schema)) → {f g : Fields} →
    conformFields schemas f = some g → FieldsFit schemas g
  | [], _, _, h => by cases h; rfl
  | (name, required, schema) :: rest, _, _, h => by
    obtain ⟨others, hothers, hg⟩ := conformFields_cons h
    have hrest := fieldsFit_of_conformFields rest hothers
    rcases hg with ⟨j, k, hne, hk, rfl⟩ | ⟨rfl, k, hk, rfl⟩ | ⟨rfl, rfl⟩
    · have hfits := fits_of_conform schema hk
      refine .inl ⟨k, others, rfl, hfits, ?_, hrest⟩
      -- Where null fits, only null is conformed to it.
      rintro rfl
      obtain rfl := eq_any_of_fits_null hfits
      exact absurd rfl (value?_ne_null hk hne)
    · exact .inl ⟨k, others, rfl, fits_of_empty schema hk, fun _ => rfl, hrest⟩
    · exact .inr ⟨rfl, hrest⟩

end

/-! ## Fields that come out again -/

/-- Only what is given under the names of a schema matters to it. -/
theorem conformFields_congr {schemas : List (String × Bool × Schema)} {f f' : Fields}
    (h : ∀ name ∈ names schemas, Fields.given f name = Fields.given f' name) :
    conformFields schemas f = conformFields schemas f' := by
  induction schemas with
  | nil => rfl
  | cons field rest ih =>
    obtain ⟨name, required, schema⟩ := field
    obtain ⟨hname, hrest⟩ := List.forall_mem_cons.1 h
    unfold conformFields Fields.last?
    rw [ih hrest, hname]

section

variable {name : String} {required : Bool} {schema : Schema} {rest : List (String × Bool × Schema)}
  {others : Fields}

/-- A field in front of others is given once, and the others as before. -/
theorem given_cons (hname : name ∉ names rest) (hothers : conformFields rest others = some others)
    (j : Json) : Fields.given ((name, j) :: others) name = [j] ∧
      conformFields rest ((name, j) :: others) = some others := by
  constructor
  · have hnone := given_eq_nil (fieldsFit_of_conformFields rest hothers) hname
    unfold Fields.given at hnone ⊢
    rw [List.filterMap_cons, if_pos rfl, hnone]
  · refine (conformFields_congr fun name' hmem => ?_).trans hothers
    have hne : name ≠ name' := fun heq => hname (heq ▸ hmem)
    unfold Fields.given
    rw [List.filterMap_cons, if_neg hne]

theorem conformFields_field {j : Json} (hname : name ∉ names rest)
    (hothers : conformFields rest others = some others) (hne : j ≠ .null)
    (hj : schema.conform j = some j) :
    conformFields ((name, required, schema) :: rest) ((name, j) :: others) =
      some ((name, j) :: others) := by
  obtain ⟨hgiven, hrest⟩ := given_cons hname hothers j
  unfold conformFields Fields.last?
  rw [hrest, hgiven, List.mapM_cons, Fields.orNull_of_ne_null hne, hj]
  rfl

theorem conformFields_null (hname : name ∉ names rest)
    (hothers : conformFields rest others = some others) :
    conformFields ((name, true, any) :: rest) ((name, .null) :: others) =
      some ((name, .null) :: others) := by
  obtain ⟨hgiven, hrest⟩ := given_cons hname hothers .null
  unfold conformFields Fields.last?
  rw [hrest, hgiven]
  rfl

theorem conformFields_absent (hname : name ∉ names rest)
    (hothers : conformFields rest others = some others) :
    conformFields ((name, false, schema) :: rest) others = some others := by
  unfold conformFields Fields.last?
  rw [hothers, given_eq_nil (fieldsFit_of_conformFields rest hothers) hname]
  rfl

end

/-! ## What fits

By induction on the schema. In an object, a field is put in front of the others when these are known
to come out again, and then comes out itself: it is there, or it is null and required, or it is
absent and may be.
-/

theorem conformCounter_toJson {α : Type} [Wire α] [LawfulWire α] (v : α) :
    conformCounter α (toJson v) = some (toJson v) := by
  unfold conformCounter
  rw [ofJson?_toJson]
  rfl

theorem conformTime_string (write : Timestamp → String) (s : String) :
    conformTime write (.string s) = (Timestamp.parse? s).map fun t => .string (write t) := rfl

theorem conformTime_toSeconds {t : Timestamp} (ht : t.Valid) :
    conformTime Timestamp.toSeconds (.string t.toSeconds) = some (.string t.toSeconds) := by
  rw [conformTime_string, Timestamp.parse?_toSeconds ht]
  rfl

theorem conformTime_toMicroseconds {t : Timestamp} (ht : t.Valid) :
    conformTime Timestamp.toMicroseconds (.string t.toMicroseconds) =
      some (.string t.toMicroseconds) := by
  rw [conformTime_string, Timestamp.parse?_toMicroseconds ht, Option.map_some]
  unfold Timestamp.toMicroseconds
  dsimp only
  rw [Nat.mul_div_cancel _ (by decide)]
  rfl

mutual

/-- **What fits a schema is left as it is.** -/
theorem conform_of_fits : (schema : Schema) → {j : Json} → schema.isDistinct = true →
    schema.Fits j → schema.conform j = some j
  | .any, _, _, h => Json.value?_of_isValue h
  | .string, _, _, ⟨_, h⟩ => by rw [h]; rfl
  | .bool, _, _, ⟨_, h⟩ => by rw [h]; rfl
  | .int32, _, _, ⟨n, h⟩ => h ▸ conformCounter_toJson n
  | .int64, _, _, ⟨n, h⟩ => h ▸ conformCounter_toJson n
  | .bytes, _, _, ⟨octets, h⟩ => h ▸ conformCounter_toJson (Bytes.mk octets)
  | .time, _, _, ⟨_, ht, h⟩ => h ▸ conformTime_toSeconds ht
  | .microTime, _, _, ⟨_, ht, h⟩ => h ▸ conformTime_toMicroseconds ht
  | .intOrString, _, _, .inl ⟨_, h⟩ => by rw [h]; rfl
  | .intOrString, _, _, .inr ⟨n, h⟩ => h ▸ conformCounter_toJson n
  | .list item, _, hdistinct, ⟨items, h, hitems⟩ => by
    have hfixed : items.mapM item.conform = some items :=
      mapM_eq_self fun j hmem => conform_of_fits item hdistinct (hitems j hmem)
    rw [h]
    unfold conform
    rw [Json.items?, Option.bind_eq_bind, Option.bind_some, hfixed]
    rfl
  | .dict value, _, hdistinct, ⟨entries, h, hentries⟩ => by
    have hfixed : entries.entries.mapM
        (fun entry => (value.conform entry.2).map (entry.1, ·)) = some entries.entries :=
      mapM_eq_self fun entry hmem => by
        rw [conform_of_fits value hdistinct (hentries entry hmem)]
        rfl
    rw [h]
    unfold conform
    rw [Json.fields?, Option.bind_eq_bind, Option.bind_some, hfixed, Option.bind_some,
      Json.ofFields, Dict.ofList_entries]
    rfl
  | .object schemas, _, hdistinct, ⟨fields, h, hfields⟩ => by
    have hfixed := conformFields_of_fieldsFit schemas hdistinct hfields
    rw [h]
    unfold conform
    rw [Json.fields?, Option.bind_eq_bind, Option.bind_some, hfixed]
    rfl

theorem conformFields_of_fieldsFit : (schemas : List (String × Bool × Schema)) → {f : Fields} →
    areDistinct schemas = true → FieldsFit schemas f → conformFields schemas f = some f
  | [], _, _, h => by cases h; rfl
  | (name, required, schema) :: rest, _, hdistinct, h => by
    obtain ⟨hname, hschema, hrest⟩ := areDistinct_cons.1 hdistinct
    rcases h with ⟨j, others, rfl, hfits, hnull, hothers⟩ | ⟨rfl, hothers⟩
    · have hfixed := conformFields_of_fieldsFit rest hrest hothers
      by_cases hj : j = .null
      · subst hj
        obtain rfl := eq_any_of_fits_null hfits
        rw [hnull rfl]
        exact conformFields_null hname hfixed
      · exact conformFields_field hname hfixed hj (conform_of_fits schema hschema hfits)
    · exact conformFields_absent hname (conformFields_of_fieldsFit rest hrest hothers)

end

/-- Conforming tells which fields fit. -/
theorem conformFields_eq_self_iff {schemas : List (String × Bool × Schema)} {f : Fields}
    (hdistinct : areDistinct schemas = true) :
    conformFields schemas f = some f ↔ FieldsFit schemas f :=
  ⟨fieldsFit_of_conformFields schemas, conformFields_of_fieldsFit schemas hdistinct⟩

/-! ## Fields that fit among others -/

section

variable {schemas : List (String × Bool × Schema)} {f : Fields}

/-- Fields that fit give each name once. -/
theorem given_of_fieldsFit (hdistinct : areDistinct schemas = true) (h : FieldsFit schemas f)
    (name : String) : Fields.given f name = (Fields.written f name).toList := by
  induction schemas generalizing f with
  | nil =>
    cases h
    rfl
  | cons entry rest ih =>
    obtain ⟨hname, -, hrest⟩ := areDistinct_cons.1 hdistinct
    rcases h with ⟨j, others, rfl, -, -, hothers⟩ | ⟨-, hf⟩
    · unfold Fields.written
      by_cases hsame : entry.1 = name
      · have hnone := given_eq_nil hothers hname
        rw [hsame] at hnone
        unfold Fields.given at hnone ⊢
        rw [List.filterMap_cons, if_pos hsame, hnone]
        rfl
      · have hskip : Fields.given ((entry.1, j) :: others) name = Fields.given others name := by
          unfold Fields.given
          rw [List.filterMap_cons, if_neg hsame]
        rw [hskip]
        exact ih hrest hothers
    · exact ih hrest hf

theorem written_eq_none (h : FieldsFit schemas f) {name : String} (hname : name ∉ names schemas) :
    Fields.written f name = none :=
  congrArg List.getLast? (given_eq_nil h hname)

/-- Fields that fit come out again from among other fields. -/
theorem conformFields_ofList {own : Fields} (hdistinct : areDistinct schemas = true)
    (h : FieldsFit schemas f) (hown : ∀ name ∈ names schemas, Fields.written own name = none) :
    conformFields schemas (Dict.ofList (own ++ f)).entries = some f := by
  refine (conformFields_congr fun name hmem => ?_).trans
    (conformFields_of_fieldsFit schemas hdistinct h)
  rw [Fields.given_ofList, Fields.written_append, hown name hmem, Option.or_none,
    given_of_fieldsFit hdistinct h]

end

end Schema

end PushOperator
