import PushOperator.Kubernetes.Metadata
import PushOperator.Proofs.Dict
import PushOperator.Proofs.Text.Base64

/-!
# Fields that are read back

A value reads back when reading what it is written as gives that value again. It is never written
as null then, for an optional field would read null as nothing. In an object each name is given
once, so what a record reads from the object that another one was written as is what was written
under its names, whatever else stands in the object and in whatever order.

Of most types all values read back; these are the lawful ones. A type that keeps fields in the form
of a schema has values that do not, when the fields do not fit the schema.
-/

namespace PushOperator

/-- A value that is read back from what it is written as. -/
structure ReadsBack {α : Type} [Wire α] (v : α) : Prop where
  read : ofJson? (toJson v) = some v
  ne_null : toJson v ≠ .null

/-- A type all of whose values are read back. -/
class LawfulWire (α : Type) [Wire α] : Prop where
  readsBack (v : α) : ReadsBack v

/-! ## Lists that are read -/

theorem mapM_eq_self {α : Type} {f : α → Option α} {xs : List α} (h : ∀ x ∈ xs, f x = some x) :
    xs.mapM f = some xs := by
  induction xs with
  | nil => rfl
  | cons x xs ih =>
    obtain ⟨hx, hxs⟩ := List.forall_mem_cons.1 h
    rw [List.mapM_cons, hx, ih hxs]
    rfl

theorem exists_of_mem_mapM {α β : Type} {f : α → Option β} {xs : List α} {ys : List β}
    (h : xs.mapM f = some ys) : ∀ y ∈ ys, ∃ x ∈ xs, f x = some y := by
  induction xs generalizing ys with
  | nil =>
    cases h
    nofun
  | cons x xs ih =>
    rw [List.mapM_cons] at h
    obtain ⟨y, hy, h⟩ := Option.bind_eq_some_iff.1 h
    obtain ⟨ys', hys', h⟩ := Option.bind_eq_some_iff.1 h
    cases h
    refine List.forall_mem_cons.2 ⟨⟨x, List.mem_cons_self, hy⟩, fun y' hmem => ?_⟩
    obtain ⟨x', hx', hread⟩ := ih hys' y' hmem
    exact ⟨x', List.mem_cons_of_mem _ hx', hread⟩

namespace Fields

variable {α : Type} [Wire α] {fields : Fields} {name : String}

/-! ## What is written under a name -/

/-- What fields have under a name. -/
def written (fields : Fields) (name : String) : Option Json := (given fields name).getLast?

theorem given_ofList (fields : Fields) (name : String) :
    given (Dict.ofList fields).entries name = (written fields name).toList := by
  have hentries := Dict.given_entries (Dict.ofList fields) name
  rw [Dict.get?_ofList] at hentries
  exact hentries

@[simp]
theorem written_append (a b : Fields) (name : String) :
    written (a ++ b) name = (written b name).or (written a name) := by
  unfold written given
  rw [List.filterMap_append, List.getLast?_append]

@[simp]
theorem written_always (name name' : String) (value : α) :
    written (always name value) name' = if name = name' then some (toJson value) else none := by
  unfold written given always
  by_cases hname : name = name' <;> simp [hname]

@[simp]
theorem written_whenSome (name name' : String) (value : Option α) :
    written (whenSome name value) name' = if name = name' then value.map toJson else none := by
  unfold written given whenSome
  cases value <;> by_cases hname : name = name' <;> simp [hname]

@[simp]
theorem written_whenNonempty (name name' : String) (values : List α) :
    written (whenNonempty name values) name' =
      if name = name' then if values = [] then none else some (toJson values) else none := by
  unfold written given whenNonempty
  cases values <;> by_cases hname : name = name' <;> simp [hname]

/-! ## Reading an object -/

/-- What is read of a field was given under its name. -/
theorem exists_of_last? {β : Type} {read : Json → Option β} {v : β}
    (h : last? fields name read = some (some v)) : ∃ j ∈ given fields name, read j = some v := by
  obtain ⟨values, hvalues, hlast⟩ := Option.bind_eq_some_iff.1 h
  exact exists_of_mem_mapM hvalues v (List.mem_of_getLast? (Option.some.inj hlast))

theorem ne_null_of_orNull {β : Type} {read : Json → Option β} {j : Json} {v : β}
    (h : orNull read j = some (some v)) : j ≠ .null ∧ read j = some v := by
  unfold orNull at h
  split at h
  · cases h
  · next hne =>
    obtain ⟨v', hv', heq⟩ := Option.map_eq_some_iff.1 h
    cases heq
    exact ⟨hne, hv'⟩

theorem orNull_of_ne_null {β : Type} {read : Json → Option β} {j : Json} (h : j ≠ .null) :
    orNull read j = (read j).map some := by
  unfold orNull
  split
  · contradiction
  · rfl

theorem exists_of_required {v : α} (h : required fields name = some v) :
    ∃ j, ofJson? j = some v := by
  obtain ⟨j, -, hj⟩ := exists_of_last? (Option.join_eq_some_iff.1 h)
  exact ⟨j, hj⟩

theorem exists_of_optional {v : α} (h : optional fields name = some (some v)) :
    ∃ j, ofJson? j = some v := by
  obtain ⟨last, hlast, hjoin⟩ := Option.map_eq_some_iff.1 h
  rw [Option.join_eq_some_iff.1 hjoin] at hlast
  obtain ⟨j, -, hj⟩ := exists_of_last? hlast
  exact ⟨j, (ne_null_of_orNull hj).2⟩

@[simp]
theorem last?_ofList {β : Type} (fields : Fields) (name : String) (read : Json → Option β) :
    last? (Dict.ofList fields).entries name read =
      (written fields name).elim (some none) fun j => (read j).map some := by
  unfold last?
  rw [given_ofList]
  cases written fields name with
  | none => rfl
  | some j =>
    rw [Option.toList_some, List.mapM_cons, List.mapM_nil, Option.elim_some]
    cases read j <;> rfl

@[simp]
theorem required_ofList (fields : Fields) (name : String) :
    (required (Dict.ofList fields).entries name : Option α) =
      (written fields name).bind ofJson? := by
  unfold required
  rw [last?_ofList]
  cases written fields name with
  | none => rfl
  | some j =>
    rw [Option.elim_some, Option.bind_some]
    cases (ofJson? j : Option α) <;> rfl

@[simp]
theorem optional_ofList (fields : Fields) (name : String) :
    (optional (Dict.ofList fields).entries name : Option (Option α)) =
      (written fields name).elim (some none) (orNull ofJson?) := by
  unfold optional
  rw [last?_ofList]
  cases written fields name with
  | none => rfl
  | some j =>
    rw [Option.elim_some, Option.elim_some]
    cases orNull (ofJson? : Json → Option α) j <;> rfl

@[simp]
theorem defaulted_ofList (fields : Fields) (name : String) (default : α) :
    defaulted (Dict.ofList fields).entries name default =
      (written fields name).elim (some default) ofJson? := by
  unfold defaulted
  rw [last?_ofList]
  cases written fields name with
  | none => rfl
  | some j =>
    rw [Option.elim_some, Option.elim_some]
    cases (ofJson? j : Option α) <;> rfl

@[simp]
theorem lenient_ofList (fields : Fields) (name : String) (default : α) :
    lenient (Dict.ofList fields).entries name default =
      ((written fields name).elim (some none) (orNull ofJson?)).map (Option.getD · default) := by
  unfold lenient
  rw [optional_ofList]

end Fields

namespace Json

@[simp]
theorem fields?_ofFields (fields : Fields) :
    (ofFields fields).fields? = some (Dict.ofList fields).entries := rfl

/-- An object is a record, for it gives no name twice. -/
@[simp]
theorem record?_ofFields (fields : Fields) (names : List String) :
    (ofFields fields).record? names = some (Dict.ofList fields).entries := by
  have hunambiguous : Fields.isUnambiguous (Dict.ofList fields).entries names = true := by
    refine List.all_eq_true.2 fun name _ => ?_
    rw [Fields.given_ofList]
    cases Fields.written fields name <;> rfl
  exact if_pos hunambiguous

@[simp]
theorem fullRecord?_ofFields (fields : Fields) (names : List String) :
    (ofFields fields).fullRecord? names = some (Dict.ofList fields).entries :=
  record?_ofFields fields names

end Json

/-! ## Values that read back -/

section

variable {α : Type} [Wire α]

theorem ReadsBack.orNull {v : α} (h : ReadsBack v) :
    Fields.orNull ofJson? (toJson v) = some (some v) := by
  rw [Fields.orNull_of_ne_null h.ne_null, h.read]
  rfl

/-- An optional field is read back when its value is. -/
theorem elim_orNull {v : Option α} (h : ∀ x, v = some x → ReadsBack x) :
    v.elim (some none) (Fields.orNull ofJson? ∘ toJson) = some v := by
  cases v with
  | none => rfl
  | some x => exact (h x rfl).orNull

end

section

variable {α : Type} [Wire α] [LawfulWire α]

@[simp]
theorem ofJson?_toJson (v : α) : ofJson? (toJson v) = some v := (LawfulWire.readsBack v).read

@[simp]
theorem orNull_toJson (v : α) : Fields.orNull ofJson? (toJson v) = some (some v) :=
  (LawfulWire.readsBack v).orNull

@[simp]
theorem elim_orNull_toJson (v : Option α) :
    v.elim (some none) (Fields.orNull ofJson? ∘ toJson) = some v :=
  elim_orNull fun x _ => LawfulWire.readsBack x

end

/-! ## Lawful types -/

instance : LawfulWire String where
  readsBack _ := ⟨rfl, nofun⟩

instance : LawfulWire Bool where
  readsBack _ := ⟨rfl, nofun⟩

instance : LawfulWire Bytes where
  readsBack bytes := ⟨Bytes.ofJson?_toJson bytes, nofun⟩

instance : LawfulWire Int32 where
  readsBack n := by
    refine ⟨?_, nofun⟩
    have hrange := And.intro n.minValue_le_toInt n.toInt_le
    show (if _ then some (Int32.ofInt n.toInt) else none) = some n
    rw [if_pos hrange, Int32.ofInt_toInt]

instance : LawfulWire Int64 where
  readsBack n := by
    refine ⟨?_, nofun⟩
    have hrange := And.intro n.minValue_le_toInt n.toInt_le
    show (if _ then some (Int64.ofInt n.toInt) else none) = some n
    rw [if_pos hrange, Int64.ofInt_toInt]

theorem readsBack_list {α : Type} [Wire α] {xs : List α} (h : ∀ x ∈ xs, ReadsBack x) :
    ReadsBack xs := by
  refine ⟨?_, nofun⟩
  show (xs.map toJson).mapM ofJson? = some xs
  induction xs with
  | nil => rfl
  | cons x xs ih =>
    obtain ⟨hx, hxs⟩ := List.forall_mem_cons.1 h
    rw [List.map_cons, List.mapM_cons, hx.read, ih hxs]
    rfl

instance {α : Type} [Wire α] [LawfulWire α] : LawfulWire (List α) where
  readsBack _ := readsBack_list fun x _ => LawfulWire.readsBack x

/-- A list that is left out when it is empty is read back with the empty list as default. -/
@[simp]
theorem elim_ofJson?_toJson {α : Type} [Wire α] [LawfulWire α] (xs : List α) :
    (if xs = [] then none else some (toJson xs)).elim (some []) ofJson? = some xs := by
  split
  · next hnil =>
    rw [hnil]
    rfl
  · exact ofJson?_toJson xs

instance {α : Type} [Wire α] [LawfulWire α] : LawfulWire (Dict α) where
  readsBack d := by
    refine ⟨?_, nofun⟩
    have hentries : ∀ entries : List (String × α),
        (entries.map fun entry => (entry.1, toJson entry.2)).mapM
          (fun field => (ofJson? field.2).map fun value => (field.1, (value : α))) =
        some entries := by
      intro entries
      induction entries with
      | nil => rfl
      | cons entry entries ih =>
        rw [List.map_cons, List.mapM_cons, ih, ofJson?_toJson]
        rfl
    have hread : ofJson? (toJson d) = ((d.map toJson).entries.mapM fun field =>
        (ofJson? field.2).map fun value => (field.1, (value : α))).map Dict.ofList := by
      rw [Option.map_eq_bind]
      rfl
    rw [hread, Dict.map, hentries, Option.map_some, Dict.ofList_entries]

end PushOperator
