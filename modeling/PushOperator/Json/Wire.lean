import PushOperator.Json.Basic
import PushOperator.Text.Base64

/-!
# Typed values as JSON

`Wire α` says how an `α` is written as JSON and read back. Reading either succeeds or not; why a
document is refused is nobody's business here.

A record is read from an object by the names of its fields; other fields are skipped. Fields come in
four sorts: a `required` field has to be there; an `optional` one may be absent or null; a
`defaulted` one may be absent, but null is no value for it; a `lenient` one takes its default when
it is absent or null. Of a field that a document repeats the last occurrence counts, but all of them
have to be of the right type; the records of `Json.record?` take no repeated fields at all.
-/

namespace PushOperator

/-- How values of a type are written as JSON and read back. -/
class Wire (α : Type) where
  toJson : α → Json
  ofJson? : Json → Option α

export Wire (toJson ofJson?)

instance : Wire Json := ⟨id, Json.value?⟩

instance : Wire String := ⟨.string, Json.string?⟩

instance : Wire Bool := ⟨.bool, Json.bool?⟩

instance : Wire Int32 where
  toJson n := .int n.toInt
  ofJson? j := j.int?.bind fun n =>
    if Int32.minValue.toInt ≤ n ∧ n ≤ Int32.maxValue.toInt then some (Int32.ofInt n) else none

instance : Wire Int64 where
  toJson n := .int n.toInt
  ofJson? j := j.int?.bind fun n =>
    if Int64.minValue.toInt ≤ n ∧ n ≤ Int64.maxValue.toInt then some (Int64.ofInt n) else none

instance : Wire UInt16 where
  toJson n := .int n.toNat
  ofJson? j := j.int?.bind fun n =>
    if 0 ≤ n ∧ n < UInt16.size then some (UInt16.ofNat n.toNat) else none

instance : Wire UInt32 where
  toJson n := .int n.toNat
  ofJson? j := j.int?.bind fun n =>
    if 0 ≤ n ∧ n < UInt32.size then some (UInt32.ofNat n.toNat) else none

/-- Bytes are written in base64. Null counts as no bytes. -/
instance : Wire Bytes where
  toJson bytes := .string (String.ofList (Base64.encode bytes.toList))
  ofJson?
    | .null => some ⟨[]⟩
    | j => do return ⟨← Base64.decode? (← j.string?).toList⟩

instance {α : Type} [Wire α] : Wire (List α) where
  toJson xs := .array (xs.map toJson)
  ofJson? j := j.items?.bind (List.mapM ofJson?)

instance {α : Type} [Wire α] : Wire (Dict α) where
  toJson d := .object (d.map toJson).entries
  ofJson? j := do
    let fields ← j.fields?
    let entries ← fields.mapM fun field => (ofJson? field.2).map (field.1, ·)
    return Dict.ofList entries

namespace Fields

variable {α : Type} [Wire α]

/-! ## Reading -/

/-- What is given under a name; in a value that is one thing at most. -/
def given (fields : Fields) (name : String) : List Json :=
  fields.filterMap fun field => if field.1 = name then some field.2 else none

/-- What the last occurrence of a field is read as, if all occurrences can be read. -/
def last? {β : Type} (fields : Fields) (name : String) (read : Json → Option β) :
    Option (Option β) := do
  return (← (given fields name).mapM read).getLast?

/-- Reads null as nothing, and all else with `read`. -/
def orNull {β : Type} (read : Json → Option β) : Json → Option (Option β)
  | .null => some none
  | j => (read j).map some

def required (fields : Fields) (name : String) : Option α := (last? fields name ofJson?).join

/-- A field that may be absent or null. -/
def optional (fields : Fields) (name : String) : Option (Option α) :=
  (last? fields name (orNull ofJson?)).map Option.join

/-- A field with a default for when it is absent; null is no value for it. -/
def defaulted (fields : Fields) (name : String) (default : α) : Option α :=
  (last? fields name ofJson?).map (Option.getD · default)

/-- A field with a default for when it is absent or null. -/
def lenient (fields : Fields) (name : String) (default : α) : Option α :=
  (optional fields name).map (Option.getD · default)

/-- Whether an object says to be of another type than expected, or does not say it with a text. -/
def isOfOtherType (fields : Fields) (apiVersion kind : String) : Bool :=
  (given fields "apiVersion").any (· ≠ .string apiVersion) ||
    (given fields "kind").any (· ≠ .string kind)

/-! ## Writing -/

def always (name : String) (value : α) : Fields := [(name, toJson value)]

def whenSome (name : String) (value : Option α) : Fields :=
  value.toList.map fun value => (name, toJson value)

def whenNonempty (name : String) (values : List α) : Fields :=
  if values.isEmpty then [] else [(name, toJson values)]

end Fields

/-- Whether none of the names is given more than once. -/
def Fields.isUnambiguous (fields : Fields) (names : List String) : Bool :=
  names.all fun name => (given fields name).length ≤ 1

/-- The fields of a record written as an object, or as an array of its leading fields in the order
of `names`. -/
def Json.record? (names : List String) : Json → Option Fields
  | .object fields => if Fields.isUnambiguous fields names then some fields else none
  | .array items => if items.length ≤ names.length then some (names.zip items) else none
  | _ => none

/-- The fields of a record written as an object, or as an array of all its fields in the order of
`names`. -/
def Json.fullRecord? (names : List String) : Json → Option Fields
  | .array items => if items.length = names.length then some (names.zip items) else none
  | j => j.record? names

end PushOperator
