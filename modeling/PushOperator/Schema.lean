import PushOperator.Json.Wire
import PushOperator.Timestamp

/-!
# Schemas

The Kubernetes API has many fields that the operator hands through without looking at them. They
are described by schemas. Conforming a document to a schema drops unknown fields and fields that are
null, gives required fields their empty value, brings moments into universal time, and refuses a
document of another type. A moment has no empty value, so a document without a required one is
refused as well.

The fields of an object schema are listed in ascending order, so a conformed object is one, too.
-/

namespace PushOperator

/-- The shape of a JSON value. The fields of an object have names, and some of them are required. -/
inductive Schema where
  | any
  | string
  | bool
  | int32
  | int64
  | bytes
  | time
  | microTime
  | intOrString
  | list (item : Schema)
  | dict (value : Schema)
  | object (fields : List (String × Bool × Schema))

namespace Schema

/-- A field that may be absent. -/
def opt (name : String) (schema : Schema) : String × Bool × Schema := (name, false, schema)

/-- A field that is always written, empty when nothing is given. -/
def req (name : String) (schema : Schema) : String × Bool × Schema := (name, true, schema)

mutual

/-- The value a required field takes when nothing is given, if it can do without. -/
def empty? : Schema → Option Json
  | any => some .null
  | string | bytes => some (.string "")
  | bool => some (.bool false)
  | int32 | int64 | intOrString => some (.int 0)
  | time | microTime => none
  | list _ => some (.array [])
  | dict _ => some (.object [])
  | object fields => (emptyFields? fields).map .object

def emptyFields? : List (String × Bool × Schema) → Option Fields
  | [] => some []
  | (name, required, schema) :: rest => do
    let others ← emptyFields? rest
    if required then return (name, ← schema.empty?) :: others else return others

end

def conformCounter (α : Type) [Wire α] (j : Json) : Option Json :=
  (ofJson? j : Option α).map toJson

def conformTime (write : Timestamp → String) : Json → Option Json
  | .string s => (Timestamp.parse? s).map fun t => .string (write t)
  | _ => none

mutual

/-- The value as the schema has it, or nothing when it is of another type. -/
def conform : Schema → Json → Option Json
  | any, j => j.value?
  | string, j => j.string?.map .string
  | bool, j => j.bool?.map .bool
  | int32, j => conformCounter Int32 j
  | int64, j => conformCounter Int64 j
  | bytes, j => (ofJson? j : Option Bytes).map toJson
  | time, j => conformTime Timestamp.toSeconds j
  | microTime, j => conformTime Timestamp.toMicroseconds j
  | intOrString, j => match j with
    | .string s => some (.string s)
    | j => conformCounter Int32 j
  | list item, j => do return .array (← (← j.items?).mapM item.conform)
  | dict value, j => do
    let entries ← (← j.fields?).mapM fun entry => (value.conform entry.2).map (entry.1, ·)
    return Json.ofFields entries
  | object schemas, j => do return .object (← conformFields schemas (← j.fields?))

def conformFields : List (String × Bool × Schema) → Fields → Option Fields
  | [], _ => some []
  | (name, required, schema) :: rest, fields => do
    let others ← conformFields rest fields
    match ← Fields.last? fields name (Fields.orNull schema.conform) with
    | some (some j) => return (name, j) :: others
    | _ => if required then return (name, ← schema.empty?) :: others else return others

end

end Schema

end PushOperator
