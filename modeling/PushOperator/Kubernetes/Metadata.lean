import PushOperator.Schema

/-!
# Metadata

Names, labels and owners of objects, and the small types that several kinds share. Fields that the
operator has no use for are kept together under `other`, in the form their schema gives them.
-/

namespace PushOperator

/-- A whole number or a text, as ports may be given. -/
inductive IntOrString where
  | int (n : Int32)
  | string (s : String)
  deriving DecidableEq, Inhabited

instance : Wire IntOrString where
  toJson
    | .int n => toJson n
    | .string s => .string s
  ofJson?
    | .string s => some (.string s)
    | j => (ofJson? j).map .int

/-- The object that another object belongs to; it is found by its uid. -/
structure OwnerReference where
  apiVersion : String
  kind : String
  name : String
  uid : String
  controller : Option Bool := none
  blockOwnerDeletion : Option Bool := none
  deriving DecidableEq, Inhabited

instance : Wire OwnerReference where
  toJson o := Json.ofFields <|
    Fields.always "apiVersion" o.apiVersion ++ Fields.always "kind" o.kind ++
    Fields.always "name" o.name ++ Fields.always "uid" o.uid ++
    Fields.whenSome "controller" o.controller ++
    Fields.whenSome "blockOwnerDeletion" o.blockOwnerDeletion
  ofJson? j := do
    let f ← j.fields?
    return {
      apiVersion := ← Fields.lenient f "apiVersion" ""
      kind := ← Fields.lenient f "kind" ""
      name := ← Fields.lenient f "name" ""
      uid := ← Fields.lenient f "uid" ""
      controller := ← Fields.optional f "controller"
      blockOwnerDeletion := ← Fields.optional f "blockOwnerDeletion" }

/-- Metadata of an object. The version changes with every write; the generation counts changes of
the spec. -/
structure ObjectMeta where
  name : Option String := none
  ns : Option String := none
  generateName : Option String := none
  uid : Option String := none
  resourceVersion : Option String := none
  generation : Option Int64 := none
  labels : Option (Dict String) := none
  annotations : Option (Dict String) := none
  ownerReferences : Option (List OwnerReference) := none
  other : Fields := []
  deriving DecidableEq, Inhabited

namespace ObjectMeta

open Schema in
/-- The fields kept under `other`. -/
def otherSchema : List (String × Bool × Schema) := [
  opt "creationTimestamp" .time,
  opt "deletionGracePeriodSeconds" .int64,
  opt "deletionTimestamp" .time,
  opt "finalizers" (.list .string),
  opt "managedFields" (.list (.object [
    opt "apiVersion" .string,
    opt "fieldsType" .string,
    opt "fieldsV1" .any,
    opt "manager" .string,
    opt "operation" .string,
    opt "subresource" .string,
    opt "time" .time])),
  opt "selfLink" .string]

instance : Wire ObjectMeta where
  toJson m := Json.ofFields <|
    Fields.whenSome "name" m.name ++ Fields.whenSome "namespace" m.ns ++
    Fields.whenSome "generateName" m.generateName ++ Fields.whenSome "uid" m.uid ++
    Fields.whenSome "resourceVersion" m.resourceVersion ++
    Fields.whenSome "generation" m.generation ++ Fields.whenSome "labels" m.labels ++
    Fields.whenSome "annotations" m.annotations ++
    Fields.whenSome "ownerReferences" m.ownerReferences ++ m.other
  ofJson? j := do
    let f ← j.fields?
    return {
      name := ← Fields.optional f "name"
      ns := ← Fields.optional f "namespace"
      generateName := ← Fields.optional f "generateName"
      uid := ← Fields.optional f "uid"
      resourceVersion := ← Fields.optional f "resourceVersion"
      generation := ← Fields.optional f "generation"
      labels := ← Fields.optional f "labels"
      annotations := ← Fields.optional f "annotations"
      ownerReferences := ← Fields.optional f "ownerReferences"
      other := ← Schema.conformFields otherSchema f }

/-- The name, or else the base that a name is to be generated from, or else nothing. -/
def anyName (m : ObjectMeta) : String := (m.name <|> m.generateName).getD ""

def labelsOrEmpty (m : ObjectMeta) : Dict String := m.labels.getD ∅

def isOwnedBy (m : ObjectMeta) (uid : Option String) : Bool :=
  (m.ownerReferences.getD []).any fun owner => some owner.uid == uid

end ObjectMeta

structure LabelRequirement where
  key : String
  operator : String
  values : Option (List String)
  deriving DecidableEq, Inhabited

instance : Wire LabelRequirement where
  toJson r := Json.ofFields <|
    Fields.always "key" r.key ++ Fields.always "operator" r.operator ++
    Fields.whenSome "values" r.values
  ofJson? j := do
    let f ← j.fields?
    return {
      key := ← Fields.lenient f "key" ""
      operator := ← Fields.lenient f "operator" ""
      values := ← Fields.optional f "values" }

structure LabelSelector where
  matchLabels : Option (Dict String) := none
  matchExpressions : Option (List LabelRequirement) := none
  deriving DecidableEq, Inhabited

instance : Wire LabelSelector where
  toJson s := Json.ofFields <|
    Fields.whenSome "matchLabels" s.matchLabels ++
    Fields.whenSome "matchExpressions" s.matchExpressions
  ofJson? j := do
    let f ← j.fields?
    return {
      matchLabels := ← Fields.optional f "matchLabels"
      matchExpressions := ← Fields.optional f "matchExpressions" }

end PushOperator
