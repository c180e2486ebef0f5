import PushOperator.Interaction.Basic

/-!
# Clusters

A cluster in memory: objects under their kind, namespace and name, a counter of revisions, and the
API versions that are not served. Every write stamps the object with a new revision; an update that
carries the revision of an older read is refused.
-/

namespace PushOperator

/-- The objects of a kind, by namespace and name. -/
abbrev Shelf (k : Kind) := Dict (Dict (Object k))

structure Cluster where
  shelf : (k : Kind) → Shelf k
  revision : Nat
  missingApis : List String

namespace Cluster

def empty : Cluster := ⟨fun _ => ∅, 0, []⟩

variable {k : Kind}

/-! ## Objects -/

def objects (c : Cluster) (k : Kind) (ns : String) : Dict (Object k) :=
  ((c.shelf k).get? ns).getD ∅

def get? (c : Cluster) (k : Kind) (ns name : String) : Option (Object k) :=
  (c.objects k ns).get? name

def setObjects (c : Cluster) (ns : String) (objects : Dict (Object k)) : Cluster :=
  { c with shelf := fun k' =>
      if h : k = k' then h ▸ (c.shelf k).insert ns objects else c.shelf k' }

def put (c : Cluster) (ns name : String) (object : Object k) : Cluster :=
  c.setObjects ns ((c.objects k ns).insert name object)

def remove (c : Cluster) (k : Kind) (ns name : String) : Cluster :=
  c.setObjects ns ((c.objects k ns).erase name)

theorem objects_setObjects (c : Cluster) (ns ns' : String) (objects : Dict (Object k)) :
    (c.setObjects ns objects).objects k ns' = if ns' = ns then objects else c.objects k ns' := by
  unfold Cluster.objects setObjects
  simp only [dite_true, Dict.get?_insert]
  split <;> rfl

theorem objects_setObjects_of_ne {k k' : Kind} (c : Cluster) (ns ns' : String)
    (objects : Dict (Object k)) (h : k ≠ k') :
    (c.setObjects ns objects).objects k' ns' = c.objects k' ns' := by
  simp [Cluster.objects, setObjects, h]

theorem get?_put (c : Cluster) (ns name ns' name' : String) (object : Object k) :
    (c.put ns name object).get? k ns' name' =
      if ns' = ns ∧ name' = name then some object else c.get? k ns' name' := by
  unfold put get?
  rw [objects_setObjects]
  by_cases h : ns' = ns
  · simp [h, Dict.get?_insert]
  · simp [h]

theorem get?_put_of_ne {k k' : Kind} (c : Cluster) (ns name ns' name' : String)
    (object : Object k) (h : k ≠ k') :
    (c.put ns name object).get? k' ns' name' = c.get? k' ns' name' := by
  unfold put get?
  rw [objects_setObjects_of_ne c ns ns' _ h]

theorem get?_remove (c : Cluster) (ns name ns' name' : String) :
    (c.remove k ns name).get? k ns' name' =
      if ns' = ns ∧ name' = name then none else c.get? k ns' name' := by
  unfold remove get?
  rw [objects_setObjects]
  by_cases h : ns' = ns
  · simp [h, Dict.get?_erase]
  · simp [h]

theorem get?_remove_of_ne {k k' : Kind} (c : Cluster) (ns name ns' name' : String) (h : k ≠ k') :
    (c.remove k ns name).get? k' ns' name' = c.get? k' ns' name' := by
  unfold remove get?
  rw [objects_setObjects_of_ne c ns ns' _ h]

/-- The namespace that an object is stored under; an object without one is stored under the empty
text. -/
def nsOf (object : Object k) : String := object.metadata.ns.getD ""

/-- The name that an object is stored under; without a name it is stored under the empty text. -/
def nameOf (object : Object k) : String := object.metadata.name.getD ""

/-- Kind, namespace and name of every object, ascending. -/
def keys (c : Cluster) : List (Kind × String × String) :=
  Kind.all.flatMap fun k => (c.shelf k).entries.flatMap fun (ns, objects) =>
    objects.keys.map fun name => (k, ns, name)

/-! ## Revisions -/

/-- An object with the revision `n` as its version, and a uid made from it if it has none. -/
def stamped (n : Nat) (object : Object k) : Object k :=
  { object with metadata := { object.metadata with
      uid := some (object.metadata.uid.getD ("uid-" ++ toString n))
      resourceVersion := some (toString n) } }

/-- Stores an object with a new revision; the result is the object as stored. -/
def store (c : Cluster) (ns name : String) (object : Object k) : Object k × Cluster :=
  let object := stamped (c.revision + 1) object
  (object, { c with revision := c.revision + 1 }.put ns name object)

/-! ## Selectors -/

/-- Whether labels meet one part of a selector: `key=value` asks for a label, a bare key for any
label of that key, and an empty part for nothing. -/
def meets (labels : Dict String) (part : String) : Bool :=
  if part = "" then true
  else
    let key := String.ofList (part.toList.takeWhile (· ≠ '='))
    match part.toList.dropWhile (· ≠ '=') with
    | _ :: value => labels.get? key == some (String.ofList value)
    | [] => labels.contains key

def selects (selector : String) (labels : Dict String) : Bool :=
  ((selector.toList.splitOn ',').map String.ofList).all (meets labels)

/-! ## Answers -/

def alreadyExists (k : Kind) (name : String) : Error :=
  .api {
    message := k.name ++ " " ++ name ++ " already exists"
    reason := "AlreadyExists"
    code := 409 }

def notFound (k : Kind) (name : String) : Error :=
  .api { message := k.name ++ " " ++ name ++ " not found", reason := "NotFound", code := 404 }

def conflict (k : Kind) (name : String) : Error :=
  .api {
    message := "the object " ++ k.name ++ " " ++ name ++ " has been modified"
    reason := "Conflict"
    code := 409 }

/-- Whether an object was read at another version than the stored one. -/
def isStale (object stored : Object k) : Bool :=
  object.metadata.resourceVersion.isSome &&
    object.metadata.resourceVersion ≠ stored.metadata.resourceVersion

/-- Writes `merged object stored` in place of the stored object, unless it has changed. -/
def replace (c : Cluster) (object : Object k) (merged : Object k → Object k) :
    Except Error (Object k) × Cluster :=
  match c.get? k (nsOf object) (nameOf object) with
  | none => (.error (notFound k (nameOf object)), c)
  | some stored =>
    if isStale object stored then (.error (conflict k (nameOf object)), c)
    else
      let (object, c) := c.store (nsOf object) (nameOf object) (merged stored)
      (.ok object, c)

def answer : (request : Request) → Cluster → Except Error request.Reply × Cluster
  | .get k ns name, c => (.ok (c.get? k ns name), c)
  | .list k ns selector, c =>
    (.ok ((c.objects k ns).values.filter fun o => selects selector o.metadata.labelsOrEmpty), c)
  | .create k object, c =>
    match c.get? k (nsOf object) (nameOf object) with
    | some _ => (.error (alreadyExists k (nameOf object)), c)
    | none =>
      let (object, c) := c.store (nsOf object) (nameOf object) object
      (.ok object, c)
  | .update _ object, c => c.replace object fun stored =>
    { object with
      metadata := { object.metadata with uid := stored.metadata.uid }
      status := stored.status }
  | .updateStatus _ object, c => c.replace object fun stored =>
    { stored with status := object.status }
  | .delete k object, c =>
    match c.get? k (nsOf object) (nameOf object) with
    | none => (.error (notFound k (nameOf object)), c)
    | some _ => (.ok (), c.remove k (nsOf object) (nameOf object))
  | .probe groupVersion, c => (.ok (!c.missingApis.contains groupVersion), c)

end Cluster

end PushOperator
