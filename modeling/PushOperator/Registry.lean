import PushOperator.Json.Wire

/-!
# The registry of children

The registry lists the names of a server's children under their kinds, each name once. Taking a name
out moves the last name of its kind into the free place, so the order of the others may change.
-/

namespace PushOperator

structure Registry where
  kinds : Dict (List String)
  deriving DecidableEq, Inhabited

namespace Registry

instance : EmptyCollection Registry := ⟨⟨∅⟩⟩

instance : Wire Registry where
  toJson r := toJson r.kinds
  ofJson? j := (ofJson? j).map Registry.mk

def names (r : Registry) (kind : String) : List String := (r.kinds.get? kind).getD []

def contains (r : Registry) (kind name : String) : Bool := (r.names kind).contains name

/-- Whether no kind was ever recorded. -/
def isEmpty (r : Registry) : Bool := r.kinds.isEmpty

/-- The registry of the given names; of two lists under one kind the later wins. -/
def ofList (entries : List (String × List String)) : Registry := ⟨Dict.ofList entries⟩

/-- Takes a name out of a list and moves the last name into its place. -/
def swapRemove (name : String) (names : List String) : List String :=
  match names.idxOf? name with
  | some i => (names.set i (names.getLastD name)).dropLast
  | none => names

/-- Records a name under a kind, unless it is there. -/
def add (r : Registry) (kind name : String) : Registry :=
  let names := r.names kind
  ⟨r.kinds.insert kind (if names.contains name then names else names ++ [name])⟩

def remove (r : Registry) (kind name : String) : Registry :=
  match r.kinds.get? kind with
  | some names => ⟨r.kinds.insert kind (swapRemove name names)⟩
  | none => r

end Registry

end PushOperator
