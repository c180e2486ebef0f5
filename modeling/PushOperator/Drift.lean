import PushOperator.Object

/-!
# Drift

How a live child may differ from the wanted one in what the operator looks after: the storage of a
claim, and the resources and images of containers. A check answers the live child with one
difference put right, or nothing when there is none.
-/

namespace PushOperator

/-! ## Claims -/

namespace Claim

def storage? (claim : Claim) : Option String := do
  let resources ← (← claim.spec).resources
  (← resources.requests).get? "storage"

def withStorage (claim : Claim) (size : String) : Claim :=
  let spec := claim.spec.getD {}
  let resources := spec.resources.getD {}
  let requests := (resources.requests.getD ∅).insert "storage" size
  { claim with spec := some {
      spec with resources := some { resources with requests := some requests } } }

/-- The live claim with the storage of the wanted one, when the two ask for different storage. A
wanted claim that asks for none leaves the live one as it is. -/
def storageDrift (found desired : Claim) : Option Claim :=
  if storage? found = storage? desired then none
  else match storage? desired with
    | some size => some (withStorage found size)
    | none => some found

end Claim

/-! ## Deployments -/

namespace Deployment

def containers (deployment : Deployment) : List Container :=
  match deployment.spec.bind (·.template.spec) with
  | some pod => pod.containers
  | none => []

/-- A deployment with other containers, if it says anything about its pods. -/
def mapContainers (f : List Container → List Container) (deployment : Deployment) : Deployment :=
  { deployment with spec := deployment.spec.map fun spec =>
      { spec with template := { spec.template with spec := spec.template.spec.map fun pod =>
          { pod with containers := f pod.containers } } } }

/-- Whether a live container is there with other resources than the wanted one. -/
def hasOtherResources (found : Deployment) (expected : Container) : Bool :=
  match findContainer (containers found) expected.name with
  | some live => live.resources ≠ expected.resources
  | none => false

/-- The live deployment with the resources of the first container that has others than wanted. -/
def resourcesDrift (found desired : Deployment) : Option Deployment :=
  ((containers desired).find? (hasOtherResources found)).map fun expected =>
    mapContainers
      (modifyContainer (fun c => { c with resources := expected.resources }) expected.name) found

/-- The live deployment with the wanted image of the container called `name`. -/
def imageDrift (found desired : Deployment) (name : String) : Option Deployment := do
  let expected ← findContainer (containers desired) name
  let live ← findContainer (containers found) name
  if live.image = expected.image then none
  else
    let f := modifyContainer (fun c => { c with image := expected.image }) name
    return mapContainers f found

end Deployment

end PushOperator
