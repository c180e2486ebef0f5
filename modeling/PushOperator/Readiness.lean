import PushOperator.Child.Basic

/-!
# Readiness

Whether children are ready, as far as one can see. A child that is not there is not ready.
-/

namespace PushOperator

/-- Whether a route is ready: no router has refused it. -/
def Route.isReady : Option Route → Bool
  | none => false
  | some route =>
    let ingress := (route.status.map (·.ingress)).getD []
    (ingress.flatMap (·.conditions)).all fun condition =>
      condition.type ≠ "Admitted" || condition.status == "True"

/-- Whether a deployment is ready: it is not in the middle of something. A deployment that can not
make its pods has failed. -/
def Deployment.isReady : Option Deployment → Except Error Bool
  | none => .ok false
  | some deployment => do
    let conditions := ((deployment.status.bind (·.conditions)).getD [])
    match conditions.find? (·.type == "ReplicaFailure") with
    | some failure =>
      let name ← deployment.metadata.requireName
      .error (.childFailed Kind.deployment.name name (failure.reason.getD failure.status))
    | none =>
      return conditions.all fun condition =>
        condition.type ≠ "Progressing" || condition.status == "True"

/-- Whether a job is ready: it has succeeded exactly once. -/
def Job.isReady : Option Job → Bool
  | none => false
  | some job => job.status.bind (·.succeeded) == some 1

def AddressSpace.isReady (space : AddressSpace) : Bool := space.status.any (·.isReady)

/-- The host of an endpoint of an address space, once it is known. -/
def AddressSpace.endpointHost? (space : AddressSpace) (endpoint : String) : Option String := do
  let status ← space.status
  (← status.endpointStatuses.find? (·.name == endpoint)).serviceHost

def Address.isReady (address : Address) : Bool := address.status.any (·.isReady)

/-- The password of a broker user, if it has one that is text. -/
def MessagingUser.password? (user : MessagingUser) : Option String :=
  user.spec.authentication.password.bind Bytes.text?

end PushOperator
