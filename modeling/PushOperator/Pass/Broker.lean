import PushOperator.Child.Broker
import PushOperator.Pass.Basic

/-!
# The broker step

A server with a message broker waits here until its address space is ready, and again until all its
addresses are.
-/

namespace PushOperator.Pass

open Child

/-- The host of the messaging endpoint, once the address space is ready and shows it. -/
def messagingHost? (space : Ensured .addressSpace) : Option String := do
  let space ← space.observed
  if AddressSpace.isReady space then AddressSpace.endpointHost? space Broker.messagingEndpoint
  else none

/-- Makes sure of one address and says whether it was there and ready. -/
def ensureAddress (address : String) (build : Server → Except Error Address) : Pass Bool := do
  let ensured ← ensure (k := .address) (Broker.addressName address) fun server => build server
  return ensured.observed.any Address.isReady

def reconcileBroker : Pass Unit := do
  if !(← server).spec.useMessageBroker then return
  let space ← ensure (k := .addressSpace) Broker.spaceName fun server =>
    Broker.addressSpace server
  match messagingHost? space with
  | none => stop (.requeue 10)
  | some host =>
    let user ← ensure (k := .messagingUser) Broker.userName fun server => do
      Broker.messagingUser server (← Task.secret)
    match MessagingUser.password? user.object with
    | none => throw <| .failed <| .userInput <|
        "MessagingUser " ++ Broker.userName ++ " has no password"
    | some password =>
      let _ ← ensure (k := .secret) (Broker.secretName (← server)) fun server =>
        Broker.secret server password host
      let ready ← Broker.catalogue.mapM fun (address, build) => ensureAddress address build
      if !ready.all id then stop (.requeue 5)

end PushOperator.Pass
