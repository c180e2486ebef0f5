import PushOperator.Kubernetes.Core

/-!
# Message broker

The resources of the message broker: address spaces, the addresses in them, and their users.
-/

namespace PushOperator

/-- A tenant of the broker that addresses and users belong to. -/
structure AddressSpaceSpec where
  type : String
  plan : String
  deriving DecidableEq, Inhabited

instance : Wire AddressSpaceSpec where
  toJson x := Json.ofFields <|
    Fields.always "type" x.type ++ Fields.always "plan" x.plan
  ofJson? j := do
    let f ← j.record? ["type", "plan"]
    return {
      type := ← Fields.required f "type"
      plan := ← Fields.required f "plan" }

/-- A way into an address space. -/
structure EndpointStatus where
  name : String
  serviceHost : Option String := none
  deriving DecidableEq, Inhabited

instance : Wire EndpointStatus where
  toJson x := Json.ofFields <|
    Fields.always "name" x.name ++ Fields.whenSome "serviceHost" x.serviceHost
  ofJson? j := do
    let f ← j.record? ["name", "serviceHost"]
    return {
      name := ← Fields.required f "name"
      serviceHost := ← Fields.optional f "serviceHost" }

structure AddressSpaceStatus where
  isReady : Bool := false
  endpointStatuses : List EndpointStatus := []
  deriving DecidableEq, Inhabited

instance : Wire AddressSpaceStatus where
  toJson x := Json.ofFields <|
    Fields.always "isReady" x.isReady ++ Fields.always "endpointStatuses" x.endpointStatuses
  ofJson? j := do
    let f ← j.record? ["isReady", "endpointStatuses"]
    return {
      isReady := ← Fields.defaulted f "isReady" false
      endpointStatuses := ← Fields.defaulted f "endpointStatuses" [] }

/-- A queue or topic. -/
structure AddressSpec where
  address : String
  type : String
  plan : String
  deriving DecidableEq, Inhabited

instance : Wire AddressSpec where
  toJson x := Json.ofFields <|
    Fields.always "address" x.address ++ Fields.always "type" x.type ++
    Fields.always "plan" x.plan
  ofJson? j := do
    let f ← j.record? ["address", "type", "plan"]
    return {
      address := ← Fields.required f "address"
      type := ← Fields.required f "type"
      plan := ← Fields.required f "plan" }

structure AddressStatus where
  isReady : Bool := false
  deriving DecidableEq, Inhabited

instance : Wire AddressStatus where
  toJson x := Json.ofFields <|
    Fields.always "isReady" x.isReady
  ofJson? j := do
    let f ← j.record? ["isReady"]
    return {
      isReady := ← Fields.defaulted f "isReady" false }

structure UserAuthentication where
  type : String
  password : Option Bytes := none
  deriving DecidableEq, Inhabited

instance : Wire UserAuthentication where
  toJson x := Json.ofFields <|
    Fields.always "type" x.type ++ Fields.whenSome "password" x.password
  ofJson? j := do
    let f ← j.record? ["type", "password"]
    return {
      type := ← Fields.required f "type"
      password := ← Fields.optional f "password" }

structure UserAuthorization where
  addresses : List String
  operations : List String
  deriving DecidableEq, Inhabited

instance : Wire UserAuthorization where
  toJson x := Json.ofFields <|
    Fields.always "addresses" x.addresses ++ Fields.always "operations" x.operations
  ofJson? j := do
    let f ← j.record? ["addresses", "operations"]
    return {
      addresses := ← Fields.required f "addresses"
      operations := ← Fields.required f "operations" }

structure MessagingUserSpec where
  username : String
  authentication : UserAuthentication
  authorization : List UserAuthorization := []
  deriving DecidableEq, Inhabited

instance : Wire MessagingUserSpec where
  toJson x := Json.ofFields <|
    Fields.always "username" x.username ++ Fields.always "authentication" x.authentication ++
    Fields.always "authorization" x.authorization
  ofJson? j := do
    let f ← j.record? ["username", "authentication", "authorization"]
    return {
      username := ← Fields.required f "username"
      authentication := ← Fields.required f "authentication"
      authorization := ← Fields.defaulted f "authorization" [] }

end PushOperator
