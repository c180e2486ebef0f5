import PushOperator.Child.Basic
import PushOperator.Text.LowerCase

/-!
# The message broker

The address space of a server, the user it connects as, the secret with the credentials, and the
queues and topics. The address space has a fixed name, so a namespace has room for one server with a
broker.
-/

namespace PushOperator.Child.Broker

/-- The name of the address space; the names of its user and addresses start with it. -/
def spaceName : String := "ups"

/-- The user that the server connects as. -/
def username : String := "upsuser"

def messagingEndpoint : String := "messaging"

def port : String := "5672"

def passwordKey : String := "artemis-password"

def urlKey : String := "artemis-url"

def queues : List String := [
  "APNsPushMessageQueue",
  "APNsTokenBatchQueue",
  "GCMPushMessageQueue",
  "GCMTokenBatchQueue",
  "WNSPushMessageQueue",
  "WNSTokenBatchQueue",
  "MetricsQueue",
  "TriggerMetricCollectionQueue",
  "TriggerVariantMetricCollectionQueue",
  "BatchLoadedQueue",
  "AllBatchesLoadedQueue",
  "FreeServiceSlotQueue"]

def topics : List String := ["MetricsProcessingStartedTopic", "topic/APNSClient"]

def userName : String := spaceName ++ "." ++ username

/-- An address without the prefix that topics may carry. -/
def stripTopic (address : String) : String :=
  if "topic/".toList.isPrefixOf address.toList then String.ofList (address.toList.drop 6)
  else address

def addressName (address : String) : String :=
  spaceName ++ "." ++ Text.lower (stripTopic address)

def secretName (server : Server) : String := childName server amq

def addressSpace (server : Server) : Except Error AddressSpace := do
  return {
    metadata := ← namedMeta server spaceName (labels server spaceName)
    spec := { type := "brokered", plan := "brokered-single-broker" }
    status := none }

/-- The user that the server connects as; it may send and receive at every address. -/
def messagingUser (server : Server) (password : String) : Except Error MessagingUser := do
  return {
    metadata := ← namedMeta server userName (labels server userName)
    spec := {
      username
      authentication := { type := "password", password := some (.ofText password) }
      authorization := [{ addresses := ["*"], operations := ["send", "recv"] }] }
    status := () }

def secret (server : Server) (password url : String) : Except Error Secret := do
  return {
    metadata := ← objectMeta server amq
    spec := { stringData := some (Dict.ofList [(passwordKey, password), (urlKey, url)]) }
    status := () }

def newAddress (server : Server) (address type plan : String) : Except Error Address := do
  return {
    metadata := ← namedMeta server (addressName address) (Dict.ofList [("app", server.anyName)])
    spec := { address, type, plan }
    status := none }

def queue (server : Server) (address : String) : Except Error Address :=
  newAddress server address "queue" "brokered-queue"

def topic (server : Server) (address : String) : Except Error Address :=
  newAddress server address "topic" "brokered-topic"

/-- All addresses of a server, each with how it is built. -/
def catalogue : List (String × (Server → Except Error Address)) :=
  queues.map (fun address => (address, (queue · address))) ++
    topics.map (fun address => (address, (topic · address)))

end PushOperator.Child.Broker
