import PushOperator.Pass.Backups
import PushOperator.Pass.Broker
import PushOperator.Pass.Database
import PushOperator.Pass.Frontend
import PushOperator.Pass.Legacy
import PushOperator.Pass.Monitoring

/-!
# Running a pass

A pass reads the server, leaves it alone while another server of the namespace is active, goes
through the steps, and writes what has become of it into the status. A pass that fails says so in
the status and in an event, and is tried again soon.
-/

namespace PushOperator

namespace Pass

def isOtherActive (server other : Server) : Bool :=
  other.anyName ≠ server.anyName && (Server.phase other).isActive

/-- Halts when another server of the namespace is active, unless this one is itself. -/
def deferToActive : Pass Unit := do
  let server ← server
  if (Server.phase server).isActive then return
  let ns ← (server.metadata.requireNs : Task String)
  let others ← Task.call (.list .unifiedPushServer ns "")
  if others.any (isOtherActive server) then stop .awaitChange

/-- Puts a server that was not seen before at the beginning of its life. -/
def start : Pass Unit := do
  let state ← get
  if Server.isNew state.server then
    set { state with server := Server.start state.server }
    persist

def converge (settings : Settings) : Pass Unit := do
  reconcileBroker
  removeLegacyKinds
  reconcileDatabase settings
  reconcileFrontend settings
  reconcileBackups settings
  reconcileMonitoring

def succeed : Pass Unit := do
  let state ← get
  set { state with
    server := Server.succeed state.server state.ready state.children
    children := ∅ }
  persist

def body (settings : Settings) : Pass Action := do
  deferToActive
  start
  converge settings
  succeed
  return .requeue 30

/-- The end of a pass that has failed: the status and an event say why. If the status can not be
written either, that is all. -/
def conclude (error : Error) (state : PassState) : Interaction Action := do
  let failed := { state with server := Server.fail state.server error }
  let event := { reason := .reconcileFailed, message := error.message }
  .emit failed.server event do
    let _ ← persist.exec failed
    return .requeue 5

/-- A whole pass over a server, failure included. -/
def run (settings : Settings) (server : Server) : Interaction Action := do
  let (result, state) ← (body settings).exec { server, stored := server.status }
  match result with
  | .ok action | .error (.early action) => return action
  | .error (.failed error) => conclude error state

end Pass

/-- One pass for the server called `name` in a namespace, if it is watched and the server exists. -/
def reconcile (settings : Settings) (ns name : String) : Task Action := do
  if !settings.watches ns then return .awaitChange
  match ← Task.call (.get .unifiedPushServer ns name) with
  | none => return .awaitChange
  | some server => ExceptT.mk (Pass.run settings server >>= fun action => .done (.ok action))

/-- One pass for a server that something has happened to. -/
def handleApply (settings : Settings) (server : Server) : Task Action := do
  let ns ← server.metadata.requireNs
  let name ← server.metadata.requireName
  reconcile settings ns name

/-- What to do about an error that `handleApply` has let through. -/
def handleError (requeue : Option Nat) : Action :=
  match requeue with
  | some seconds => .requeue seconds
  | none => .awaitChange

/-- A server whose pass returned an error is tried again after five seconds. -/
def errorPolicy : Action := handleError (some 5)

end PushOperator
