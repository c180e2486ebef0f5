import PushOperator.Http.Repository
import PushOperator.Pass.Run

/-!
# The controller

The controller asks for the servers and their children, in one namespace or in all of them, and runs
a pass for a server when it is first seen and then again whenever the last pass asks for it. Time is
counted in seconds.
-/

namespace PushOperator.Controller

/-! ## What is watched -/

def commonKinds : List Kind := [
  .unifiedPushServer, .deployment, .service, .secret, .persistentVolumeClaim, .serviceAccount,
  .cronJob]

/-- The kinds to be watched: those of optional APIs only if the cluster serves them. -/
def watchedKinds : Task (List Kind) := do
  let routes ← Task.call (.probe Kind.route.apiVersion)
  let brokers ← Task.call (.probe Kind.addressSpace.apiVersion)
  return commonKinds ++ (if routes then [.route] else []) ++
    if brokers then [.addressSpace, .address] else []

/-- The path at which the objects of a kind are asked for, if they can be. A namespace that is no
name may end the path early. -/
def askedPath? (ns : Option String) (k : Kind) : Option String :=
  (Http.Target.parse? (Http.collectionPath k ns ++ "?")).map (·.path)

/-- The paths at which objects of some kinds are asked for, ascending. -/
def watchedPaths (kinds : List Kind) (ns : Option String) : List String :=
  (kinds.filterMap (askedPath? ns)).eraseDups.mergeSort (· ≤ ·)

/-- Whether the path at which the servers are asked for leads to servers. If it does, the API server
lists all of them: it is not the controller that picks those of a namespace. -/
def seesServers (ns : Option String) : Bool :=
  (askedPath? ns .unifiedPushServer).any (·.endsWith ("/" ++ Kind.unifiedPushServer.plural))

/-! ## When passes are run -/

/-- The servers to be looked at again, each with the seconds until then. -/
abbrev Agenda := List (Server × Nat)

def nextAction : Except Error Action → Action
  | .ok action => action
  | .error _ => errorPolicy

/-- The passes of one second: those whose time has come. A pass takes no time, and the next one for
its server comes a second later at the earliest. -/
def second (settings : Settings) : Agenda → Interaction Agenda
  | [] => return []
  | (server, wait + 1) :: rest => return (server, wait) :: (← second settings rest)
  | (server, 0) :: rest => do
    let result ← (handleApply settings server).run
    let rest ← second settings rest
    match nextAction result with
    | .awaitChange => return rest
    | .requeue seconds => return (server, seconds - 1) :: rest

def attend (settings : Settings) : Nat → Agenda → Interaction Unit
  | 0, _ | _, [] => return ()
  | seconds + 1, agenda => do attend settings seconds (← second settings agenda)

/-- A run of the controller for some seconds, over the servers that the API server lists at the
beginning. The result is the paths at which it asks for objects; if there is no time, it asks for
none. -/
def start (settings : Settings) (ns : Option String) (servers : List Server) (seconds : Nat) :
    Task (List String) := do
  let kinds ← watchedKinds
  let agenda := if seesServers ns then servers.map (·, 0) else []
  ExceptT.mk <| (attend settings seconds agenda).bind fun _ => .done (.ok ())
  return if seconds = 0 then [] else watchedPaths kinds ns

end PushOperator.Controller
