import PushOperator.Child.Basic

/-!
# The life of a server

A server starts without a phase, becomes Initializing when it is first seen, and then Reconciling or
Initializing with every pass that succeeds and Failing with every pass that fails. The phase is
found anew by every pass.
-/

namespace PushOperator.Server

def statusOrDefault (server : Server) : ServerStatus := server.status.getD {}

def withStatus (server : Server) (status : ServerStatus) : Server :=
  { server with status := some status }

/-- Whether a server has not been seen before. -/
def isNew (server : Server) : Bool := phase server == .empty

def start (server : Server) : Server :=
  if isNew server then withStatus server { statusOrDefault server with phase := .initializing }
  else server

def fail (server : Server) (error : Error) : Server :=
  withStatus server { statusOrDefault server with
    phase := .failing
    ready := false
    message := error.message }

/-- A server whose pass has succeeded with the given children. -/
def succeed (server : Server) (ready : Bool) (children : Registry) : Server :=
  withStatus server { statusOrDefault server with
    phase := if ready then .reconciling else .initializing
    ready
    message := ""
    secondaryResources := children }

/-- A status that says which generation of the spec it describes, if there is a generation. -/
def observeStatus (status : ServerStatus) (metadata : ObjectMeta) : ServerStatus :=
  match metadata.generation with
  | some generation => { status with observedGeneration := some generation }
  | none => status

def observe (server : Server) : Server :=
  withStatus server (observeStatus (statusOrDefault server) server.metadata)

end PushOperator.Server
