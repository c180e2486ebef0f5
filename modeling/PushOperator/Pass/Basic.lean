import PushOperator.Interaction.Task
import PushOperator.Readiness

/-!
# Passes

A pass brings the children of one server in line with its spec, step by step. It goes on until all
steps are done, unless a step fails or has to wait for something; then the pass halts, and the next
one starts over from what is there.
-/

namespace PushOperator

/-- When to look at a server again. -/
inductive Action where
  | awaitChange
  | requeue (seconds : Nat)
  deriving DecidableEq, Inhabited

/-- Why a pass halts before its end. -/
inductive Halt where
  | failed (error : Error)
  /-- A step has nothing more to do for now. -/
  | early (action : Action)

/-- The state of a pass: the server, its status as last read or written, the children seen so far,
and whether all of them are ready. -/
structure PassState where
  server : Server
  stored : Option ServerStatus
  children : Registry := ∅
  ready : Bool := true

/-- A part of a pass. What it has changed in the state remains when it halts. -/
abbrev Pass := ExceptT Halt (StateT PassState Interaction)

namespace Pass

/-- The interaction of a part of a pass, from a state to a result and the state then. -/
def exec {α : Type} (pass : Pass α) (state : PassState) :
    Interaction (Except Halt α × PassState) :=
  StateT.run (ExceptT.run pass) state

def ofTask {α : Type} (task : Task α) : Pass α :=
  ExceptT.mk fun state => task.run.bind fun
    | .ok result => .done (.ok result, state)
    | .error error => .done (.error (.failed error), state)

instance : MonadLift Task Pass := ⟨ofTask⟩

def stop {α : Type} (action : Action) : Pass α := throw (.early action)

def report (reason : Reason) (message : String) : Pass Unit :=
  ExceptT.mk fun state =>
    .emit state.server { reason, message } (.done (.ok (), state))

def server : Pass Server := return (← get).server

def noteReady (ready : Bool) : Pass Unit :=
  modify fun state => { state with ready := state.ready && ready }

def record (k : Kind) (name : String) : Pass Unit :=
  modify fun state => { state with children := state.children.add k.name name }

def forget (k : Kind) (name : String) : Pass Unit :=
  modify fun state => { state with children := state.children.remove k.name name }

/-- Writes the status of the server, unless it is stored already. -/
def persist : Pass Unit := do
  let state ← get
  let server ← Task.persist state.server state.stored
  set { state with server, stored := server.status }

/-- Records a child, and reports it when it was just created. -/
def track {k : Kind} (ensured : Ensured k) : Pass Unit := do
  let name ← (ensured.object.metadata.requireName : Task String)
  record k name
  if ensured.wasCreated then report .childCreated ("Created " ++ k.name ++ " " ++ name)

def ensure {k : Kind} (name : String) (build : Server → Task (Object k)) : Pass (Ensured k) := do
  let server ← server
  let ensured ← Task.ensureExists server name (build server)
  track ensured
  return ensured

/-- Halts after a correction, so that the next pass sees the corrected child. -/
def stopCorrected (corrected : Bool) (k : Kind) (name what : String) : Pass Unit := do
  if corrected then
    report .driftCorrected ("Restored " ++ what ++ " of " ++ k.name ++ " " ++ name)
    stop (.requeue 1)

end Pass

end PushOperator
