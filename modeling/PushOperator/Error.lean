import PushOperator.Text.Quoted

/-!
# Errors

What can go wrong, and the words for it. The words end up in the status of a failed server.
-/

namespace PushOperator

/-- An answer of the API server that refuses a request. -/
structure ApiError where
  status : String := "Failure"
  message : String
  reason : String
  code : Nat
  deriving DecidableEq, Inhabited

def ApiError.text (e : ApiError) : String :=
  "ApiError: " ++ e.message ++ ": " ++ e.reason ++ " (ErrorResponse \x7b status: " ++
    Text.quoted e.status ++ ", message: " ++ Text.quoted e.message ++ ", reason: " ++
    Text.quoted e.reason ++ ", code: " ++ toString e.code ++ " \x7d)"

inductive Error where
  | api (e : ApiError)
  /-- The API server could not be talked to or understood. -/
  | unreachable
  /-- A setting or a value of a spec can not be used as given. -/
  | configuration (text : String)
  /-- A resource lacks what is needed to work with it. -/
  | userInput (text : String)
  | unnamedObject
  | childFailed (kind name reason : String)
  /-- Another holder of a lock failed inside. -/
  | lockPoisoned (text : String)
  | emitEventFailed (text : String)
  deriving DecidableEq, Inhabited

namespace Error

def message : Error → String
  | api e => "Kubernetes reported error: " ++ e.text
  | unreachable => "Kubernetes reported error"
  | configuration text => "Invalid configuration: " ++ text
  | userInput text => text
  | unnamedObject => "Unnamed k8s object"
  | childFailed kind name reason => kind ++ " " ++ name ++ " failed: " ++ reason
  | lockPoisoned text => "RwLock poisoned: " ++ text
  | emitEventFailed text => "Failed to emit event: " ++ text

def poisoned : Error := lockPoisoned "poisoned lock: another task failed inside"

def noNamespace : Error := userInput "Object has no namespace to place its children in"

def isNotFound : Error → Bool
  | api e => e.code == 404
  | _ => false

end Error

end PushOperator
