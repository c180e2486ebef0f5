import PushOperator.Http.Basic

/-!
# The cluster behind the API server

Every request of an interaction is one request over HTTP, as long as the names in it make up a
target. An object that is not there is no error when it is fetched or deleted, and neither is an API
version that is not there when it is asked for.
-/

namespace PushOperator.Http

def groupPath (k : Kind) : String :=
  if k.isCore then "/api/" ++ k.apiVersion else "/apis/" ++ k.apiVersion

/-- The path of the objects of a kind, in one namespace or in all of them. -/
def collectionPath (k : Kind) : Option String → String
  | some ns => groupPath k ++ "/namespaces/" ++ ns ++ "/" ++ k.plural
  | none => groupPath k ++ "/" ++ k.plural

def objectPath (k : Kind) (ns name : String) : Conversation String :=
  if name = "" then throw .unreachable
  else return collectionPath k (some ns) ++ "/" ++ name

variable {k : Kind}

def nsOf (object : Object k) : Conversation String := liftExcept object.metadata.requireNs
where
  liftExcept {α : Type} : Except Error α → Conversation α
    | .ok a => pure a
    | .error e => throw e

def pathOf (object : Object k) : Conversation String := do
  let ns ← nsOf object
  match object.metadata.name with
  | some name => objectPath k ns name
  | none => throw .unnamedObject

/-- Succeeds with a value in place of a failure that meets a test. -/
def recover {α : Type} (c : Conversation α) (isFine : Error → Bool) (value : α) :
    Conversation α :=
  tryCatch c fun e => if isFine e then pure value else throw e

/-- Whether the API server gives as its reason that there is no such thing. -/
def saysNotFound : Error → Bool
  | .api e => e.reason == "NotFound"
  | _ => false

/-- The conversation behind a request. What a name or a namespace says after a question mark goes
into the query. -/
def converse : (request : Request) → Conversation request.Reply
  | .get k ns name => do
    let path ← objectPath k ns name
    recover (fetch "GET" path none fun j => (ofJson? j).map some) saysNotFound none
  | .list k ns selector =>
    let path := collectionPath k (some ns)
    fetch "GET" (path ++ "?&labelSelector=" ++ Query.encode selector) none (objects? k)
  | .create k object => do
    let path := collectionPath k (some (← nsOf object))
    fetch "POST" (path ++ "?") (some (toJson object)) ofJson?
  | .update _ object => do
    let path ← pathOf object
    fetch "PUT" (path ++ "?") (some (toJson object)) ofJson?
  | .updateStatus _ object => do
    let path ← pathOf object
    fetch "PUT" (path ++ "/status?") (some (toJson object)) ofJson?
  | .delete k object => do
    let path ← pathOf object
    let options := Json.ofFields [("propagationPolicy", .string "Background")]
    recover (fetch "DELETE" (path ++ "?") (some options) (isDeleted k)) Error.isNotFound ()
  | .probe groupVersion =>
    recover (fetch "GET" ("/apis/" ++ groupVersion) none fun j =>
      (isResourceList j).map fun _ => true) Error.isNotFound false

def answer (request : Request) (e : Exchange) : Except Error request.Reply × Exchange :=
  (converse request).run.run e

end PushOperator.Http
