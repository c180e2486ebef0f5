import PushOperator.Http.Target
import PushOperator.Interaction.Task
import PushOperator.Json.Reader
import PushOperator.Json.Text

/-!
# The API over HTTP

Requests to the API server and what is made of its responses. An exchange holds the responses that
are still to come and the requests made so far; when no response is left, the server is unreachable.
-/

namespace PushOperator.Http

structure HttpRequest where
  method : String
  target : Target
  body : Option Json := none

structure Response where
  status : Nat
  body : String

/-- Responses to come, and requests made; the latest request comes first. -/
structure Exchange where
  responses : List Response
  requests : List HttpRequest := []

abbrev Conversation := ExceptT Error (StateM Exchange)

/-! ## Refusals -/

def statusReason : Nat → String
  | 400 => "Bad Request"
  | 401 => "Unauthorized"
  | 402 => "Payment Required"
  | 403 => "Forbidden"
  | 404 => "Not Found"
  | 405 => "Method Not Allowed"
  | 406 => "Not Acceptable"
  | 407 => "Proxy Authentication Required"
  | 408 => "Request Timeout"
  | 409 => "Conflict"
  | 410 => "Gone"
  | 411 => "Length Required"
  | 412 => "Precondition Failed"
  | 413 => "Payload Too Large"
  | 414 => "URI Too Long"
  | 415 => "Unsupported Media Type"
  | 416 => "Range Not Satisfiable"
  | 417 => "Expectation Failed"
  | 418 => "I'm a teapot"
  | 421 => "Misdirected Request"
  | 422 => "Unprocessable Entity"
  | 423 => "Locked"
  | 424 => "Failed Dependency"
  | 425 => "Too Early"
  | 426 => "Upgrade Required"
  | 428 => "Precondition Required"
  | 429 => "Too Many Requests"
  | 431 => "Request Header Fields Too Large"
  | 451 => "Unavailable For Legal Reasons"
  | 500 => "Internal Server Error"
  | 501 => "Not Implemented"
  | 502 => "Bad Gateway"
  | 503 => "Service Unavailable"
  | 504 => "Gateway Timeout"
  | 505 => "HTTP Version Not Supported"
  | 506 => "Variant Also Negotiates"
  | 507 => "Insufficient Storage"
  | 508 => "Loop Detected"
  | 510 => "Not Extended"
  | 511 => "Network Authentication Required"
  | _ => "<unknown status code>"

def refusal? (j : Json) : Option ApiError := do
  let f ← j.record? ["status", "message", "reason", "code"]
  let code : UInt16 ← Fields.required f "code"
  return {
    status := ← Fields.required f "status"
    message := ← Fields.defaulted f "message" ""
    reason := ← Fields.defaulted f "reason" ""
    code := code.toNat }

/-- The refusal in a response. One that is not worded as it should be is quoted. -/
def refusal (r : Response) : ApiError :=
  match (Json.document? r.body).bind refusal? with
  | some e => e
  | none => {
      status := toString r.status ++ " " ++ statusReason r.status
      message := Text.quoted r.body
      reason := "Failed to parse error data"
      code := r.status }

/-! ## Sending -/

/-- Sends a request, unless its target is none; the result is the body of a response that grants
it. -/
def send (method target : String) (body : Option Json) : Conversation String := do
  match Target.parse? target with
  | none => throw .unreachable
  | some target =>
    modify fun e => { e with requests := { method, target, body } :: e.requests }
    match (← get).responses with
    | [] => throw .unreachable
    | r :: rest =>
      modify fun e => { e with responses := rest }
      if 400 ≤ r.status ∧ r.status < 600 then throw (.api (refusal r))
      return r.body

def fetch {α : Type} (method target : String) (body : Option Json) (read : Json → Option α) :
    Conversation α := do
  match (Json.document? (← send method target body)).bind read with
  | some result => return result
  | none => throw .unreachable

/-! ## Reading responses -/

open Schema in
def listMeta : Schema := .object [
  opt "continue" .string,
  opt "remainingItemCount" .int64,
  opt "resourceVersion" .string,
  opt "selfLink" .string]

/-- The objects of a list in a response. What else the list says has to be readable. -/
def objects? (k : Kind) (j : Json) : Option (List (Object k)) := do
  let f ← j.fields?
  let names := ["metadata", "items"]
  let _ ← Json.valueFields? (f.filter fun field => field.1 ∉ names)
  if !Fields.isUnambiguous f names then none
  let _ ← Fields.last? f "metadata" listMeta.conform
  let items ← (Fields.last? f "items" (Fields.orNull ofJson?)).join
  return items.getD []

open Schema in
def resourceList : Schema := .object [
  req "groupVersion" .string,
  req "resources" (.list (.object [
    opt "categories" (.list .string),
    opt "group" .string,
    req "kind" .string,
    req "name" .string,
    req "namespaced" .bool,
    opt "shortNames" (.list .string),
    req "singularName" .string,
    opt "storageVersionHash" .string,
    req "verbs" (.list .string),
    opt "version" .string]))]

def isResourceList (j : Json) : Option Unit := do
  if Fields.isOfOtherType (← j.fields?) "v1" "APIResourceList" then none
  let _ ← resourceList.conform j

/-- Whether the given fields are texts, as far as they are there. -/
def haveTexts (f : Fields) (names : List String) : Option Unit :=
  names.forM fun name => (Fields.defaulted f name "").map fun _ => ()

def isStatusCause (j : Json) : Option Unit := do
  let names := ["reason", "message", "field"]
  haveTexts (← j.record? names) names

def isStatusDetails (j : Json) : Option Unit := do
  let texts := ["name", "group", "kind", "uid"]
  let f ← j.record? (texts ++ ["causes", "retryAfterSeconds"])
  haveTexts f texts
  let _ ← Fields.last? f "causes" fun j => do (← j.items?).mapM isStatusCause
  let _ ← Fields.defaulted f "retryAfterSeconds" (0 : UInt32)

/-- Whether a value is one of the outcomes of a request: a name, or an object with the name as its
only field, over null. -/
def isOutcome : Json → Option Unit
  | .string name | .object [(name, .null)] =>
    if name = "Success" ∨ name = "Failure" then some () else none
  | _ => none

def isStatus (j : Json) : Option Unit := do
  let f ← j.record? ["status", "code", "message", "reason", "details"]
  haveTexts f ["message", "reason"]
  let _ ← Fields.defaulted f "code" (0 : UInt16)
  let _ ← Fields.last? f "status" (Fields.orNull isOutcome)
  let _ ← Fields.last? f "details" (Fields.orNull isStatusDetails)

/-- Whether a response grants a deletion: it is a status, or the object that was deleted. All of it
has to be readable. -/
def isDeleted (k : Kind) (j : Json) : Option Unit := do
  let value ← j.value?
  if value.get? "kind" = some (.string "Status") then isStatus j
  else (ofJson? j : Option (Object k)).map fun _ => ()

end PushOperator.Http
