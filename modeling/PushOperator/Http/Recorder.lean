import PushOperator.Http.Repository

/-!
# Reporting events

Events are objects of their own, kept in the namespace of the object that they are about. Their
names end in the time of the report. Which namespaces that will be only shows while the operator
runs, so the way to the events of a namespace is made when it is first needed, and then kept.
-/

namespace PushOperator.Http

/-- Objects that events are about: of any kind, with their metadata. -/
structure Subject where
  kind : Kind
  metadata : ObjectMeta

/-- The moment a number of nanoseconds after the beginning of 1970. -/
def momentOf (nanos : Nat) : Timestamp :=
  let seconds := nanos / 1000000000
  let (year, month, day) :=
    Timestamp.dateOfDays (Timestamp.daysOfDate 1970 1 1 + (seconds / 86400 : Nat))
  { year, month, day
    hour := seconds / 3600 % 24
    minute := seconds / 60 % 60
    second := seconds % 60
    nanosecond := nanos % 1000000000 }

def eventName (name : String) (nanos : Nat) : String :=
  name ++ "." ++ String.ofList (Text.hexDigits nanos)

def eventObject (subject : Subject) (event : Event) (component : String) (nanos : Nat) :
    Except Error (String × Json) := do
  let ns ← subject.metadata.requireNs
  let name ← subject.metadata.requireName
  let time := Json.string (momentOf nanos).toSeconds
  return (ns, Json.ofFields [
    ("apiVersion", .string "v1"),
    ("kind", .string "Event"),
    ("metadata", toJson { name := some (eventName name nanos), ns := some ns : ObjectMeta }),
    ("involvedObject", Json.ofFields <|
      Fields.always "apiVersion" subject.kind.apiVersion ++
      Fields.always "kind" subject.kind.name ++
      Fields.always "name" name ++
      Fields.always "namespace" ns ++
      Fields.whenSome "uid" subject.metadata.uid ++
      Fields.whenSome "resourceVersion" subject.metadata.resourceVersion),
    ("type", .string event.reason.eventType.name),
    ("action", .string event.reason.action),
    ("reason", .string event.reason.name),
    ("message", .string event.message),
    ("count", .int 1),
    ("firstTimestamp", time),
    ("lastTimestamp", time),
    ("source", Json.ofFields [("component", .string component)]),
    ("reportingComponent", .string component)])

open Schema in
def eventFields : Schema := .object [
  opt "action" .string,
  opt "count" .int32,
  opt "eventTime" .microTime,
  opt "firstTimestamp" .time,
  req "involvedObject" PodSchema.objectReference,
  opt "lastTimestamp" .time,
  opt "message" .string,
  req "metadata" PodSchema.objectMeta,
  opt "reason" .string,
  opt "related" PodSchema.objectReference,
  opt "reportingComponent" .string,
  opt "reportingInstance" .string,
  opt "series" (.object [opt "count" .int32, opt "lastObservedTime" .microTime]),
  opt "source" (.object [opt "component" .string, opt "host" .string]),
  opt "type" .string]

def isEvent (j : Json) : Option Unit := do
  if Fields.isOfOtherType (← j.fields?) "v1" "Event" then none
  let _ ← eventFields.conform j

/-! ## The ways to the events of namespaces -/

/-- The paths of the events of namespaces, as far as they were needed. -/
abbrev ApiCache := Dict String

def eventsPath (ns : String) : String := "/api/v1/namespaces/" ++ ns ++ "/events"

/-- The path of the events of a namespace, which is kept from then on. -/
def ApiCache.lookup (cache : ApiCache) (ns : String) : String × ApiCache :=
  match cache.get? ns with
  | some path => (path, cache)
  | none => (eventsPath ns, cache.insert ns (eventsPath ns))

/-- Reports an event, which fails when the API server refuses it. The way to the events of the
namespace is kept in either case. -/
def tryEmit (component : String) (subject : Subject) (event : Event) (nanos : Nat)
    (cache : ApiCache) : Conversation Unit × ApiCache :=
  match eventObject subject event component nanos with
  | .error e => (throw e, cache)
  | .ok (ns, body) =>
    let (path, cache) := cache.lookup ns
    (fetch "POST" (path ++ "?") (some body) isEvent, cache)

end PushOperator.Http
