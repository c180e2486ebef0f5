import PushOperator.Cluster.Basic
import PushOperator.Interaction.Task
import PushOperator.Json.Pointer
import PushOperator.Password

/-!
# Rehearsals

A rehearsal runs interactions against a cluster in memory and lets things go wrong: calls fail in a
planned way, and other actors delete or touch objects right before a call. It keeps a record of the
calls, the successful writes and the accepted events.
-/

namespace PushOperator

/-! ## What is known of a call -/

namespace Request

def verb : Request → String
  | get .. => "Get"
  | list .. => "List"
  | create .. => "Create"
  | update .. => "Update"
  | updateStatus .. => "UpdateStatus"
  | delete .. => "Delete"
  | probe _ => "Probe"

/-- The kind of a call's object; for a probe, the API version. -/
def kindName : Request → String
  | get k _ _ | list k _ _ | create k _ | update k _ | updateStatus k _ | delete k _ => k.name
  | probe groupVersion => groupVersion

def ns : Request → String
  | get _ ns _ | list _ ns _ => ns
  | create _ object | update _ object | updateStatus _ object | delete _ object =>
    Cluster.nsOf object
  | probe _ => ""

/-- The name of a call's object; for a listing, the selector. -/
def target : Request → String
  | get _ _ name => name
  | list _ _ selector => selector
  | create _ object | update _ object | updateStatus _ object | delete _ object =>
    Cluster.nameOf object
  | probe _ => ""

def isWrite : Request → Bool
  | create .. | update .. | updateStatus .. | delete .. => true
  | get .. | list .. | probe _ => false

def line (r : Request) : String := r.verb ++ " " ++ r.kindName ++ " " ++ r.ns ++ "/" ++ r.target

/-- The object that a write has left, as JSON; nothing for a deletion. -/
def written : (r : Request) → r.Reply → Json
  | create _ _, object | update _ _, object | updateStatus _ _, object => toJson object
  | get .., _ | list .., _ | delete .., _ | probe _, _ => .null

end Request

/-! ## Plans -/

/-- Which calls a plan is about: those of a verb and a kind, and of a name if one is given. -/
structure CallPattern where
  verb : String
  kind : String
  name : Option String

def CallPattern.covers (p : CallPattern) (r : Request) : Bool :=
  p.verb == r.verb && p.kind == r.kindName && p.name.all (· == r.target)

/-- A planned failure: the first calls go through, and the next ones, or all the rest, fail. -/
structure Fault where
  pattern : CallPattern
  after : Nat
  times : Option Nat
  error : ApiError

/-- What another actor does to an object. -/
inductive Intrusion where
  | delete
  | touch
  deriving DecidableEq

/-- A planned intrusion: once, right before a call. -/
structure Hook where
  pattern : CallPattern
  effect : Intrusion
  kind : Kind
  ns : String
  name : String

/-- Tries one failure on a call that it is about: whether the call fails, and what is left of the
plan. -/
def Fault.step (f : Fault) : Bool × Fault :=
  if 0 < f.after then (false, { f with after := f.after - 1 })
  else match f.times with
    | none => (true, f)
    | some 0 => (false, f)
    | some (n + 1) => (true, { f with times := some n })

/-- Tries failures in turn until one of them stops the call. -/
def Fault.tryAll (r : Request) : List Fault → Option ApiError × List Fault
  | [] => (none, [])
  | f :: rest =>
    if f.pattern.covers r then
      let (fails, f') := f.step
      if fails then (some f.error, f' :: rest)
      else
        let (error, rest) := tryAll r rest
        (error, f' :: rest)
    else
      let (error, rest) := tryAll r rest
      (error, f :: rest)

/-! ## Rehearsals -/

structure Write where
  verb : String
  kind : String
  name : String
  object : Json

/-- An accepted event and the name of the server that it is about. -/
structure Reported where
  server : String
  event : Event

/-- A cluster with plans and a record. Secrets are made from numbers that go up. The latest entries
of the record come first. -/
structure Rehearsal where
  cluster : Cluster := .empty
  faults : List Fault := []
  hooks : List Hook := []
  refusesEvents : Bool := false
  nextSecret : Nat := 0
  calls : List String := []
  writes : List Write := []
  events : List Reported := []

namespace Rehearsal

def intrude (c : Cluster) (h : Hook) : Cluster :=
  match c.get? h.kind h.ns h.name with
  | none => c
  | some object =>
    match h.effect with
    | .delete => c.remove h.kind h.ns h.name
    | .touch => (c.store h.ns h.name object).2

/-- Carries out the first intrusion that is due before a call. -/
def runHook (r : Request) (s : Rehearsal) : Rehearsal :=
  match s.hooks.find? (·.pattern.covers r) with
  | none => s
  | some h => { s with
      hooks := s.hooks.eraseP (·.pattern.covers r)
      cluster := intrude s.cluster h }

/-- Answers a call: it is noted, an intrusion may come first, a failure may stop it, and else the
cluster acts. -/
def answer (r : Request) (s : Rehearsal) : Except Error r.Reply × Rehearsal :=
  let s := runHook r { s with calls := r.line :: s.calls }
  let (failure, faults) := Fault.tryAll r s.faults
  let s := { s with faults }
  match failure with
  | some error => (.error (.api error), s)
  | none =>
    let (result, cluster) := s.cluster.answer r
    let s := { s with cluster }
    match result with
    | .error error => (.error error, s)
    | .ok reply =>
      if r.isWrite then
        let write := ⟨r.verb, r.kindName, r.target, r.written reply⟩
        (.ok reply, { s with writes := write :: s.writes })
      else (.ok reply, s)

/-- Takes an event, unless events are refused or the server has no name. -/
def accept (server : Server) (event : Event) (s : Rehearsal) : Rehearsal :=
  match s.refusesEvents, server.metadata.name with
  | false, some name => { s with events := ⟨name, event⟩ :: s.events }
  | _, _ => s

def draw (s : Rehearsal) : String × Rehearsal :=
  (Password.ofBits s.nextSecret, { s with nextSecret := s.nextSecret + 1 })

def handler : Handler Rehearsal := { answer, accept, draw }

def run {α : Type} (task : Task α) (s : Rehearsal) : Except Error α × Rehearsal :=
  Interaction.run handler (ExceptT.run task) s

def clearRecord (s : Rehearsal) : Rehearsal := { s with calls := [], writes := [], events := [] }

/-! ## Preparations -/

/-- Stores an object under its own name; the result is the object as stored. -/
def insert {k : Kind} (object : Object k) (s : Rehearsal) : Object k × Rehearsal :=
  let (object, cluster) :=
    s.cluster.store (Cluster.nsOf object) (Cluster.nameOf object) object
  (object, { s with cluster })

/-- Why a change by hand does not come about. -/
inductive EditError where
  | missing
  | unreachable
  | malformed

def edit (k : Kind) (ns name : String) (pointer : String) (value : Json) (s : Rehearsal) :
    Except EditError (Object k × Rehearsal) :=
  match s.cluster.get? k ns name with
  | none => .error .missing
  | some object =>
    match Json.set? value (Json.pointerParts pointer) (toJson object) with
    | none => .error .unreachable
    | some changed =>
      match (ofJson? changed : Option (Object k)) with
      | none => .error .malformed
      | some object =>
        let (object, cluster) := s.cluster.store ns name object
        .ok (object, { s with cluster })

/-- Takes an object away, and says whether it was there. -/
def remove (k : Kind) (ns name : String) (s : Rehearsal) : Bool × Rehearsal :=
  match s.cluster.get? k ns name with
  | none => (false, s)
  | some _ => (true, { s with cluster := s.cluster.remove k ns name })

/-- Serves an API version no longer, and says whether it was served. -/
def withoutApi (api : String) (s : Rehearsal) : Bool × Rehearsal :=
  if s.cluster.missingApis.contains api then (false, s)
  else (true, { s with cluster := { s.cluster with missingApis := api :: s.cluster.missingApis } })

/-- Serves an API version again, and says whether it was not served. -/
def withApi (api : String) (s : Rehearsal) : Bool × Rehearsal :=
  let missingApis := s.cluster.missingApis.filter (· ≠ api)
  (s.cluster.missingApis.contains api, { s with cluster := { s.cluster with missingApis } })

end Rehearsal

end PushOperator
