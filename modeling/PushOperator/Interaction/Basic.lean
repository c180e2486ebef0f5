import PushOperator.Error
import PushOperator.Event
import PushOperator.Object

/-!
# Interactions with the cluster

What the operator does is a tree of requests: each request names what is asked of the cluster, and
the rest depends on the answer. Reporting an event has no answer to depend on. The tree says nothing
about how the cluster works; a `Handler` answers the requests, and other handlers may answer
otherwise, refuse some of them, or let something else happen in between.
-/

namespace PushOperator

/-- A single call to the API server. -/
inductive Request where
  | get (k : Kind) (ns name : String)
  /-- Lists the objects of a namespace that a label selector matches. -/
  | list (k : Kind) (ns selector : String)
  | create (k : Kind) (object : Object k)
  /-- Replaces an object, unless it has changed since the given version. -/
  | update (k : Kind) (object : Object k)
  /-- Replaces the status of an object, unless the object has changed since the given version. -/
  | updateStatus (k : Kind) (object : Object k)
  | delete (k : Kind) (object : Object k)
  /-- Asks whether an API version is served. -/
  | probe (groupVersion : String)

/-- The answer to a request that is granted. -/
@[reducible]
def Request.Reply : Request → Type
  | get k _ _ => Option (Object k)
  | list k _ _ => List (Object k)
  | create k _ | update k _ | updateStatus k _ => Object k
  | delete _ _ => Unit
  | probe _ => Bool

/-- A tree of requests that ends in a result. -/
inductive Interaction (α : Type) where
  | done (result : α)
  /-- A call and what follows each answer. -/
  | call (request : Request) (next : Except Error request.Reply → Interaction α)
  /-- An event about a server. Whether it is accepted makes no difference. -/
  | emit (server : Server) (event : Event) (next : Interaction α)
  | secret (next : String → Interaction α)

namespace Interaction

variable {α β : Type}

def bind : Interaction α → (α → Interaction β) → Interaction β
  | done result, f => f result
  | call request next, f => call request fun answer => (next answer).bind f
  | emit server event next, f => emit server event (next.bind f)
  | secret next, f => secret fun s => (next s).bind f

instance : Monad Interaction where
  pure := done
  bind := bind

theorem bind_assoc {γ : Type} (x : Interaction α) (f : α → Interaction β) (g : β → Interaction γ) :
    (x.bind f).bind g = x.bind fun a => (f a).bind g := by
  induction x with
  | done result => rfl
  | call request next ih => simp [bind, ih]
  | emit server event next ih => simp [bind, ih]
  | secret next ih => simp [bind, ih]

theorem bind_done (x : Interaction α) : x.bind done = x := by
  induction x with
  | done result => rfl
  | call request next ih => simp [bind, ih]
  | emit server event next ih => simp [bind, ih]
  | secret next ih => simp [bind, ih]

instance : LawfulMonad Interaction := LawfulMonad.mk' Interaction
  bind_done (fun _ _ => rfl) bind_assoc

end Interaction

/-! ## Handlers -/

/-- Something that answers requests, takes events and gives out secrets, while its state changes. -/
structure Handler (σ : Type) where
  answer : (request : Request) → σ → Except Error request.Reply × σ
  accept : Server → Event → σ → σ
  draw : σ → String × σ

def Interaction.run {α σ : Type} (handler : Handler σ) : Interaction α → σ → α × σ
  | done result, state => (result, state)
  | call request next, state =>
    let (answer, state) := handler.answer request state
    (next answer).run handler state
  | emit server event next, state => next.run handler (handler.accept server event state)
  | secret next, state =>
    let (s, state) := handler.draw state
    (next s).run handler state

/-- What follows an interaction runs in the state that the interaction has left. -/
theorem Interaction.run_bind {α β σ : Type} (handler : Handler σ) (x : Interaction α)
    (f : α → Interaction β) (state : σ) :
    (x.bind f).run handler state =
      (f (x.run handler state).1).run handler (x.run handler state).2 := by
  induction x generalizing state with
  | done result => rfl
  | call request next ih => exact ih _ _
  | emit server event next ih => exact ih _
  | secret next ih => exact ih _ _

end PushOperator
