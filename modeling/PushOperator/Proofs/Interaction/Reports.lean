import Mathlib.Data.List.Forall2
import PushOperator.Proofs.Interaction.Contract

/-!
# Interactions that report what they do

Some calls have to be followed by an event that tells of them. An interaction reports what it does
when it never owes more than one event, and owes none when it makes the next call (`Reports`). In
every run of such an interaction the events are those of the calls that are due, in the same order
(`Reports.run`), and all the while the interaction obeys a contract.
-/

namespace PushOperator

/-- Which calls have to be told of, and the events that tell of them. A call that is refused never
has to be. -/
structure Notices where
  due : (request : Request) → request.Reply → Bool
  tells : (request : Request) → request.Reply → Event → Prop

namespace Notices

variable (n : Notices)

/-- Whether an event is due after an entry. -/
def isDue : Entry → Bool
  | .call r (.ok reply) => n.due r reply
  | .call _ (.error _) | .event _ _ | .secret _ => false

/-- Whether an event tells of an entry. -/
def TellsOf : Entry → Event → Prop
  | .call r (.ok reply), event => n.tells r reply event
  | .call _ (.error _), _ | .event _ _, _ | .secret _, _ => False

/-- What is owed after an entry when nothing was owed before. -/
def owed (e : Entry) : Option Entry := if n.isDue e then some e else none

end Notices

/-- The events of a trace. -/
def Trace.events (t : Trace) : List Event :=
  t.filterMap fun
    | .event _ event => some event
    | .call _ _ | .secret _ => none

variable {α β σ : Type} {w : World σ} {k : Contract} {n : Notices} {inv : σ → Prop}

/-- The events of a trace tell of what was owed and of what is due in the trace, in this order, but
for what is still owed in the end. -/
def Notices.Settles (n : Notices) (owed : Option Entry) (t : Trace) (owed' : Option Entry) : Prop :=
  ∃ told, owed.toList ++ t.filter n.isDue = told ++ owed'.toList ∧
    List.Forall₂ n.TellsOf told t.events

namespace Interaction

/-- Within a contract, an interaction calls only when nothing is owed, and what is owed is told in
the next event. -/
def Reports (k : Contract) (n : Notices) (post : α → Option Entry → Prop) :
    Interaction α → Option Entry → Prop
  | done a, owed => post a owed
  | call r next, owed =>
    owed = none ∧ k.asks r ∧ ∀ a, k.rely r a → (next a).Reports k n post (n.owed (.call r a))
  | emit _ event next, owed =>
    (∃ e, owed = some e ∧ n.TellsOf e event) ∧ next.Reports k n post none
  | secret next, owed => ∀ text, (next text).Reports k n post owed

variable {post : α → Option Entry → Prop} {x : Interaction α} {owed : Option Entry} {s s' : σ}
  {t : Trace} {o : Option α}

theorem Reports.mono {post' : α → Option Entry → Prop} (h : x.Reports k n post owed)
    (hpost : ∀ a owed, post a owed → post' a owed) : x.Reports k n post' owed := by
  induction x generalizing owed with
  | done a => exact hpost a owed h
  | call r next ih => exact ⟨h.1, h.2.1, fun a ha => ih a (h.2.2 a ha)⟩
  | emit server event next ih => exact ⟨h.1, ih h.2⟩
  | secret next ih => exact fun text => ih text (h text)

theorem reports_bind {f : α → Interaction β} {post' : β → Option Entry → Prop}
    (hx : x.Reports k n post owed) (hf : ∀ a owed, post a owed → (f a).Reports k n post' owed) :
    (x.bind f).Reports k n post' owed := by
  induction x generalizing owed with
  | done a => exact hf a owed hx
  | call r next ih => exact ⟨hx.1, hx.2.1, fun a ha => ih a (hx.2.2 a ha)⟩
  | emit server event next ih => exact ⟨hx.1, ih hx.2⟩
  | secret next ih => exact fun text => ih text (hx text)

/-- What reports what it does obeys the contract. -/
theorem Reports.obeys (h : x.Reports k n post owed) : x.Obeys k fun a => ∃ owed, post a owed := by
  induction x generalizing owed with
  | done a => exact ⟨owed, h⟩
  | call r next ih => exact ⟨h.2.1, fun a ha => ih a (h.2.2 a ha)⟩
  | emit server event next ih => exact ih h.2
  | secret next ih => exact fun text => ih text (h text)

/-- In a run that keeps the contract, everything is told that is due, up to the last call. -/
theorem Reports.run (hw : Honors w k inv) (h : x.Reports k n post owed) (hs : inv s)
    (hrun : Run w x s t o s') :
    ∃ owed', n.Settles owed t owed' ∧ ∀ a, o = some a → post a owed' := by
  induction hrun generalizing owed with
  | done a s =>
    refine ⟨owed, ⟨[], by simp, .nil⟩, ?_⟩
    rintro b hb
    exact Option.some.inj hb ▸ h
  | cut x s => exact ⟨owed, ⟨[], by simp, .nil⟩, by simp⟩
  | step hstep _ ih =>
    cases hstep with
    | @call r _ _ a _ hcall =>
      obtain ⟨rfl, hasks, hnext⟩ := h
      obtain ⟨hrely, hs'⟩ := hw _ _ _ _ hs hasks hcall
      obtain ⟨owed', ⟨told, htold, htells⟩, hpost⟩ := ih (hnext a hrely) hs'
      refine ⟨owed', ⟨told, htold ▸ ?_, htells⟩, hpost⟩
      unfold Notices.owed
      cases hdue : n.isDue (.call r a) <;> simp [hdue]
    | @emit server event =>
      obtain ⟨⟨e, rfl, htell⟩, hnext⟩ := h
      obtain ⟨owed', ⟨told, htold, htells⟩, hpost⟩ := ih hnext hs
      exact ⟨owed', ⟨e :: told, congrArg (e :: ·) htold, .cons htell htells⟩, hpost⟩
    | secret text => exact ih (h text) hs

end Interaction

end PushOperator
