import PushOperator.Proofs.Interaction.Contract

/-!
# Handlers that are alike

An interaction sees nothing of a handler but its answers and its secrets. Where two handlers give
the same ones, it does the same with both. It is enough that they do so within the contract of the
interaction, and in states that are related (`Alike.run`).
-/

namespace PushOperator

variable {α β σ σ' : Type} {k : Contract} {post : α → Prop} {h : Handler σ} {h' : Handler σ'}
  {s : σ} {s' : σ'}

namespace Interaction

theorem run_call (r : Request) (next : Except Error r.Reply → Interaction α) (s : σ) :
    (call r next).run h s = (next (h.answer r s).1).run h (h.answer r s).2 := rfl

theorem run_secret (next : String → Interaction α) (s : σ) :
    (secret next).run h s = (next (h.draw s).1).run h (h.draw s).2 := rfl

theorem trace_call (r : Request) (next : Except Error r.Reply → Interaction α) (s : σ) :
    (call r next).trace h s =
      .call r (h.answer r s).1 :: (next (h.answer r s).1).trace h (h.answer r s).2 := rfl

theorem trace_emit (server : Server) (event : Event) (next : Interaction α) (s : σ) :
    (emit server event next).trace h s =
      .event server event :: next.trace h (h.accept server event s) := rfl

theorem trace_secret (next : String → Interaction α) (s : σ) :
    (secret next).trace h s =
      .secret (h.draw s).1 :: (next (h.draw s).1).trace h (h.draw s).2 := rfl

/-- What follows an interaction is seen after it. -/
theorem trace_bind (x : Interaction α) (f : α → Interaction β) (s : σ) :
    (x.bind f).trace h s =
      x.trace h s ++ (f (x.run h s).1).trace h (x.run h s).2 := by
  induction x generalizing s with
  | done a => rfl
  | call r next ih => exact congrArg (_ :: ·) (ih _ _)
  | emit server event next ih => exact congrArg (_ :: ·) (ih _)
  | secret next ih => exact congrArg (_ :: ·) (ih _ _)

end Interaction

/-- Within a contract two handlers give the same answers and draw the same secrets, as long as they
are in states that are related. -/
structure Alike (k : Contract) (related : σ → σ' → Prop) (h : Handler σ) (h' : Handler σ') :
    Prop where
  answer : ∀ r s s', related s s' → k.asks r → (h.answer r s).1 = (h'.answer r s').1 ∧
    k.rely r (h.answer r s).1 ∧ related (h.answer r s).2 (h'.answer r s').2
  accept : ∀ server event s s', related s s' →
    related (h.accept server event s) (h'.accept server event s')
  draw : ∀ s s', related s s' →
    (h.draw s).1 = (h'.draw s').1 ∧ related (h.draw s).2 (h'.draw s').2

/-- An interaction that obeys the contract does the same with both, and comes to the same. -/
theorem Alike.run {related : σ → σ' → Prop} (halike : Alike k related h h') {x : Interaction α}
    (hx : x.Obeys k post) (hs : related s s') :
    x.trace h s = x.trace h' s' ∧ (x.run h s).1 = (x.run h' s').1 ∧
      related (x.run h s).2 (x.run h' s').2 := by
  induction x generalizing s s' with
  | done a => exact ⟨rfl, rfl, hs⟩
  | call r next ih =>
    obtain ⟨hanswer, hrely, hs₁⟩ := halike.answer r s s' hs hx.1
    have hrest := ih _ (hx.2 _ hrely) hs₁
    rw [Interaction.trace_call, Interaction.trace_call, Interaction.run_call, Interaction.run_call,
      ← hanswer]
    exact ⟨congrArg (_ :: ·) hrest.1, hrest.2⟩
  | emit server event next ih =>
    have hrest := ih hx (halike.accept server event s s' hs)
    exact ⟨congrArg (_ :: ·) hrest.1, hrest.2⟩
  | secret next ih =>
    obtain ⟨htext, hs₁⟩ := halike.draw s s' hs
    have hrest := ih (h.draw s).1 (hx _) hs₁
    rw [Interaction.trace_secret, Interaction.trace_secret, Interaction.run_secret,
      Interaction.run_secret, ← htext]
    exact ⟨congrArg (_ :: ·) hrest.1, hrest.2⟩

/-- The contract that allows everything and relies on nothing. -/
def Contract.free : Contract := ⟨fun _ _ => True, fun _ => True⟩

theorem Interaction.obeys_free (x : Interaction α) : x.Obeys .free fun _ => True := by
  induction x with
  | done a => trivial
  | call r next ih => exact ⟨trivial, fun a _ => ih a⟩
  | emit server event next ih => exact ih
  | secret next ih => exact ih

end PushOperator
