import PushOperator.Proofs.Interaction.Contract
import PushOperator.Proofs.Interaction.Heeds

/-!
# Invariants of interactions

A contract is about the requests alone. What an interaction preserves may also depend on the state
that a request meets: `Secures` goes along with all answers that a world may give in a state, and so
holds of every point of every run (`Secures.run`).
-/

namespace PushOperator.Interaction

variable {α β σ : Type} {w : World σ} {inv : σ → Prop} {post : α → σ → Prop} {x : Interaction α}
  {s s' : σ}

/-- Whatever the world answers, `inv` holds after each call, and in the end the result and the
state are as `post` says. -/
def Secures (w : World σ) (inv : σ → Prop) (post : α → σ → Prop) : Interaction α → σ → Prop
  | done a, s => post a s
  | call r next, s => ∀ a s', w r s a s' → inv s' ∧ (next a).Secures w inv post s'
  | emit _ _ next, s => next.Secures w inv post s
  | secret next, s => ∀ text, (next text).Secures w inv post s

theorem Secures.mono {post' : α → σ → Prop} (h : x.Secures w inv post s)
    (hpost : ∀ a s, post a s → post' a s) : x.Secures w inv post' s := by
  induction x generalizing s with
  | done a => exact hpost a s h
  | call r next ih =>
    intro a s' hw
    obtain ⟨hinv, hnext⟩ := h a s' hw
    exact ⟨hinv, ih a hnext⟩
  | emit server event next ih => exact ih h
  | secret next ih => exact fun text => ih text (h text)

theorem secures_bind {f : α → Interaction β} {post' : β → σ → Prop} (hx : x.Secures w inv post s)
    (hf : ∀ a s, post a s → (f a).Secures w inv post' s) : (x.bind f).Secures w inv post' s := by
  induction x generalizing s with
  | done a => exact hf a s hx
  | call r next ih =>
    intro a s' hw
    obtain ⟨hinv, hnext⟩ := hx a s' hw
    exact ⟨hinv, ih a hnext⟩
  | emit server event next ih => exact ih hx
  | secret next ih => exact fun text => ih text (hx text)

/-- What holds of the ends of all runs holds together with what is known of an interaction that
heeds its answers. -/
theorem Secures.and_heeds {flaw : Flaw} {refusal : Error → Prop} {fails : Error → α → Prop}
    {p : α → Prop} (h : x.Secures w inv post s) (hheeds : x.Heeds flaw refusal fails p)
    (hw : ∀ r s error s', w r s (.error error) s' → refusal error) :
    x.Secures w inv (fun a s' => post a s' ∧ p a) s := by
  induction x generalizing s with
  | done a => exact ⟨h, hheeds⟩
  | call r next ih =>
    intro a s' hanswer
    obtain ⟨hinv, hnext⟩ := h a s' hanswer
    refine ⟨hinv, ih a hnext (hheeds a ?_).1⟩
    rintro error rfl
    exact hw r s error s' hanswer
  | emit server event next ih => exact ih h hheeds.2
  | secret next ih => exact fun text => ih text (h text) (hheeds text)

/-- What a world preserves as long as a contract is kept. -/
theorem Obeys.secures {k : Contract} {p : α → Prop} (hw : Honors w k inv) (h : x.Obeys k p)
    (hs : inv s) : x.Secures w inv (fun a s' => p a ∧ inv s') s := by
  induction x generalizing s with
  | done a => exact ⟨h, hs⟩
  | call r next ih =>
    intro a s' hanswer
    obtain ⟨hrely, hs'⟩ := hw r s a s' hs h.1 hanswer
    exact ⟨hs', ih a (h.2 a hrely) hs'⟩
  | emit server event next ih => exact ih h hs
  | secret next ih => exact fun text => ih text (h text) hs

theorem Secures.weaken {inv' : σ → Prop} (h : x.Secures w inv post s)
    (hinv : ∀ s, inv s → inv' s) : x.Secures w inv' post s := by
  induction x generalizing s with
  | done a => exact h
  | call r next ih =>
    intro a s' hw
    obtain ⟨hs', hnext⟩ := h a s' hw
    exact ⟨hinv s' hs', ih a hnext⟩
  | emit server event next ih => exact ih h
  | secret next ih => exact fun text => ih text (h text)

/-- What a step preserves. -/
theorem Secures.step {x' : Interaction α} {e : Entry} (h : x.Secures w inv post s) (hs : inv s)
    (hstep : Step w x s e x' s') : inv s' ∧ x'.Secures w inv post s' := by
  cases hstep with
  | call hcall => exact h _ _ hcall
  | emit => exact ⟨hs, h⟩
  | secret text => exact ⟨hs, h text⟩

/-- What a run preserves. -/
theorem Secures.run (h : x.Secures w inv post s) (hs : inv s) {t : Trace} {o : Option α}
    (hrun : Run w x s t o s') : inv s' ∧ ∀ a, o = some a → post a s' := by
  induction hrun with
  | done a s =>
    refine ⟨hs, ?_⟩
    rintro b hb
    exact Option.some.inj hb ▸ h
  | cut x s => exact ⟨hs, by simp⟩
  | step hstep _ ih =>
    obtain ⟨hs', h'⟩ := h.step hs hstep
    exact ih h' hs'

end PushOperator.Interaction
