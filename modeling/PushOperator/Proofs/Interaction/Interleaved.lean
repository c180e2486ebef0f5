import Mathlib.Logic.Function.Basic
import PushOperator.Proofs.Interaction.Run

/-!
# Interleavings

Several interactions meet the same world at the same time. Any of them may take the next step, and
the trace says which one took it.
-/

namespace PushOperator

variable {ι σ α : Type} [DecidableEq ι] {w : World σ}

/-- Steps of several interactions in some order. None of them needs to come to its end. -/
inductive Interleaved (w : World σ) :
    (ι → Interaction α) → σ → List (ι × Entry) → (ι → Interaction α) → σ → Prop
  | refl (x : ι → Interaction α) (s : σ) : Interleaved w x s [] x s
  | step {x x' : ι → Interaction α} {s s₁ s' : σ} {i : ι} {e : Entry} {y : Interaction α}
      {t : List (ι × Entry)} : Step w (x i) s e y s₁ →
      Interleaved w (Function.update x i y) s₁ t x' s' → Interleaved w x s ((i, e) :: t) x' s'

namespace Interleaved

variable {x x' x'' : ι → Interaction α} {s s' s'' : σ} {t t' : List (ι × Entry)}

theorem trans (h : Interleaved w x s t x' s') (h' : Interleaved w x' s' t' x'' s'') :
    Interleaved w x s (t ++ t') x'' s'' := by
  induction h with
  | refl => exact h'
  | step hstep _ ih => exact .step hstep (ih h')

/-- A step of an interaction that is known. -/
theorem step_at {i : ι} {y z : Interaction α} {e : Entry} (hx : x i = y) (hstep : Step w y s e z s')
    (hrest : Interleaved w (Function.update x i z) s' t x'' s'') :
    Interleaved w x s ((i, e) :: t) x'' s'' := by
  subst hx
  exact .step hstep hrest

/-- What every step preserves is preserved by all of them together. -/
theorem preserves {inv : (ι → Interaction α) → σ → List (ι × Entry) → Prop}
    (hstep : ∀ x s t i e y s₁, inv x s t → Step w (x i) s e y s₁ →
      inv (Function.update x i y) s₁ (t ++ [(i, e)]))
    (h : Interleaved w x s t x' s') (hs : inv x s t') : inv x' s' (t' ++ t) := by
  induction h generalizing t' with
  | refl => rwa [List.append_nil]
  | step hfirst _ ih =>
    have hrest := ih (hstep _ _ _ _ _ _ _ hs hfirst)
    rwa [List.append_assoc] at hrest

end Interleaved

end PushOperator
