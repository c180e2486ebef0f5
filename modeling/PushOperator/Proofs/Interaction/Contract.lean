import PushOperator.Proofs.Interaction.Run

/-!
# Contracts of interactions

A contract says what an interaction may ask, and what it may rely on in the answers. Whether an
interaction obeys a contract does not depend on the world: all its branches count whose answers can
be relied on. In a world that keeps its side, whatever an allowed request preserves is an invariant
of every run, also of a run that is cut short (`Obeys.run`).
-/

namespace PushOperator

/-- What an interaction may ask and what it relies on. -/
structure Contract where
  rely : (request : Request) → Except Error request.Reply → Prop
  asks : Request → Prop

/-- An entry of a trace as a contract wants it. -/
def Entry.Within (k : Contract) : Entry → Prop
  | .call r a => k.asks r ∧ k.rely r a
  | .event _ _ | .secret _ => True

namespace Interaction

variable {α β σ : Type} {k : Contract} {post : α → Prop}

/-- An interaction asks only what it may and ends as `post` says. -/
def Obeys (k : Contract) (post : α → Prop) : Interaction α → Prop
  | done a => post a
  | call r next => k.asks r ∧ ∀ a, k.rely r a → (next a).Obeys k post
  | emit _ _ next => next.Obeys k post
  | secret next => ∀ text, (next text).Obeys k post

theorem Obeys.mono {k' : Contract} {post' : α → Prop} {x : Interaction α} (h : x.Obeys k post)
    (hasks : ∀ r, k.asks r → k'.asks r) (hrely : ∀ r a, k'.rely r a → k.rely r a)
    (hpost : ∀ a, post a → post' a) : x.Obeys k' post' := by
  induction x with
  | done a => exact hpost a h
  | call r next ih => exact ⟨hasks r h.1, fun a ha => ih a (h.2 a (hrely r a ha))⟩
  | emit server event next ih => exact ih h
  | secret next ih => exact fun text => ih text (h text)

theorem obeys_bind_iff {post : β → Prop} {x : Interaction α} {f : α → Interaction β} :
    (x.bind f).Obeys k post ↔ x.Obeys k fun a => (f a).Obeys k post := by
  induction x with
  | done a => exact Iff.rfl
  | call r next ih => simp only [Interaction.bind, Obeys, ih]
  | emit server event next ih => exact ih
  | secret next ih => simp only [Interaction.bind, Obeys, ih]

/-- A world keeps its side of a contract, and `inv` with it. -/
def Honors (w : World σ) (k : Contract) (inv : σ → Prop) : Prop :=
  ∀ r s a s', inv s → k.asks r → w r s a s' → k.rely r a ∧ inv s'

variable {w : World σ} {inv : σ → Prop} {x x' : Interaction α} {s s' : σ}

/-- What a step preserves. -/
theorem Obeys.step (hw : Honors w k inv) (h : x.Obeys k post) (hs : inv s) {e : Entry}
    (hstep : Step w x s e x' s') : x'.Obeys k post ∧ inv s' ∧ e.Within k := by
  cases hstep with
  | call hcall =>
    obtain ⟨hrely, hs'⟩ := hw _ _ _ _ hs h.1 hcall
    exact ⟨h.2 _ hrely, hs', h.1, hrely⟩
  | emit => exact ⟨h, hs, trivial⟩
  | secret text => exact ⟨h text, hs, trivial⟩

/-- What a run preserves. -/
theorem Obeys.run (hw : Honors w k inv) (h : x.Obeys k post) (hs : inv s) {t : Trace} {o : Option α}
    (hrun : Run w x s t o s') :
    inv s' ∧ (∀ a, o = some a → post a) ∧ ∀ e ∈ t, e.Within k := by
  induction hrun with
  | done a s =>
    refine ⟨hs, ?_, by simp⟩
    rintro b hb
    exact Option.some.inj hb ▸ h
  | cut x s => exact ⟨hs, by simp, by simp⟩
  | step hstep _ ih =>
    obtain ⟨h', hs', he⟩ := h.step hw hs hstep
    obtain ⟨hs'', hpost, ht⟩ := ih h' hs'
    refine ⟨hs'', hpost, ?_⟩
    intro e hmem
    rcases List.mem_cons.1 hmem with rfl | hmem
    · exact he
    · exact ht e hmem

end Interaction

end PushOperator
