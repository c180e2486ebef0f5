import PushOperator.Proofs.Interaction.Run

/-!
# Answers that are heeded

There are answers after which an interaction can not go on. It heeds them when nothing but secrets
follows such an answer and the interaction comes to its end with the failure (`Heeds.run`). Like
obeying a contract, this does not depend on the world.
-/

namespace PushOperator

/-- Which answers stand in the way of going on, and what the failure is then. -/
abbrev Flaw := (request : Request) → Except Error request.Reply → Error → Prop

/-- An entry of a trace with an answer after which there is no going on. -/
def Entry.Flawed (flaw : Flaw) (error : Error) : Entry → Prop
  | .call r a => flaw r a error
  | .event _ _ | .secret _ => False

/-- An entry that is seen by nobody else. -/
def Entry.IsSecret : Entry → Prop
  | .secret _ => True
  | .call _ _ | .event _ _ => False

/-- An entry that does not report a failure. -/
def Entry.IsCalm : Entry → Prop
  | .event _ report => report.reason ≠ .reconcileFailed
  | .call _ _ | .secret _ => True

namespace Interaction

variable {α β σ : Type} {w : World σ} {flaw : Flaw} {refusal : Error → Prop}
  {fails : Error → α → Prop} {post : α → Prop} {x : Interaction α} {s s' : σ}

/-- Nothing is left but to draw secrets, and the end is as `post` says. -/
def Stops (post : α → Prop) : Interaction α → Prop
  | done a => post a
  | call _ _ | emit _ _ _ => False
  | secret next => ∀ text, (next text).Stops post

/-- After an answer that stands in the way the interaction stops with the failure. It reports no
failure itself, and it ends as `post` says when calls are refused with errors of a certain sort
only. -/
def Heeds (flaw : Flaw) (refusal : Error → Prop) (fails : Error → α → Prop) (post : α → Prop) :
    Interaction α → Prop
  | done a => post a
  | call r next => ∀ a, (∀ error, a = .error error → refusal error) →
      (next a).Heeds flaw refusal fails post ∧
        ∀ error, flaw r a error → (next a).Stops (fails error)
  | emit _ event next => event.reason ≠ .reconcileFailed ∧ next.Heeds flaw refusal fails post
  | secret next => ∀ text, (next text).Heeds flaw refusal fails post

theorem Stops.bind {f : α → Interaction β} {post' : β → Prop} (hx : x.Stops post)
    (hf : ∀ a, post a → (f a).Stops post') : (x.bind f).Stops post' := by
  induction x with
  | done a => exact hf a hx
  | call r next => exact hx.elim
  | emit server event next => exact hx.elim
  | secret next ih => exact fun text => ih text (hx text)

theorem Heeds.mono {flaw' : Flaw} {post' : α → Prop} (h : x.Heeds flaw refusal fails post)
    (hflaw : ∀ r a error, flaw' r a error → flaw r a error) (hpost : ∀ a, post a → post' a) :
    x.Heeds flaw' refusal fails post' := by
  induction x with
  | done a => exact hpost a h
  | call r next ih =>
    intro a ha
    obtain ⟨hnext, hstops⟩ := h a ha
    exact ⟨ih a hnext, fun error herror => hstops error (hflaw r a error herror)⟩
  | emit server event next ih => exact ⟨h.1, ih h.2⟩
  | secret next ih => exact fun text => ih text (h text)

/-- What follows has to stop with the failure as well. -/
theorem heeds_bind {f : α → Interaction β} {fails' : Error → β → Prop} {post' : β → Prop}
    (hx : x.Heeds flaw refusal fails post)
    (hf : ∀ a, post a → (f a).Heeds flaw refusal fails' post')
    (hfails : ∀ error a, fails error a → (f a).Stops (fails' error)) :
    (x.bind f).Heeds flaw refusal fails' post' := by
  induction x with
  | done a => exact hf a hx
  | call r next ih =>
    intro a ha
    obtain ⟨hnext, hstops⟩ := hx a ha
    exact ⟨ih a hnext, fun error herror => (hstops error herror).bind (hfails error)⟩
  | emit server event next ih => exact ⟨hx.1, ih hx.2⟩
  | secret next ih => exact fun text => ih text (hx text)

/-! ## Runs -/

theorem Stops.run (h : x.Stops post) {t : Trace} {a : α} (hrun : Run w x s t (some a) s') :
    post a ∧ ∀ e ∈ t, e.IsSecret := by
  induction x generalizing t with
  | done b =>
    obtain ⟨rfl, rfl, -⟩ := run_done_some.1 hrun
    exact ⟨h, by simp⟩
  | call r next => exact h.elim
  | emit server event next => exact h.elim
  | secret next ih =>
    obtain ⟨text, t', hrest, rfl⟩ := run_secret_some.1 hrun
    obtain ⟨ha, ht'⟩ := ih text (h text) hrest
    exact ⟨ha, List.forall_mem_cons.2 ⟨trivial, ht'⟩⟩

/-- A trace in which every answer that stands in the way is followed by secrets only, and then by
the failure. -/
structure Heeded (flaw : Flaw) (fails : Error → Prop) (t : Trace) : Prop where
  calm : ∀ e ∈ t, e.IsCalm
  stops : ∀ before e after error, t = before ++ e :: after → e.Flawed flaw error →
    fails error ∧ ∀ e' ∈ after, e'.IsSecret

theorem Heeded.nil {fails : Error → Prop} : Heeded flaw fails [] :=
  ⟨by simp, by simp⟩

theorem Heeded.mono {fails fails' : Error → Prop} {t : Trace} (h : Heeded flaw fails t)
    (hfails : ∀ error, fails error → fails' error) : Heeded flaw fails' t := by
  refine ⟨h.calm, fun before e after error ht he => ?_⟩
  obtain ⟨hfail, hafter⟩ := h.stops before e after error ht he
  exact ⟨hfails error hfail, hafter⟩

theorem Heeded.cons {fails : Error → Prop} {t : Trace} {e : Entry} (h : Heeded flaw fails t)
    (hcalm : e.IsCalm)
    (hstops : ∀ error, e.Flawed flaw error → fails error ∧ ∀ e' ∈ t, e'.IsSecret) :
    Heeded flaw fails (e :: t) := by
  refine ⟨List.forall_mem_cons.2 ⟨hcalm, h.calm⟩, ?_⟩
  intro before e' after error ht he'
  cases before with
  | nil =>
    obtain ⟨rfl, rfl⟩ := List.cons.inj ht
    exact hstops error he'
  | cons head before =>
    obtain ⟨-, rfl⟩ := List.cons.inj ht
    exact h.stops before e' after error rfl he'

/-- Without a failure no answer has stood in the way. -/
theorem Heeded.clear {fails : Error → Prop} {t : Trace} (h : Heeded flaw fails t)
    (hfails : ∀ error, ¬fails error) {e : Entry} (he : e ∈ t) :
    e.IsCalm ∧ ∀ error, ¬e.Flawed flaw error := by
  refine ⟨h.calm e he, fun error hflawed => ?_⟩
  obtain ⟨before, after, rfl⟩ := List.append_of_mem he
  exact hfails error (h.stops before e after error rfl hflawed).1

/-- What comes after a part without a failure. -/
theorem Heeded.append {fails : Error → Prop} {t t' : Trace}
    (h : Heeded flaw (fun _ => False) t) (h' : Heeded flaw fails t') :
    Heeded flaw fails (t ++ t') := by
  induction t with
  | nil => exact h'
  | cons e t ih =>
    obtain ⟨hcalm, hclean⟩ := h.clear (fun _ => id) List.mem_cons_self
    have htail : Heeded flaw (fun _ => False) t := by
      refine ⟨fun e' he' => h.calm e' (List.mem_cons_of_mem e he'), ?_⟩
      intro before e' after error ht he'
      exact h.stops (e :: before) e' after error (by rw [ht, List.cons_append]) he'
    exact (ih htail).cons hcalm fun error he => absurd he (hclean error)

theorem Heeds.run (hw : ∀ r s error s', w r s (.error error) s' → refusal error)
    (h : x.Heeds flaw refusal fails post) {t : Trace} {a : α} (hrun : Run w x s t (some a) s') :
    post a ∧ Heeded flaw (fun error => fails error a) t := by
  induction x generalizing s t with
  | done b =>
    obtain ⟨rfl, rfl, -⟩ := run_done_some.1 hrun
    exact ⟨h, .nil⟩
  | call r next ih =>
    obtain ⟨answer, s₁, t', hanswer, hrest, rfl⟩ := run_call_some.1 hrun
    obtain ⟨hnext, hstops⟩ := h answer fun error heq => hw r s error s₁ (heq ▸ hanswer)
    obtain ⟨ha, ht'⟩ := ih answer hnext hrest
    exact ⟨ha, ht'.cons trivial fun error herror => (hstops error herror).run hrest⟩
  | emit server event next ih =>
    obtain ⟨t', hrest, rfl⟩ := run_emit_some.1 hrun
    obtain ⟨ha, ht'⟩ := ih h.2 hrest
    exact ⟨ha, ht'.cons h.1 fun _ hflawed => hflawed.elim⟩
  | secret next ih =>
    obtain ⟨text, t', hrest, rfl⟩ := run_secret_some.1 hrun
    obtain ⟨ha, ht'⟩ := ih text (h text) hrest
    exact ⟨ha, ht'.cons trivial fun _ hflawed => hflawed.elim⟩

end Interaction

end PushOperator
