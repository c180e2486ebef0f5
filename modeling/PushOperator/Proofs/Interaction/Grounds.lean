import PushOperator.Proofs.Interaction.Invariant

/-!
# What requests are grounded in

A contract says what an interaction may ask at any time. Often a request is only right because of
what has been seen before: an update carries the version of an object that was read. `Grounded` goes
along with the trace and says of each request what in the trace it is grounded in. It does not
depend on the world, and so holds at every point that steps lead to (`Grounded.steps`).
-/

namespace PushOperator

variable {α β σ : Type} {w : World σ}

/-! ## Steps in a row -/

/-- Steps of an interaction from one point to another. The last step is the outermost one. -/
inductive Steps (w : World σ) (x : Interaction α) (s : σ) : Trace → Interaction α → σ → Prop
  | refl : Steps w x s [] x s
  | step {x' x'' : Interaction α} {s' s'' : σ} {t : Trace} {e : Entry} :
    Steps w x s t x' s' → Step w x' s' e x'' s'' → Steps w x s (t ++ [e]) x'' s''

namespace Steps

variable {x x' x'' : Interaction α} {s s' s'' : σ} {t t' : Trace} {e : Entry}

theorem head (hstep : Step w x s e x' s') (h : Steps w x' s' t x'' s'') :
    Steps w x s (e :: t) x'' s'' := by
  induction h with
  | refl => exact .step .refl hstep
  | step _ hlast ih => exact .step ih hlast

/-- A run leads along steps, and one to the end leads to its result. -/
theorem of_run {o : Option α} (h : Run w x s t o s') :
    ∃ x', Steps w x s t x' s' ∧ ∀ a, o = some a → x' = .done a := by
  induction h with
  | done a s =>
    refine ⟨.done a, .refl, ?_⟩
    rintro b hb
    rw [Option.some.inj hb]
  | cut x s => exact ⟨x, .refl, by simp⟩
  | step hstep _ ih =>
    obtain ⟨x', hsteps, hend⟩ := ih
    exact ⟨x', hsteps.head hstep, hend⟩

/-- What steps lead to may be run from there. -/
theorem run {o : Option α} (h : Steps w x s t x' s') (hrun : Run w x' s' t' o s'') :
    Run w x s (t ++ t') o s'' := by
  induction h generalizing t' with
  | refl => exact hrun
  | step _ hlast ih =>
    rw [List.append_assoc]
    exact ih (.step hlast hrun)

/-- Every point that steps lead to is one where a run may be cut short. -/
theorem cut (h : Steps w x s t x' s') : Run w x s t none s' := by
  have hrun := h.run (.cut x' s')
  rwa [List.append_nil] at hrun

theorem mono {w' : World σ} (hw : ∀ r s a s', w r s a s' → w' r s a s')
    (h : Steps w x s t x' s') : Steps w' x s t x' s' := by
  induction h with
  | refl => exact .refl
  | step _ hlast ih => exact .step ih (hlast.mono hw)

/-- Nothing follows the end. -/
theorem of_done {a : α} (h : Steps w (.done a) s t x' s') : t = [] ∧ x' = .done a ∧ s' = s := by
  induction h with
  | refl => exact ⟨rfl, rfl, rfl⟩
  | step _ hlast ih =>
    obtain ⟨-, rfl, rfl⟩ := ih
    cases hlast

/-- Steps from a call stay before it, or go on with an answer. -/
theorem call_cases {r : Request} {next : Except Error r.Reply → Interaction α}
    (h : Steps w (.call r next) s t x' s') :
    (t = [] ∧ x' = .call r next ∧ s' = s) ∨
      ∃ a s₁ t', w r s a s₁ ∧ Steps w (next a) s₁ t' x' s' ∧ t = .call r a :: t' := by
  induction h with
  | refl => exact .inl ⟨rfl, rfl, rfl⟩
  | step _ hlast ih =>
    rcases ih with ⟨rfl, rfl, rfl⟩ | ⟨a, s₁, t', hanswer, hrest, rfl⟩
    · obtain ⟨a, hanswer, rfl, rfl⟩ := hlast.call_cases
      exact .inr ⟨a, _, [], hanswer, .refl, rfl⟩
    · exact .inr ⟨a, s₁, _, hanswer, hrest.step hlast, rfl⟩

theorem emit_cases {server : Server} {event : Event} {next : Interaction α}
    (h : Steps w (.emit server event next) s t x' s') :
    (t = [] ∧ x' = .emit server event next ∧ s' = s) ∨
      ∃ t', Steps w next s t' x' s' ∧ t = .event server event :: t' := by
  induction h with
  | refl => exact .inl ⟨rfl, rfl, rfl⟩
  | step _ hlast ih =>
    rcases ih with ⟨rfl, rfl, rfl⟩ | ⟨t', hrest, rfl⟩
    · cases hlast
      exact .inr ⟨[], .refl, rfl⟩
    · exact .inr ⟨_, hrest.step hlast, rfl⟩

theorem secret_cases {next : String → Interaction α} (h : Steps w (.secret next) s t x' s') :
    (t = [] ∧ x' = .secret next ∧ s' = s) ∨
      ∃ text t', Steps w (next text) s t' x' s' ∧ t = .secret text :: t' := by
  induction h with
  | refl => exact .inl ⟨rfl, rfl, rfl⟩
  | step _ hlast ih =>
    rcases ih with ⟨rfl, rfl, rfl⟩ | ⟨text, t', hrest, rfl⟩
    · cases hlast with
      | secret text => exact .inr ⟨text, [], .refl, rfl⟩
    · exact .inr ⟨text, _, hrest.step hlast, rfl⟩

/-- What the trace holds of a call, it holds after steps that lead to the call and from it on. -/
theorem of_append {before after : Trace} (h : Steps w x s (before ++ e :: after) x'' s'') :
    ∃ x₁ s₁ x₂ s₂, Steps w x s before x₁ s₁ ∧ Step w x₁ s₁ e x₂ s₂ ∧
      Steps w x₂ s₂ after x'' s'' := by
  generalize ht : before ++ e :: after = t at h
  induction h generalizing after with
  | refl => simp at ht
  | @step _ _ _ _ t e' hsteps hlast ih =>
    rcases List.eq_nil_or_concat after with rfl | ⟨after, e'', rfl⟩
    · obtain ⟨rfl, hcons⟩ := List.append_inj' ht rfl
      obtain rfl := List.head_eq_of_cons_eq hcons
      exact ⟨_, _, _, _, hsteps, hlast, .refl⟩
    · have ht' : (before ++ e :: after) ++ [e''] = t ++ [e'] := by simpa using ht
      obtain ⟨rfl, hlast'⟩ := List.append_inj' ht' rfl
      obtain rfl := List.head_eq_of_cons_eq hlast'
      obtain ⟨x₁, s₁, x₂, s₂, hbefore, hstep, hafter⟩ := ih rfl
      rw [List.concat_eq_append]
      exact ⟨x₁, s₁, x₂, s₂, hbefore, hstep, hafter.step hlast⟩

/-- Before a call that the trace holds, the interaction has come to it. -/
theorem of_mem {r : Request} {a : Except Error r.Reply} (h : Steps w x s t x'' s'')
    (hmem : .call r a ∈ t) : ∃ before after next s₁ s₂, t = before ++ .call r a :: after ∧
      Steps w x s before (.call r next) s₁ ∧ w r s₁ a s₂ := by
  obtain ⟨before, after, rfl⟩ := List.append_of_mem hmem
  obtain ⟨x₁, s₁, x₂, s₂, hbefore, hstep, -⟩ := h.of_append
  cases hstep with
  | @call _ next _ _ _ hanswer => exact ⟨before, after, next, s₁, s₂, rfl, hbefore, hanswer⟩

/-- Steps of a sequence stay within the first part, or go on from its end. -/
theorem bind_cases {f : α → Interaction β} {y : Interaction β}
    (h : Steps w (x.bind f) s t y s') :
    (∃ x', Steps w x s t x' s' ∧ y = x'.bind f) ∨
      ∃ a s₁ t₁ t₂, Steps w x s t₁ (.done a) s₁ ∧ Steps w (f a) s₁ t₂ y s' ∧ t = t₁ ++ t₂ := by
  induction h with
  | refl => exact .inl ⟨x, .refl, rfl⟩
  | step _ hlast ih =>
    rcases ih with ⟨x', hfirst, rfl⟩ | ⟨a, s₁, t₁, t₂, hfirst, hrest, rfl⟩
    · rcases hlast.bind_cases with ⟨a, rfl, hrest⟩ | ⟨x'', hwithin, rfl⟩
      · exact .inr ⟨a, _, _, _, hfirst, .step .refl hrest, rfl⟩
      · exact .inl ⟨x'', .step hfirst hwithin, rfl⟩
    · refine .inr ⟨a, s₁, t₁, _, hfirst, .step hrest hlast, ?_⟩
      rw [List.append_assoc]

/-- Steps of a sequence have not come to its end, or go on from the end of the first part. -/
theorem bind_unfinished {f : α → Interaction β} {y : Interaction β}
    (h : Steps w (x.bind f) s t y s') :
    (∃ x', Steps w x s t x' s' ∧ ∀ b, y ≠ .done b) ∨
      ∃ a s₁ t₁ t₂, Steps w x s t₁ (.done a) s₁ ∧ Steps w (f a) s₁ t₂ y s' ∧ t = t₁ ++ t₂ := by
  rcases h.bind_cases with ⟨x', hfirst, rfl⟩ | hbeyond
  · cases x' with
    | done a => exact .inr ⟨a, s', t, [], hfirst, .refl, (List.append_nil t).symm⟩
    | call | emit | secret => exact .inl ⟨_, hfirst, nofun⟩
  · exact .inr hbeyond

/-- What only changes the result of an interaction has the same steps. -/
theorem of_bind_done {f : α → β} {y : Interaction β}
    (h : Steps w (x.bind fun a => .done (f a)) s t y s') :
    ∃ x', Steps w x s t x' s' ∧ y = x'.bind fun a => .done (f a) := by
  rcases h.bind_cases with hwithin | ⟨a, s₁, t₁, t₂, hx, hdone, rfl⟩
  · exact hwithin
  · obtain ⟨rfl, rfl, rfl⟩ := hdone.of_done
    rw [List.append_nil]
    exact ⟨.done a, hx, rfl⟩

/-- The trace decides where an interaction has come to its end, whatever world it was in: a sequence
with that trace goes on from there. -/
theorem resume {σ' : Type} {w' : World σ'} {s₀ s₀' : σ'} {f : α → Interaction β}
    {y : Interaction β} {a : α} {t₁ t₂ : Trace} (hend : Steps w' x s₀ t₁ (.done a) s₀')
    (h : Steps w (x.bind f) s (t₁ ++ t₂) y s') :
    ∃ s₁, Steps w x s t₁ (.done a) s₁ ∧ Steps w (f a) s₁ t₂ y s' := by
  induction x generalizing s₀ s t₁ with
  | done b =>
    obtain ⟨rfl, heq, -⟩ := hend.of_done
    obtain rfl := Interaction.done.inj heq
    exact ⟨s, .refl, h⟩
  | call r next ih =>
    rcases hend.call_cases with ⟨-, heq, -⟩ | ⟨answer, s₀₁, t, -, hend', rfl⟩
    · cases heq
    rcases h.call_cases with ⟨hnil, -, -⟩ | ⟨_, s₁, t', hanswer, hrest, heq⟩
    · cases hnil
    obtain ⟨hentry, rfl⟩ := List.cons.inj heq
    obtain rfl := eq_of_heq (Entry.call.inj hentry).2
    obtain ⟨s₂, hx, hf⟩ := ih answer hend' hrest
    exact ⟨s₂, hx.head (.call hanswer), hf⟩
  | emit server event next ih =>
    rcases hend.emit_cases with ⟨-, heq, -⟩ | ⟨t, hend', rfl⟩
    · cases heq
    rcases h.emit_cases with ⟨hnil, -, -⟩ | ⟨t', hrest, heq⟩
    · cases hnil
    obtain ⟨-, rfl⟩ := List.cons.inj heq
    obtain ⟨s₂, hx, hf⟩ := ih hend' hrest
    exact ⟨s₂, hx.head .emit, hf⟩
  | secret next ih =>
    rcases hend.secret_cases with ⟨-, heq, -⟩ | ⟨text, t, hend', rfl⟩
    · cases heq
    rcases h.secret_cases with ⟨hnil, -, -⟩ | ⟨_, t', hrest, heq⟩
    · cases hnil
    obtain ⟨hentry, rfl⟩ := List.cons.inj heq
    obtain rfl := Entry.secret.inj hentry
    obtain ⟨s₂, hx, hf⟩ := ih text hend' hrest
    exact ⟨s₂, hx.head (.secret text), hf⟩

end Steps

namespace Interaction

/-- What steps preserve. -/
theorem Secures.steps {inv : σ → Prop} {post : α → σ → Prop} {x x' : Interaction α} {s s' : σ}
    {t : Trace} (h : x.Secures w inv post s) (hs : inv s) (hsteps : Steps w x s t x' s') :
    inv s' ∧ x'.Secures w inv post s' := by
  induction hsteps with
  | refl => exact ⟨hs, h⟩
  | step _ hlast ih =>
    obtain ⟨hs', h'⟩ := ih
    exact h'.step hs' hlast

/-! ## Answers that are heeded -/

/-- As long as an interaction goes on, it heeds its answers and has reported no failure. -/
theorem Heeds.steps {flaw : Flaw} {refusal : Error → Prop} {fails : Error → α → Prop}
    {post : α → Prop} {x x' : Interaction α} {s s' : σ} {t : Trace}
    (hw : ∀ r s error s', w r s (.error error) s' → refusal error)
    (h : x.Heeds flaw refusal fails post) (hsteps : Steps w x s t x' s') :
    x'.Heeds flaw refusal fails post ∧ ∀ e ∈ t, e.IsCalm := by
  induction hsteps with
  | refl => exact ⟨h, by simp⟩
  | step _ hlast ih =>
    obtain ⟨hx', ht⟩ := ih
    have hsnoc {e : Entry} (he : e.IsCalm) : ∀ e' ∈ _ ++ [e], e'.IsCalm :=
      List.forall_mem_append.2 ⟨ht, List.forall_mem_singleton.2 he⟩
    cases hlast with
    | call hanswer =>
      refine ⟨(hx' _ ?_).1, hsnoc trivial⟩
      rintro error rfl
      exact hw _ _ _ _ hanswer
    | emit => exact ⟨hx'.2, hsnoc hx'.1⟩
    | secret text => exact ⟨hx' text, hsnoc trivial⟩

/-! ## Grounds -/

variable {grounds : Trace → Request → Prop} {post : α → Trace → Prop} {x : Interaction α}
  {t : Trace}

/-- After a trace, every request is grounded in what has been seen until then, and the end is as
`post` says. -/
def Grounded (grounds : Trace → Request → Prop) (post : α → Trace → Prop) :
    Interaction α → Trace → Prop
  | done a, t => post a t
  | call r next, t =>
    grounds t r ∧ ∀ a, (next a).Grounded grounds post (t ++ [.call r a])
  | emit server event next, t => next.Grounded grounds post (t ++ [.event server event])
  | secret next, t => ∀ text, (next text).Grounded grounds post (t ++ [.secret text])

theorem Grounded.mono {post' : α → Trace → Prop} (h : x.Grounded grounds post t)
    (hpost : ∀ a t, post a t → post' a t) : x.Grounded grounds post' t := by
  induction x generalizing t with
  | done a => exact hpost a t h
  | call r next ih => exact ⟨h.1, fun a => ih a (h.2 a)⟩
  | emit server event next ih => exact ih h
  | secret next ih => exact fun text => ih text (h text)

theorem grounded_bind {f : α → Interaction β} {post' : β → Trace → Prop}
    (hx : x.Grounded grounds post t) (hf : ∀ a t, post a t → (f a).Grounded grounds post' t) :
    (x.bind f).Grounded grounds post' t := by
  induction x generalizing t with
  | done a => exact hf a t hx
  | call r next ih => exact ⟨hx.1, fun a => ih a (hx.2 a)⟩
  | emit server event next ih => exact ih hx
  | secret next ih => exact fun text => ih text (hx text)

theorem Grounded.step {x' : Interaction α} {s s' : σ} {e : Entry} (h : x.Grounded grounds post t)
    (hstep : Step w x s e x' s') : x'.Grounded grounds post (t ++ [e]) := by
  cases hstep with
  | call => exact h.2 _
  | emit => exact h
  | secret text => exact h text

/-- What is grounded stays so along steps in any world. -/
theorem Grounded.steps {x' : Interaction α} {s s' : σ} {t' : Trace}
    (h : x.Grounded grounds post t) (hsteps : Steps w x s t' x' s') :
    x'.Grounded grounds post (t ++ t') := by
  induction hsteps with
  | refl => rwa [List.append_nil]
  | step _ hlast ih =>
    rw [← List.append_assoc]
    exact ih.step hlast

end Interaction

end PushOperator
