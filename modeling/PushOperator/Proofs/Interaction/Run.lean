import Mathlib.Tactic.Common
import PushOperator.Interaction.Basic

/-!
# Runs of interactions

An interaction meets a world: something that answers requests, perhaps in several ways, while its
state changes. A run is a finite sequence of steps of the interaction in the world. It leaves a
trace of its calls with their answers, its events and its secrets, and it may be cut short at any
point, so the points of a run are the states of the runs that are cut short there.

Main statements: `run_bind_iff` takes the run of a sequence apart, `Run.unique` says that a world
that answers in one way leaves room for one run only, and `Interaction.exists_run` that an
interaction comes to its end in a world that always answers.
-/

namespace PushOperator

/-- What is seen of one step of an interaction. -/
inductive Entry where
  | call (request : Request) (answer : Except Error request.Reply)
  | event (server : Server) (event : Event)
  | secret (text : String)

abbrev Trace := List Entry

/-- The ways in which requests are answered while a state changes. -/
abbrev World (σ : Type) := (request : Request) → σ → Except Error request.Reply → σ → Prop

variable {σ α β : Type} {w : World σ}

/-! ## Steps and runs -/

/-- One step: a call with one of its answers, an event, or a secret, which may be any text. -/
inductive Step (w : World σ) : Interaction α → σ → Entry → Interaction α → σ → Prop
  | call {r next s a s'} : w r s a s' → Step w (.call r next) s (.call r a) (next a) s'
  | emit {server event next s} : Step w (.emit server event next) s (.event server event) next s
  | secret {next s} (text : String) : Step w (.secret next) s (.secret text) (next text) s

/-- A sequence of steps, to the end of the interaction or cut short on the way. -/
inductive Run (w : World σ) : Interaction α → σ → Trace → Option α → σ → Prop
  | done (a : α) (s : σ) : Run w (.done a) s [] (some a) s
  | cut (x : Interaction α) (s : σ) : Run w x s [] none s
  | step {x s e x' s' t o s''} : Step w x s e x' s' → Run w x' s' t o s'' → Run w x s (e :: t) o s''

theorem Step.mono {w' : World σ} (hw : ∀ r s a s', w r s a s' → w' r s a s') {x x' : Interaction α}
    {s s' : σ} {e : Entry} (h : Step w x s e x' s') : Step w' x s e x' s' := by
  cases h with
  | call h => exact .call (hw _ _ _ _ h)
  | emit => exact .emit
  | secret text => exact .secret text

/-- A run in a world is a run in every world that allows more. -/
theorem Run.mono {w' : World σ} (hw : ∀ r s a s', w r s a s' → w' r s a s') {x : Interaction α}
    {s s' : σ} {t : Trace} {o : Option α} (h : Run w x s t o s') : Run w' x s t o s' := by
  induction h with
  | done a s => exact .done a s
  | cut x s => exact .cut x s
  | step h _ ih => exact .step (h.mono hw) ih

/-- At its end an interaction does nothing more. -/
theorem Run.of_done {a : α} {s s' : σ} {t : Trace} {o : Option α} (h : Run w (.done a) s t o s') :
    t = [] ∧ s' = s := by
  cases h with
  | done | cut => exact ⟨rfl, rfl⟩
  | step h => cases h

theorem run_done_some {a b : α} {s s' : σ} {t : Trace} :
    Run w (.done a) s t (some b) s' ↔ b = a ∧ t = [] ∧ s' = s := by
  constructor
  · intro h
    cases h with
    | done => exact ⟨rfl, rfl, rfl⟩
    | step h => cases h
  · rintro ⟨rfl, rfl, rfl⟩
    exact .done b s'

theorem run_call_some {r : Request} {next : Except Error r.Reply → Interaction α} {s s'' : σ}
    {t : Trace} {b : α} :
    Run w (.call r next) s t (some b) s'' ↔
      ∃ a s' t', w r s a s' ∧ Run w (next a) s' t' (some b) s'' ∧ t = .call r a :: t' := by
  constructor
  · intro h
    cases h with
    | step h h' =>
      cases h with
      | call h => exact ⟨_, _, _, h, h', rfl⟩
  · rintro ⟨a, s', t', h, h', rfl⟩
    exact .step (.call h) h'

/-- A run of a call is cut short before it, or goes on with an answer. -/
theorem Run.call_cases {r : Request} {next : Except Error r.Reply → Interaction α} {s s'' : σ}
    {t : Trace} {o : Option α} (h : Run w (.call r next) s t o s'') :
    (t = [] ∧ s'' = s) ∨
      ∃ a s' t', w r s a s' ∧ Run w (next a) s' t' o s'' ∧ t = .call r a :: t' := by
  cases h with
  | cut => exact .inl ⟨rfl, rfl⟩
  | step h h' =>
    cases h with
    | call h => exact .inr ⟨_, _, _, h, h', rfl⟩

theorem run_emit_some {server : Server} {event : Event} {next : Interaction α} {s s' : σ}
    {t : Trace} {b : α} :
    Run w (.emit server event next) s t (some b) s' ↔
      ∃ t', Run w next s t' (some b) s' ∧ t = .event server event :: t' := by
  constructor
  · intro h
    cases h with
    | step h h' =>
      cases h
      exact ⟨_, h', rfl⟩
  · rintro ⟨t', h, rfl⟩
    exact .step .emit h

theorem run_secret_some {next : String → Interaction α} {s s' : σ} {t : Trace} {b : α} :
    Run w (.secret next) s t (some b) s' ↔
      ∃ text t', Run w (next text) s t' (some b) s' ∧ t = .secret text :: t' := by
  constructor
  · intro h
    cases h with
    | step h h' =>
      cases h with
      | secret text => exact ⟨text, _, h', rfl⟩
  · rintro ⟨text, t', h, rfl⟩
    exact .step (.secret text) h

/-! ## Sequences -/

theorem Step.bind {x x' : Interaction α} {s s' : σ} {e : Entry} (h : Step w x s e x' s')
    (f : α → Interaction β) : Step w (x.bind f) s e (x'.bind f) s' := by
  cases h with
  | call h => exact .call h
  | emit => exact .emit
  | secret text => exact .secret text

theorem Step.call_cases {r : Request} {next : Except Error r.Reply → Interaction α}
    {x' : Interaction α} {s s' : σ} {e : Entry} (h : Step w (.call r next) s e x' s') :
    ∃ a, w r s a s' ∧ e = .call r a ∧ x' = next a := by
  cases h with
  | call h => exact ⟨_, h, rfl, rfl⟩

/-- A step of a sequence is one of its first part as long as that has not come to its end. -/
theorem Step.bind_cases {x : Interaction α} {f : α → Interaction β} {y : Interaction β} {s s' : σ}
    {e : Entry} (h : Step w (x.bind f) s e y s') :
    (∃ a, x = .done a ∧ Step w (f a) s e y s') ∨ ∃ x', Step w x s e x' s' ∧ y = x'.bind f := by
  cases x with
  | done a => exact .inl ⟨a, rfl, h⟩
  | call r next =>
    obtain ⟨a, hw, rfl, rfl⟩ := h.call_cases
    exact .inr ⟨next a, .call hw, rfl⟩
  | emit server event next =>
    cases h
    exact .inr ⟨next, .emit, rfl⟩
  | secret next =>
    cases h with
    | secret text => exact .inr ⟨next text, .secret text, rfl⟩

/-- A run goes on where the run of what came before has ended. -/
theorem Run.bind {x : Interaction α} {f : α → Interaction β} {s s' s'' : σ} {t t' : Trace} {a : α}
    {o : Option β} (hx : Run w x s t (some a) s') (hf : Run w (f a) s' t' o s'') :
    Run w (x.bind f) s (t ++ t') o s'' := by
  -- The induction is on the run of the first part, so its result must not be fixed.
  generalize ho : some a = oa at hx
  induction hx with
  | done b s =>
    obtain rfl := Option.some.inj ho
    exact hf
  | cut x s => cases ho
  | step h _ ih => exact .step (h.bind f) (ih hf ho)

/-- A run of a sequence ends, or is cut short, either within the first part or after its end. -/
theorem Run.bind_cases {x : Interaction α} {f : α → Interaction β} {s s'' : σ} {t : Trace}
    {o : Option β} (h : Run w (x.bind f) s t o s'') :
    (o = none ∧ Run w x s t none s'') ∨
      ∃ a s' t₁ t₂, Run w x s t₁ (some a) s' ∧ Run w (f a) s' t₂ o s'' ∧ t = t₁ ++ t₂ := by
  induction x generalizing s t with
  | done a => exact .inr ⟨a, s, [], t, .done a s, h, rfl⟩
  | call r next ih =>
    cases h with
    | cut => exact .inl ⟨rfl, .cut _ _⟩
    | step h h' =>
      cases h with
      | call hw =>
        rcases ih _ h' with ⟨ho, hx⟩ | ⟨a, s', t₁, t₂, h₁, h₂, rfl⟩
        · exact .inl ⟨ho, .step (.call hw) hx⟩
        · exact .inr ⟨a, s', _ :: t₁, t₂, .step (.call hw) h₁, h₂, rfl⟩
  | emit server event next ih =>
    cases h with
    | cut => exact .inl ⟨rfl, .cut _ _⟩
    | step h h' =>
      cases h
      rcases ih h' with ⟨ho, hx⟩ | ⟨a, s', t₁, t₂, h₁, h₂, rfl⟩
      · exact .inl ⟨ho, .step .emit hx⟩
      · exact .inr ⟨a, s', _ :: t₁, t₂, .step .emit h₁, h₂, rfl⟩
  | secret next ih =>
    cases h with
    | cut => exact .inl ⟨rfl, .cut _ _⟩
    | step h h' =>
      cases h with
      | secret text =>
        rcases ih _ h' with ⟨ho, hx⟩ | ⟨a, s', t₁, t₂, h₁, h₂, rfl⟩
        · exact .inl ⟨ho, .step (.secret text) hx⟩
        · exact .inr ⟨a, s', _ :: t₁, t₂, .step (.secret text) h₁, h₂, rfl⟩

/-- A run of a sequence to its end is a run of the first part and one of what follows. -/
theorem run_bind_iff {x : Interaction α} {f : α → Interaction β} {s s'' : σ} {t : Trace} {b : β} :
    Run w (x.bind f) s t (some b) s'' ↔
      ∃ a s' t₁ t₂, Run w x s t₁ (some a) s' ∧ Run w (f a) s' t₂ (some b) s'' ∧ t = t₁ ++ t₂ := by
  constructor
  · intro h
    rcases h.bind_cases with ⟨ho, _⟩ | h
    · cases ho
    · exact h
  · rintro ⟨a, s', t₁, t₂, h₁, h₂, rfl⟩
    exact h₁.bind h₂

/-- What only changes the result of an interaction has the same runs. -/
theorem Run.of_bind_done {x : Interaction α} {f : α → β} {s s' : σ} {t : Trace} {o : Option β}
    (h : Run w (x.bind fun a => .done (f a)) s t o s') : ∃ o', Run w x s t o' s' := by
  rcases h.bind_cases with ⟨-, hx⟩ | ⟨a, s₁, t₁, t₂, hx, hdone, rfl⟩
  · exact ⟨none, hx⟩
  · obtain ⟨rfl, rfl⟩ := hdone.of_done
    exact ⟨some a, (List.append_nil t₁).symm ▸ hx⟩

/-! ## Runs to the end -/

/-- The interaction may come to its end with a result, all entries of the trace meeting `P`. -/
def Interaction.Yields (w : World σ) (P : Entry → Prop) (x : Interaction α) (s : σ) (a : α)
    (s' : σ) : Prop :=
  ∃ t, (∀ e ∈ t, P e) ∧ Run w x s t (some a) s'

namespace Interaction

variable {P : Entry → Prop} {s s' : σ}

theorem yields_done {a b : α} : Yields w P (done a) s b s' ↔ b = a ∧ s' = s := by
  unfold Yields
  constructor
  · rintro ⟨t, -, h⟩
    obtain ⟨hb, -, hs⟩ := run_done_some.1 h
    exact ⟨hb, hs⟩
  · rintro ⟨rfl, rfl⟩
    exact ⟨[], by simp, .done _ _⟩

theorem yields_call {r : Request} {next : Except Error r.Reply → Interaction α} {b : α} :
    Yields w P (call r next) s b s' ↔
      ∃ a s₁, P (.call r a) ∧ w r s a s₁ ∧ Yields w P (next a) s₁ b s' := by
  constructor
  · rintro ⟨t, ht, h⟩
    obtain ⟨a, s₁, t', hw, h', rfl⟩ := run_call_some.1 h
    exact ⟨a, s₁, ht _ List.mem_cons_self, hw, t', fun e he => ht e (List.mem_cons_of_mem _ he), h'⟩
  · rintro ⟨a, s₁, hP, hw, t', ht, h'⟩
    exact ⟨_ :: t', List.forall_mem_cons.2 ⟨hP, ht⟩, .step (.call hw) h'⟩

theorem yields_emit {server : Server} {event : Event} {next : Interaction α} {b : α} :
    Yields w P (emit server event next) s b s' ↔
      P (.event server event) ∧ Yields w P next s b s' := by
  constructor
  · rintro ⟨t, ht, h⟩
    obtain ⟨t', h', rfl⟩ := run_emit_some.1 h
    exact ⟨ht _ List.mem_cons_self, t', fun e he => ht e (List.mem_cons_of_mem _ he), h'⟩
  · rintro ⟨hP, t', ht, h'⟩
    exact ⟨_ :: t', List.forall_mem_cons.2 ⟨hP, ht⟩, .step .emit h'⟩

theorem yields_secret {next : String → Interaction α} {b : α} :
    Yields w P (secret next) s b s' ↔ ∃ text, P (.secret text) ∧ Yields w P (next text) s b s' := by
  constructor
  · rintro ⟨t, ht, h⟩
    obtain ⟨text, t', h', rfl⟩ := run_secret_some.1 h
    exact ⟨text, ht _ List.mem_cons_self, t', fun e he => ht e (List.mem_cons_of_mem _ he), h'⟩
  · rintro ⟨text, hP, t', ht, h'⟩
    exact ⟨_ :: t', List.forall_mem_cons.2 ⟨hP, ht⟩, .step (.secret text) h'⟩

theorem yields_bind {x : Interaction α} {f : α → Interaction β} {b : β} :
    Yields w P (x.bind f) s b s' ↔ ∃ a s₁, Yields w P x s a s₁ ∧ Yields w P (f a) s₁ b s' := by
  constructor
  · rintro ⟨t, ht, h⟩
    obtain ⟨a, s₁, t₁, t₂, h₁, h₂, rfl⟩ := run_bind_iff.1 h
    obtain ⟨ht₁, ht₂⟩ := List.forall_mem_append.1 ht
    exact ⟨a, s₁, ⟨t₁, ht₁, h₁⟩, t₂, ht₂, h₂⟩
  · rintro ⟨a, s₁, ⟨t₁, ht₁, h₁⟩, t₂, ht₂, h₂⟩
    exact ⟨t₁ ++ t₂, List.forall_mem_append.2 ⟨ht₁, ht₂⟩, h₁.bind h₂⟩

theorem Yields.mono {w' : World σ} {P' : Entry → Prop} {x : Interaction α} {a : α}
    (h : Yields w P x s a s') (hw : ∀ r s a s', w r s a s' → w' r s a s') (hP : ∀ e, P e → P' e) :
    Yields w' P' x s a s' := by
  obtain ⟨t, ht, h⟩ := h
  exact ⟨t, fun e he => hP e (ht e he), h.mono hw⟩

end Interaction

/-! ## How many runs there are -/

/-- Where each request has at most one answer, a run without secrets is the only one. -/
theorem Run.unique (hw : ∀ r s a s' b s'', w r s a s' → w r s b s'' → a = b ∧ s' = s'')
    {x : Interaction α} {s s₁ s₂ : σ} {t₁ t₂ : Trace} {a₁ a₂ : α}
    (hsecret : ∀ text, .secret text ∉ t₁)
    (h₁ : Run w x s t₁ (some a₁) s₁) (h₂ : Run w x s t₂ (some a₂) s₂) :
    t₂ = t₁ ∧ a₂ = a₁ ∧ s₂ = s₁ := by
  induction x generalizing s t₁ t₂ with
  | done a =>
    obtain ⟨rfl, rfl, rfl⟩ := run_done_some.1 h₁
    obtain ⟨rfl, rfl, rfl⟩ := run_done_some.1 h₂
    exact ⟨rfl, rfl, rfl⟩
  | call r next ih =>
    obtain ⟨a, s', t, hr, hrest, rfl⟩ := run_call_some.1 h₁
    obtain ⟨b, s'', t', hr', hrest', rfl⟩ := run_call_some.1 h₂
    obtain ⟨rfl, rfl⟩ := hw _ _ _ _ _ _ hr hr'
    obtain ⟨rfl, rfl, rfl⟩ :=
      ih _ (fun text h => hsecret text (List.mem_cons_of_mem _ h)) hrest hrest'
    exact ⟨rfl, rfl, rfl⟩
  | emit server event next ih =>
    obtain ⟨t, hrest, rfl⟩ := run_emit_some.1 h₁
    obtain ⟨t', hrest', rfl⟩ := run_emit_some.1 h₂
    obtain ⟨rfl, rfl, rfl⟩ :=
      ih (fun text h => hsecret text (List.mem_cons_of_mem _ h)) hrest hrest'
    exact ⟨rfl, rfl, rfl⟩
  | secret next =>
    -- The texts of two runs may differ here, but there is no secret in the first.
    obtain ⟨text, t, _, rfl⟩ := run_secret_some.1 h₁
    exact absurd List.mem_cons_self (hsecret text)

/-- The interaction comes to its end in this way and in no other. -/
def OnlyRun (w : World σ) (x : Interaction α) (s : σ) (t : Trace) (a : α) (s' : σ) : Prop :=
  Run w x s t (some a) s' ∧
    ∀ t₁ a₁ s₁, Run w x s t₁ (some a₁) s₁ → t₁ = t ∧ a₁ = a ∧ s₁ = s'

/-- Where every request has an answer, every interaction has a run to its end. -/
theorem Interaction.exists_run (hw : ∀ r s, ∃ a s', w r s a s') (x : Interaction α) (s : σ) :
    ∃ t a s', Run w x s t (some a) s' := by
  induction x generalizing s with
  | done a => exact ⟨[], a, s, .done a s⟩
  | call r next ih =>
    obtain ⟨a, s', h⟩ := hw r s
    obtain ⟨t, b, s'', h'⟩ := ih a s'
    exact ⟨_, b, s'', .step (.call h) h'⟩
  | emit server event next ih =>
    obtain ⟨t, b, s', h⟩ := ih s
    exact ⟨_, b, s', .step .emit h⟩
  | secret next ih =>
    obtain ⟨t, b, s', h⟩ := ih "" s
    exact ⟨_, b, s', .step (.secret "") h⟩

/-! ## Handlers -/

/-- What is seen of an interaction with a handler. -/
def Interaction.trace {τ : Type} (handler : Handler τ) : Interaction α → τ → Trace
  | done _, _ => []
  | call r next, s =>
    let (a, s) := handler.answer r s
    .call r a :: (next a).trace handler s
  | emit server event next, s =>
    .event server event :: next.trace handler (handler.accept server event s)
  | secret next, s =>
    let (text, s) := handler.draw s
    .secret text :: (next text).trace handler s

/-- What a handler does with an interaction is a run in any world that allows what the handler
answers. The world may see less than the handler: `view` is what it sees of the handler's state. -/
theorem Interaction.run_trace {τ : Type} (handler : Handler τ) (view : τ → σ) (ok : τ → Prop)
    (hanswer : ∀ r s, ok s → w r (view s) (handler.answer r s).1 (view (handler.answer r s).2) ∧
      ok (handler.answer r s).2)
    (haccept : ∀ server event s, ok s → view (handler.accept server event s) = view s ∧
      ok (handler.accept server event s))
    (hdraw : ∀ s, ok s → view (handler.draw s).2 = view s ∧ ok (handler.draw s).2)
    (x : Interaction α) (s : τ) (hs : ok s) :
    Run w x (view s) (x.trace handler s) (some (x.run handler s).1)
      (view (x.run handler s).2) := by
  induction x generalizing s with
  | done a => exact .done a _
  | call r next ih =>
    obtain ⟨h, hs⟩ := hanswer r s hs
    exact .step (.call h) (ih _ _ hs)
  | emit server event next ih =>
    obtain ⟨hview, hs⟩ := haccept server event s hs
    exact .step .emit (hview ▸ ih _ hs)
  | secret next ih =>
    obtain ⟨hview, hs⟩ := hdraw s hs
    exact .step (.secret _) (hview ▸ ih _ _ hs)

end PushOperator
