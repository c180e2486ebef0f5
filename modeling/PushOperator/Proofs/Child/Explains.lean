import PushOperator.Proofs.Child.Place
import PushOperator.Readiness

/-!
# Failures say why

What can not be built, or is seen to have failed, says so in an error with words.
-/

namespace PushOperator

theorem append_ne_empty {a : String} (h : a ≠ "") (b : String) : a ++ b ≠ "" := by
  simp [h]

/-- Only a complaint about an input can be without words. -/
theorem Error.message_ne_empty {error : Error} (h : error ≠ .userInput "") :
    error.message ≠ "" := by
  cases error with
  | userInput text => exact fun hempty => h (congrArg Error.userInput hempty)
  | api e => exact append_ne_empty (by decide) _
  | unreachable => show "Kubernetes reported error" ≠ ""; decide
  | unnamedObject => show "Unnamed k8s object" ≠ ""; decide
  | configuration text => exact append_ne_empty (by decide) text
  | lockPoisoned text => exact append_ne_empty (by decide) text
  | emitEventFailed text => exact append_ne_empty (by decide) text
  | childFailed kind name reason =>
    show kind ++ " " ++ name ++ " failed: " ++ reason ≠ ""
    simp

/-- Something that, if it fails, fails with words. -/
def Explains {α : Type} (e : Except Error α) : Prop :=
  ∀ error, e = .error error → error.message ≠ ""

section

variable {α β : Type}

theorem explains_ok (a : α) : Explains (.ok a) := by
  intro error h
  cases h

theorem explains_error {error : Error} (h : error ≠ .userInput "") :
    Explains (.error error : Except Error α) := by
  intro error' heq
  obtain rfl := Except.error.inj heq
  exact Error.message_ne_empty h

theorem Explains.bind {x : Except Error α} {f : α → Except Error β} (hx : Explains x)
    (hf : ∀ a, Explains (f a)) : Explains (x >>= f) := by
  intro error h
  cases x with
  | error e =>
    obtain rfl := Except.error.inj h
    exact hx e rfl
  | ok a => exact hf a error h

/-- What comes after a part fails in the same way when the part does. -/
theorem error_bind_congr {x : Except Error α} {f g : α → Except Error β} {error : Error}
    (h : x >>= f = .error error) (hfg : ∀ a, f a = .error error → g a = .error error) :
    x >>= g = .error error := by
  cases x with
  | error e =>
    obtain rfl := Except.error.inj h
    rfl
  | ok a => exact hfg a h

theorem explains_mapM {f : α → Except Error β} {l : List α} (hf : ∀ a, Explains (f a)) :
    Explains (l.mapM f) := by
  induction l with
  | nil => exact explains_ok []
  | cons a l ih =>
    rw [List.mapM_cons]
    exact (hf a).bind fun b => ih.bind fun bs => explains_ok (b :: bs)

end

theorem ObjectMeta.explains_requireNs (m : ObjectMeta) : Explains m.requireNs := by
  unfold requireNs
  split
  · exact explains_ok _
  · exact explains_error (by decide)

theorem ObjectMeta.explains_requireName (m : ObjectMeta) : Explains m.requireName := by
  unfold requireName
  split
  · exact explains_ok _
  · exact explains_error (by decide)

theorem Quantity.explains_parse (text : String) : Explains (parse text) := by
  unfold parse
  split
  · exact explains_ok _
  · exact explains_error (by simp)

theorem ResourceRequirements.explains_layered (overrides : Option ResourceRequirements)
    (defaults : ResourceDefaults) : Explains (layered overrides defaults) := by
  have hfill (entries : Dict String) (key text : String) : Explains (fillIn entries key text) := by
    unfold fillIn
    split
    · exact explains_ok _
    · exact (Quantity.explains_parse text).bind fun _ => explains_ok _
  have hlayer (overrides : Option (Dict String)) (memory cpu : String) :
      Explains (layer overrides memory cpu) := by
    refine (explains_mapM fun entry => ?_).bind fun entries => ?_
    · exact (Quantity.explains_parse entry.2).bind fun _ => explains_ok _
    · exact (hfill _ _ _).bind fun _ => hfill _ _ _
  exact (hlayer _ _ _).bind fun _ => (hlayer _ _ _).bind fun _ => explains_ok _

/-- A deployment that has failed says so. -/
theorem Deployment.explains_isReady (deployment : Option Deployment) :
    Explains (isReady deployment) := by
  cases deployment with
  | none => exact explains_ok false
  | some deployment =>
    unfold isReady
    dsimp only
    split
    · exact deployment.metadata.explains_requireName.bind fun _ => explains_error (by simp)
    · exact explains_ok _

namespace Child

variable {settings : Settings}

theorem explains_ownerReference (server : Server) : Explains (ownerReference server) := by
  unfold ownerReference
  split
  · exact explains_ok _
  · refine explains_error fun h => ?_
    have hlist := congrArg String.toList (Error.userInput.inj h)
    simp at hlist

theorem explains_namedMeta (server : Server) (name : String) (labels : Dict String) :
    Explains (namedMeta server name labels) :=
  server.metadata.explains_requireNs.bind fun _ => explains_ok _

/-- A builder that asks for nothing but a namespace. -/
theorem explains_namedMeta_bind {k : Kind} {server : Server} {name : String} {labels : Dict String}
    {f : ObjectMeta → Object k} :
    Explains (namedMeta server name labels >>= fun m => pure (f m)) :=
  (explains_namedMeta server name labels).bind fun m => explains_ok (f m)

theorem explains_catalogue {address : String} {build : Server → Except Error Address}
    (h : (address, build) ∈ Broker.catalogue) (server : Server) : Explains (build server) := by
  simp only [Broker.catalogue, List.mem_append, List.mem_map, Prod.mk.injEq] at h
  obtain ⟨_, _, rfl, rfl⟩ | ⟨_, _, rfl, rfl⟩ := h
  · exact explains_namedMeta_bind
  · exact explains_namedMeta_bind

theorem explains_claim (server : Server) : Explains (Database.claim server settings) := by
  refine (explains_namedMeta server _ _).bind fun _ => Explains.bind ?_ fun _ => explains_ok _
  unfold Database.claimSize
  split
  · exact Quantity.explains_parse _
  · exact Quantity.explains_parse _

theorem explains_databaseSecret (server : Server) (password : String) :
    Explains (Database.secret server password) := by
  have hmeta (entries : List (String × String)) : Explains (do
      return {
        metadata := ← objectMeta server postgresql
        spec := { stringData := some (Dict.ofList entries) }
        status := () } : Except Error Secret) := explains_namedMeta_bind
  refine server.metadata.explains_requireNs.bind fun ns => ?_
  split
  · refine Explains.bind ?_ hmeta
    unfold Database.externalEntries
    split
    · exact explains_error (by simp)
    · exact explains_ok _
  · exact (explains_ok _).bind hmeta

theorem explains_databaseDeployment (server : Server) :
    Explains (Database.deployment server settings) :=
  (ResourceRequirements.explains_layered _ _).bind fun _ => explains_namedMeta_bind

theorem explains_serverDeployment (server : Server) (cookieSecret : String) :
    Explains (Frontend.deployment server settings cookieSecret) :=
  (ResourceRequirements.explains_layered _ _).bind fun _ =>
    (ResourceRequirements.explains_layered _ _).bind fun _ => explains_namedMeta_bind

theorem explains_cronJobs (server : Server) : Explains (Backup.cronJobs server settings) :=
  explains_mapM fun _ => server.metadata.explains_requireNs.bind fun _ => explains_namedMeta_bind

end Child

end PushOperator
