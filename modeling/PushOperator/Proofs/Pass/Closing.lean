import PushOperator.Proofs.Pass.RefusedWrites

/-!
# The opening and the closing of a pass

A pass goes through its steps and then writes what has become of the server. If that last write is
refused, the pass has failed after all, and says so in the status that it would have written
(`close_of_placed`).
-/

namespace PushOperator.Pass

variable {settings : Settings} {st : PassState}

/-- A pass up to the point at which all of its steps are done. -/
def opening (settings : Settings) : Pass Unit := do
  deferToActive
  start
  converge settings

/-- A pass whose steps are done, before that is written. -/
def succeeded (st : PassState) : PassState :=
  { st with server := Server.succeed st.server st.ready st.children, children := ∅ }

/-- What comes after the opening. -/
def close : Except Halt Unit × PassState → Interaction Action
  | (.ok (), st) => (succeed.exec st).bind fun
    | (.ok (), _) => .done (.requeue 30)
    | (.error halt, st') => finish (.error halt, st')
  | (.error halt, st) => finish (.error halt, st)

theorem run_eq_opening (settings : Settings) (server : Server) : run settings server =
    ((opening settings).exec { server, stored := server.status }).bind close := by
  have hbody : body settings = opening settings >>= fun _ => succeed >>= fun _ =>
      pure (.requeue 30) := by
    unfold body opening
    simp only [bind_assoc]
  rw [run_eq, hbody, exec_bind, Interaction.bind_assoc]
  refine congrArg (Interaction.bind _) (funext fun p => ?_)
  rcases p with ⟨halt | _, st⟩
  · rfl
  · show ((succeed >>= fun _ => pure (.requeue 30) : Pass Action).exec st).bind finish = _
    rw [exec_bind, Interaction.bind_assoc]
    refine congrArg (Interaction.bind _) (funext fun p => ?_)
    rcases p with ⟨halt | _, st'⟩ <;> rfl

/-- The last write of a pass over a server with a place decides whether the pass has failed. -/
theorem close_of_placed (hplaced : placed st.server.metadata = .ok ()) : close (.ok (), st) =
    if (succeeded st).server.observe.status = st.stored then .done (.requeue 30)
    else .call (.updateStatus .unifiedPushServer (succeeded st).server.observe) fun
      | .error error => conclude error (succeeded st)
      | .ok _ => .done (.requeue 30) := by
  show (persist.exec (succeeded st)).bind _ = _
  rw [exec_persist]
  have hmetadata : (succeeded st).server.metadata = st.server.metadata := rfl
  rw [hmetadata, hplaced]
  show (if (succeeded st).server.observe.status = st.stored then _ else _ :
    Interaction _).bind _ = _
  split
  · rfl
  · refine congrArg (Interaction.call _) (funext fun answer => ?_)
    rcases answer with error | updated <;> rfl

end PushOperator.Pass
