import PushOperator.Pass.Basic

/-!
# The legacy step

Earlier versions of the operator made deployment configurations and image streams. Those that belong
to the server are deleted, on clusters that have such kinds at all.
-/

namespace PushOperator.Pass

def removeLegacyObject {k : Kind} (object : Object k) : Pass Unit := do
  let _ ← Task.call (.delete k object)
  report .legacyResourceRemoved ("Deleted " ++ k.name ++ " " ++ object.anyName)

/-- Deletes the objects of a kind that carry the name of the server and belong to it. -/
def removeLegacy (k : Kind) : Pass Unit := do
  if !(← Task.call (.probe k.apiVersion)) then return
  let server ← server
  let ns ← (server.metadata.requireNs : Task String)
  match ← (Task.call (.list k ns ("app=" ++ server.anyName))).attempt with
  | .error error => if error.isNotFound then return else throw (.failed error)
  | .ok objects =>
    (objects.filter (·.metadata.isOwnedBy server.metadata.uid)).forM removeLegacyObject

def removeLegacyKinds : Pass Unit := do
  removeLegacy .deploymentConfig
  removeLegacy .imageStream

end PushOperator.Pass
