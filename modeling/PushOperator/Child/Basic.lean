import PushOperator.Object
import PushOperator.Settings

/-!
# Children

What the children of a server have in common: their names, labels and owner. A child is called
`<server>-<suffix>`, and its labels name the server and the child.
-/

namespace PushOperator

/-! ## Names and namespaces -/

namespace ObjectMeta

/-- The name of an object that has to have one. -/
def requireName (m : ObjectMeta) : Except Error String :=
  match m.name with
  | some name => .ok name
  | none => .error .unnamedObject

/-- The namespace of an object that has to have one. -/
def requireNs (m : ObjectMeta) : Except Error String :=
  match m.ns with
  | some ns => .ok ns
  | none => .error .noNamespace

end ObjectMeta

namespace Child

/-- What the name of each child ends in. -/
def postgresql : String := "postgresql"

@[inherit_doc postgresql]
def unifiedpush : String := "unifiedpush"

@[inherit_doc postgresql]
def proxy : String := "unifiedpush-proxy"

@[inherit_doc postgresql]
def amq : String := "amq"

@[inherit_doc postgresql]
def backup : String := "backup"

def childName (server : Server) (suffix : String) : String := server.anyName ++ "-" ++ suffix

def labels (server : Server) (suffix : String) : Dict String :=
  Dict.ofList [("app", server.anyName), ("service", childName server suffix)]

/-- The selector that matches those labels. -/
def selector (server : Server) (suffix : String) : String :=
  ",".intercalate ((labels server suffix).entries.map fun (key, value) => key ++ "=" ++ value)

/-- Metadata of an object in the namespace of the server. -/
def namedMeta (server : Server) (name : String) (labels : Dict String) :
    Except Error ObjectMeta := do
  return { name := some name, ns := some (← server.metadata.requireNs), labels := some labels }

def objectMeta (server : Server) (suffix : String) : Except Error ObjectMeta :=
  namedMeta server (childName server suffix) (labels server suffix)

/-- The reference to the server that every child carries. -/
def ownerReference (server : Server) : Except Error OwnerReference :=
  match server.metadata.name, server.metadata.uid with
  | some name, some uid => .ok {
      apiVersion := Kind.unifiedPushServer.apiVersion
      kind := Kind.unifiedPushServer.name
      name, uid
      controller := some true }
  | name, _ => .error <| .userInput <|
      "UnifiedPushServer " ++ name.getD "" ++ " has no uid and can not own children"

/-! ## Pods -/

/-- A variable whose value is a key of a secret. -/
def secretEnv (name secret key : String) (optional : Option Bool := none) : EnvVar :=
  { name, valueFrom := some { secretKeyRef := some { key, name := secret, optional } } }

def valueEnv (name value : String) : EnvVar := { name, value := some value }

def tolerations (server : Server) : Option (List Toleration) :=
  if server.spec.tolerations.isEmpty then none else some server.spec.tolerations

def upsResources (server : Server) (settings : Settings) : Except Error ResourceRequirements :=
  ResourceRequirements.layered server.spec.unifiedPushResourceRequirements settings.upsResources

def oauthProxyResources (server : Server) (settings : Settings) :
    Except Error ResourceRequirements :=
  ResourceRequirements.layered server.spec.oAuthResourceRequirements settings.oauthResources

def postgresResources (server : Server) (settings : Settings) :
    Except Error ResourceRequirements :=
  ResourceRequirements.layered server.spec.postgresResourceRequirements settings.postgresResources

end Child

end PushOperator
